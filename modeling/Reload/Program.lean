/-!
Programs of atomic steps on a shared state. A step waits until the state is ready for it, changes
the state, and goes on with a program that may depend on the state it found. Alone, a program runs
from its first step to its last; beside other programs, their steps may come in between.
-/

namespace Reload

/-- A program of atomic steps on a state of type `σ`, with a value at its end. -/
inductive Program (σ α : Type) where
  | done (value : α)
  /-- Waits for a state that is `ready`, changes it by `act`, and goes on with `next` of the state
      before the change. -/
  | step (ready : σ → Bool) (act : σ → σ) (next : σ → Program σ α)

namespace Program

variable {σ α β γ : Type}

/-- Goes on with another program at the end. -/
def bind : Program σ α → (α → Program σ β) → Program σ β
  | done value, f => f value
  | step ready act next, f => step ready act fun s => (next s).bind f

instance : Monad (Program σ) where
  pure := done
  bind := bind

/-- The value and the state at the end of a program that runs alone; nothing if it waits for a state
    that never comes. -/
def run : Program σ α → σ → Option (α × σ)
  | done value, s => some (value, s)
  | step ready act next, s => if ready s then run (next s) (act s) else none

def atomically (f : σ → α × σ) : Program σ α :=
  step (fun _ => true) (fun s => (f s).2) fun s => done (f s).1

/-- One step that waits for a state that is ready. -/
def await (ready : σ → Bool) (act : σ → σ) : Program σ Unit :=
  step ready act fun _ => done ()

/-- A program that waits forever; the value would be its answer. -/
def never (value : α) : Program σ α :=
  step (fun _ => false) id fun _ => done value

/-! ### Programs form a monad, and running one respects it -/

@[simp] theorem pure_eq_done (value : α) : (pure value : Program σ α) = done value := rfl

@[simp] theorem done_bind (value : α) (f : α → Program σ β) : (done value >>= f) = f value := rfl

@[simp] theorem step_bind (ready : σ → Bool) (act : σ → σ) (next : σ → Program σ α)
    (f : α → Program σ β) : (step ready act next >>= f) = step ready act fun s => next s >>= f := rfl

private theorem id_map_program (p : Program σ α) : id <$> p = p := by
  induction p with
  | done value => rfl
  | step ready act next ih => exact congrArg (step ready act) (funext ih)

private theorem bind_assoc_program (p : Program σ α) (f : α → Program σ β) (g : β → Program σ γ) :
    p >>= f >>= g = p >>= fun a => f a >>= g := by
  induction p with
  | done value => rfl
  | step ready act next ih => exact congrArg (step ready act) (funext ih)

instance : LawfulMonad (Program σ) :=
  LawfulMonad.mk' (Program σ) id_map_program (fun _ _ => rfl) bind_assoc_program

@[simp] theorem run_done (value : α) (s : σ) : (done value).run s = some (value, s) := rfl

/-- A sequence runs its first part, and then its second part from the state after the first. -/
theorem run_bind (p : Program σ α) (f : α → Program σ β) (s : σ) :
    (p >>= f).run s = (p.run s).bind fun end_ => (f end_.1).run end_.2 := by
  induction p generalizing s with
  | done value => rfl
  | step ready act next ih =>
    simp only [step_bind, run]
    split
    · exact ih s (act s)
    · rfl

theorem run_map (f : α → β) (p : Program σ α) (s : σ) :
    (f <$> p).run s = (p.run s).map fun end_ => (f end_.1, end_.2) := by
  rw [← bind_pure_comp, run_bind]
  cases p.run s <;> rfl

@[simp] theorem run_atomically (f : σ → α × σ) (s : σ) : (atomically f).run s = some (f s) := by
  simp [atomically, run]

@[simp] theorem run_await (ready : σ → Bool) (act : σ → σ) (s : σ) :
    (await ready act).run s = if ready s then some ((), act s) else none := by
  simp [await, run]

end Program

end Reload
