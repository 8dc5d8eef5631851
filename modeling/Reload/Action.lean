import Reload.Program
import Reload.World.Lock

/-!
Actions: programs that may panic. A panic ends the action at once; what was to be cleaned up is
cleaned up on the way out, and whoever attempts the action gets the panic as a value.
-/

namespace Reload

structure Panic where
  message : String
  deriving DecidableEq

/-- A program that ends with a value or with a panic. -/
abbrev Action (σ α : Type) : Type := ExceptT Panic (Program σ) α

/-- The shared state, and what the clients of the loaders keep beside it. -/
structure System (ρ : Type) where
  world : World
  client : ρ

namespace Action

variable {σ α β ρ : Type}

/-- One step that gives a value and a new state. -/
def atomically (f : σ → α × σ) : Action σ α := ExceptT.lift (Program.atomically f)

def panic (message : String) : Action σ α := ExceptT.mk (Program.done (.error ⟨message⟩))

/-- The end of an action as a value. -/
def attempt (body : Action σ α) : Action σ (Except Panic α) := ExceptT.lift body.run

/-- Cleans up after an action, also when it panics. The clean-up is told whether it does. -/
def ensuring (body : Action σ α) (cleanUp : (panicking : Bool) → Program σ Unit) : Action σ α :=
  ExceptT.mk do
    let result ← body.run
    cleanUp (result matches .error _)
    return result

def onWorld (f : World → α × World) : Action (System ρ) α :=
  atomically fun s => ((f s.world).1, { s with world := (f s.world).2 })

def change (f : World → World) : Action (System ρ) Unit := onWorld fun w => ((), f w)

def read (f : World → α) : Action (System ρ) α := onWorld fun w => (f w, w)

/-- One step of a clean-up, which changes the shared state. -/
def changing (f : World → World) : Program (System ρ) Unit :=
  Program.atomically fun s => ((), { s with world := f s.world })

/-- Runs an action while something is held that it works on. -/
def holding (retain release : World → World) (body : Action (System ρ) α) :
    Action (System ρ) α := do
  change retain
  body.ensuring fun _ => changing release

/-- Runs an action while the thread holds a lock, for which the caller has a handle. Afterwards the
    lock is free again, poisoned if the action panicked, and the handle is gone. -/
def withLock (lock : LockId) (thread : ThreadId) (body : Action (System ρ) α) :
    Action (System ρ) α := do
  ExceptT.lift <| Program.await (fun s => s.world.isFree lock)
    fun s => { s with world := s.world.acquire lock thread }
  body.ensuring fun panicking => do
    changing fun w => w.unlock lock panicking
    changing fun w => w.dropHandle lock

/-! ### Running actions -/

@[simp] theorem run_atomically (f : σ → α × σ) (s : σ) :
    (atomically f).run.run s = some (.ok (f s).1, (f s).2) := rfl

@[simp] theorem run_panic (message : String) (s : σ) :
    (panic message : Action σ α).run.run s = some (.error ⟨message⟩, s) := rfl

/-- A sequence stops at a panic of its first part. -/
theorem run_bind (body : Action σ α) (f : α → Action σ β) (s : σ) :
    (body >>= f).run.run s = (body.run.run s).bind fun
      | (.ok value, s) => (f value).run.run s
      | (.error panic, s) => some (.error panic, s) := by
  rw [ExceptT.run_bind, Program.run_bind]
  congr 1
  funext end_
  rcases end_ with ⟨_ | _, s⟩ <;> rfl

/-- An attempted action gives its panic as a value, and changes the state as it would anyway. -/
theorem run_attempt (body : Action σ α) (s : σ) :
    body.attempt.run.run s = (body.run.run s).map fun end_ => (.ok end_.1, end_.2) := by
  unfold attempt
  rw [ExceptT.run_lift, Program.run_map]

/-- The clean-up runs in the state where the action ended, and the action's end stays. -/
theorem run_ensuring (body : Action σ α) (cleanUp : Bool → Program σ Unit) (s : σ) :
    (body.ensuring cleanUp).run.run s = (body.run.run s).bind fun end_ =>
      ((cleanUp (end_.1 matches .error _)).run end_.2).map fun cleaned => (end_.1, cleaned.2) := by
  simp only [ensuring, ExceptT.run_mk, Program.run_bind]
  congr 1
  funext end_
  cases (cleanUp _).run end_.2 <;> rfl

end Action

end Reload
