import Reload.Proofs.Definition.Place

/-!
A definition that runs alone. On a thread without a marker, and with a free definition lock, it is
the work of the packer and the host between a way in (`entered`) and a way out (`left`). Panics
take the same way out as failures and artifacts.
-/

namespace Reload

def Result.panicked : Result → Bool
  | .error _ => true
  | .ok _ => false

@[simp] theorem Result.panicked_ending (name : Name) (result : Result) :
    Ending.panicked (result.ending name) = result.panicked := by
  rcases result with panic | cause | ⟨artifact, swept⟩ <;> rfl

namespace Call

variable {ρ κ : Type} (call : Call ρ κ)

/-! ### The way in -/

/-- The definition lock that a definition takes. -/
def lock? (w : World) : Option LockId :=
  if call.loader.settings.serialize then some (w.lockFor call.loader.cache.locks call.name).1
  else none

def locked (w : World) : World :=
  match call.lock? w with
  | none => w
  | some lock => (w.lockFor call.loader.cache.locks call.name).2.acquire lock call.thread

def noted (notes : List Note) (w : World) : World :=
  notes.foldl (fun w note => note.apply call.loader.counters w) w

def forgotten (w : World) : World :=
  call.noted (call.forgetNotes (w.contains call.loader.cache call.name))
    (w.invalidate call.loader.cache call.name).2

/-- The state in which a definition turns to its packer. -/
def entered (w : World) : World :=
  call.forgotten ((call.locked w).mark call.thread call.name).2

/-! ### The way out -/

def unlocked (panicking : Bool) : Option LockId → World → World
  | none, w => w
  | some lock, w => (w.unlock lock panicking).dropHandle lock

/-- The state after a definition whose work has ended. -/
def left (lock : Option LockId) (result : Result) (w : World) : World :=
  unlocked result.panicked lock (call.noted (result.notes call.name) (w.unmark call.thread))

/-! ### Running alone -/

private theorem run_noting {α : Type} (notes : List Note) (rest : Program (System ρ) α)
    (s : System ρ) :
    (call.noting notes rest).run s = rest.run { s with world := call.noted notes s.world } := by
  induction notes generalizing s with
  | nil => rfl
  | cons first others ih => exact ih _

private theorem run_leaving (ending : Ending) (lock : Option LockId) (s : System ρ) :
    (leaving ending lock).run s =
      some (ending, { s with world := unlocked ending.panicked lock s.world }) := by
  cases lock <;> rfl

private theorem run_unmarking (lock : Option LockId) (result : Result) (s : System ρ) :
    (call.unmarking lock result).run s =
      some (Result.ending call.name result, { s with world := call.left lock result s.world }) := by
  show (call.reporting lock result).run { s with world := s.world.unmark call.thread } = _
  unfold reporting left
  rw [call.run_noting, run_leaving, Result.panicked_ending]

private theorem run_forgetting (lock : Option LockId) (s : System ρ) :
    (call.forgetting (call.unmarking lock)).run s =
      (call.work.run.run.run { s with world := call.forgotten s.world }).map fun end_ =>
        (Result.ending call.name end_.1,
          { end_.2 with world := call.left lock end_.1 end_.2.world }) := by
  refine (call.run_noting _ _ _).trans ?_
  rw [← call.work_bind, Program.run_bind]
  simp only [call.run_unmarking]
  exact (Option.map_eq_bind).symm

private theorem run_marking (lock : Option LockId) (s : System ρ)
    (unmarked : s.world.marker call.thread = none) :
    (call.marking lock).run s = (call.forgetting (call.unmarking lock)).run
      { s with world := (s.world.mark call.thread call.name).2 } := by
  have marks : (s.world.mark call.thread call.name).1 = .ok () := by simp [World.mark, unmarked]
  unfold marking
  simp only [Program.run, if_true, marks]

/-- On a thread without a marker, and with a free lock if it needs one, a definition is its work
    between the way in and the way out. -/
theorem run_define (s : System ρ) (unmarked : s.world.marker call.thread = none)
    (free : ∀ lock ∈ call.lock? s.world, s.world.isFree lock) :
    (call.loader.define call.thread call.name call.raw).run.run s =
      (call.work.run.run.run { s with world := call.entered s.world }).map fun end_ =>
        (Result.ending call.name end_.1,
          { end_.2 with world := call.left (call.lock? s.world) end_.1 end_.2.world }) := by
  rw [call.define_eq_checking]
  unfold checking
  simp only [Program.run, if_true, unmarked, id]
  have entering : ∀ w : World, w.marker call.thread = none →
      (call.marking (call.lock? s.world)).run { s with world := w } =
        (call.work.run.run.run
          { s with world := call.forgotten (w.mark call.thread call.name).2 }).map fun end_ =>
          (Result.ending call.name end_.1,
            { end_.2 with world := call.left (call.lock? s.world) end_.1 end_.2.world }) := by
    intro w unmarked
    rw [call.run_marking _ { s with world := w } unmarked, call.run_forgetting]
  by_cases serialize : call.loader.settings.serialize = true
  · have lock : call.lock? s.world = some (s.world.lockFor call.loader.cache.locks call.name).1 := by
      simp [lock?, serialize]
    have ready := free _ (by rw [lock]; rfl)
    have taken : call.locked s.world = (s.world.lockFor call.loader.cache.locks call.name).2.acquire
        (s.world.lockFor call.loader.cache.locks call.name).1 call.thread := by
      simp [locked, lock]
    have handed : (s.world.lockFor call.loader.cache.locks call.name).2.isFree
        (s.world.lockFor call.loader.cache.locks call.name).1 = true := by
      simpa [World.isFree] using ready
    simp only [serialize, if_true, taking, Program.run, waiting, handed]
    unfold entered
    rw [taken]
    exact lock ▸ entering _ (by simpa [World.acquire] using unmarked)
  · have lock : call.lock? s.world = none := by simp [lock?, serialize]
    have untaken : call.locked s.world = s.world := by simp [locked, lock]
    simp only [serialize]
    unfold entered
    rw [untaken]
    exact lock ▸ entering s.world unmarked

end Call

end Reload
