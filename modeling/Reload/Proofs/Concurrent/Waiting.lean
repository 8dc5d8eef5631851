import Mathlib.Logic.Relation
import Reload.Proofs.Concurrent.Threads

/-!
Definitions never wait for each other in a circle. A definition looks for a marker before it asks for
its lock, and has the lock before it sets the marker; so the thread of a definition that waits is not
in the middle of another one, and holds nothing that anybody could wait for (`DeadlockFree`).
-/

namespace Reload

variable {ρ κ : Type}

/-- The definition lock that a definition waits for. -/
def Place.awaited? : Place ρ κ → Option LockId
  | .wait lock => some lock
  | _ => none

namespace Pool

/-- A definition of the thread waits for a lock. -/
def Waits (pool : Pool ρ κ) (thread : ThreadId) (lock : LockId) : Prop :=
  ∃ index running, pool.calls index = some running ∧ running.call.thread = thread ∧
    running.place.awaited? = some lock

/-- A definition of one thread waits for a lock that another thread holds. -/
def WaitsFor (pool : Pool ρ κ) (waiter holder : ThreadId) : Prop :=
  ∃ lock, pool.Waits waiter lock ∧ (pool.world.lock lock).holder = some holder

/-- The definition is in a callback, or the state is ready for its next step. -/
def GoesOn (pool : Pool ρ κ) (running : Running ρ κ) : Prop :=
  running.place.callback ∨
    ∃ turn, running.call.advance running.place = some turn ∧ turn.ready pool.system

/-- What keeps definitions from waiting for each other. -/
structure DeadlockFree (pool : Pool ρ κ) : Prop where
  /-- A thread that waits has no marker, and holds no lock. -/
  waiting : ∀ thread lock, pool.Waits thread lock →
    pool.world.marker thread = none ∧ ∀ other, (pool.world.lock other).holder ≠ some thread
  /-- Who holds a lock is past it in a definition. -/
  holding : ∀ thread lock, (pool.world.lock lock).holder = some thread ↔
    ∃ index running, pool.calls index = some running ∧ running.call.thread = thread ∧
      running.place.held? = some lock
  /-- Who is waited for does not wait, and the definition that holds the lock goes on. -/
  goes : ∀ waiter holder, pool.WaitsFor waiter holder → (∀ lock, ¬pool.Waits holder lock) ∧
    ∃ index running lock, pool.calls index = some running ∧ running.call.thread = holder ∧
      running.place.held? = some lock ∧ pool.Waits waiter lock ∧ pool.GoesOn running
  acyclic : ∀ thread, ¬Relation.TransGen pool.WaitsFor thread thread

variable {rules : Rules ρ κ} {pool : Pool ρ κ} {scopes : Scopes} {trace : List (Move ρ κ)}

private theorem eq_wait_of_awaited? {place : Place ρ κ} {lock : LockId}
    (awaits : place.awaited? = some lock) : place = .wait lock := by
  cases place with
  | wait waited =>
    cases awaits
    rfl
  | check | take | inside | unlock | drop | ended => cases awaits

private theorem waiting_of_sequenced (sequenced : pool.Sequenced) (held : pool.Held)
    {thread : ThreadId} {lock : LockId} (waits : pool.Waits thread lock) :
    pool.world.marker thread = none ∧ ∀ other, (pool.world.lock other).holder ≠ some thread := by
  obtain ⟨index, running, here, rfl, awaits⟩ := waits
  have place := eq_wait_of_awaited? awaits
  obtain ⟨unmarked, ended⟩ := sequenced.alone here (by rw [place]; rfl)
  refine ⟨unmarked, fun other taken => ?_⟩
  obtain ⟨holder, theirs, there, has⟩ := held.holds taken
  have thread : theirs.call.thread = running.call.thread :=
    Option.some.inj ((held.holder there has).symm.trans taken)
  -- The holder would be a definition of the same thread, and all others of the thread have ended.
  by_cases same : holder = index
  · subst same
    obtain rfl := Option.some.inj (there.symm.trans here)
    rw [place] at has
    cases has
  · obtain ⟨ending, left⟩ := ended holder theirs there thread same
    rw [left] at has
    cases has

private theorem goesOn_of_held {running : Running ρ κ} {lock : LockId}
    (held : running.place.held? = some lock) : pool.GoesOn running := by
  rcases running.call.ended_or_advances running.place with ⟨ending, left⟩ | ⟨turn, advances⟩
  · rw [left] at held
    cases held
  · cases calls : running.place.callback with
    | true => exact .inl calls
    | false =>
      refine .inr ⟨turn, advances, running.call.ready_of_own advances calls ?_ _⟩
      intro waited place
      rw [place] at held
      cases held

private theorem deadlockFree_of_sequenced (sequenced : pool.Sequenced) (held : pool.Held) :
    pool.DeadlockFree := by
  have still {waiter holder : ThreadId} (waits : pool.WaitsFor waiter holder) (lock : LockId) :
      ¬pool.Waits holder lock := by
    obtain ⟨taken, -, holds⟩ := waits
    exact fun waits' => (waiting_of_sequenced sequenced held waits').2 taken holds
  refine ⟨fun _ _ => waiting_of_sequenced sequenced held, fun thread lock => ⟨fun taken => ?_, ?_⟩,
    fun waiter holder waits => ⟨still waits, ?_⟩, fun thread circle => ?_⟩
  · obtain ⟨index, running, here, has⟩ := held.holds taken
    exact ⟨index, running, here,
      Option.some.inj ((held.holder here has).symm.trans taken), has⟩
  · rintro ⟨index, running, here, rfl, has⟩
    exact held.holder here has
  · obtain ⟨lock, waiting, taken⟩ := waits
    obtain ⟨index, running, here, has⟩ := held.holds taken
    exact ⟨index, running, lock, here,
      Option.some.inj ((held.holder here has).symm.trans taken), has, waiting, goesOn_of_held has⟩
  · -- Whoever is waited for does not wait, so no chain of waiting has two links.
    obtain ⟨next, first, -⟩ := Relation.TransGen.head'_iff.mp circle
    obtain ⟨before, -, last⟩ := Relation.TransGen.tail'_iff.mp circle
    obtain ⟨lock, waits, -⟩ := first
    exact still last lock waits

/-- However the definitions of any threads run beside each other and inside each other's callbacks, and
    however they end, no circle of threads waits for definition locks. -/
theorem definitions_never_deadlock {start : System ρ} (idle : start.world.Idle)
    (course : Course rules Threaded ⟨start, fun _ => none⟩ (fun _ => none) trace pool scopes) :
    pool.DeadlockFree :=
  deadlockFree_of_sequenced (course.sequenced idle.unmarked) (course.held idle.free)

/-- One thread has begun to define a unit, and another one waits for it. -/
theorem definitions_never_deadlock_linkedBehind :
    let unit : Artifact := ⟨1, ⟨"a", by decide⟩, 0, .nothing⟩
    let rules : Rules Unit MemoryContext := ⟨fun _ _ => True, fun _ _ => True⟩
    ∃ trace pool, Course rules Threaded ⟨⟨{}, ()⟩, fun _ => none⟩ (fun _ => none) trace pool
        (fun _ => none) ∧ World.Idle {} ∧ pool.WaitsFor ⟨1⟩ ⟨0⟩ ∧
      pool.world.marker ⟨0⟩ = some unit.name ∧ pool.DeadlockFree := by
  intro unit rules
  let call (thread : Nat) : Call Unit MemoryContext :=
    (Loader.linkedBehind unit).call ⟨thread⟩ unit.name []
  let s : System Unit := ⟨{}, ()⟩
  let blank : Pool Unit MemoryContext := ⟨s, fun _ => none⟩
  let one := blank.put 0 ⟨call 0, .check, 0⟩ s
  let both := one.put 1 ⟨call 1, .check, 0⟩ s
  have idle : World.Idle {} := ⟨fun _ => rfl, fun _ => rfl⟩
  have begins : Course rules Threaded blank (fun _ => none) [] both (fun _ => none) := by
    have first : Course rules Threaded blank (fun _ => none) [] one (fun _ => none) :=
      Course.start.begin_solo 0 (call 0) rfl trivial (by simp [blank])
    refine first.begin_solo 1 (call 1) rfl trivial fun index running here => ?_
    rcases calls_put here with ⟨-, rfl⟩ | ⟨-, before⟩
    · decide
    · cases before
  have solo : both.Solo := by
    have alone : one.Solo := Solo.put (show blank.Solo by simp [Solo, blank]) (by simp [blank]) _
    refine alone.put (fun index running here thread => ?_) s
    rcases calls_put here with ⟨-, rfl⟩ | ⟨-, before⟩
    · cases thread
    · cases before
  have ends : (both.follow [0, 0, 0, 0, 1, 1]).any (fun ended =>
      ended.2.world.marker ⟨0⟩ = some unit.name ∧
      (ended.2.world.lock ⟨0⟩).holder = some ⟨0⟩ ∧
      (∀ move ∈ ended.1, move.own) ∧
      (ended.2.calls 1).any fun running =>
        running.call.thread = ⟨1⟩ ∧ running.place.awaited? = some ⟨0⟩) = true := by decide +kernel
  obtain ⟨⟨trace, pool⟩, followed, facts⟩ := (Option.any_eq_true _ _).mp ends
  obtain ⟨marked, taken, own, waiter⟩ := of_decide_eq_true facts
  obtain ⟨running, here, waits⟩ := (Option.any_eq_true _ _).mp waiter
  obtain ⟨thread, awaits⟩ := of_decide_eq_true waits
  have course := begins.follow_solo solo followed own
  exact ⟨_, pool, course, idle, ⟨⟨0⟩, ⟨1, running, here, thread, awaits⟩, taken⟩, marked,
    definitions_never_deadlock idle course⟩

end Pool

end Reload
