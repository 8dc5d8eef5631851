import Reload.Proofs.Concurrent.Threads
import Reload.Proofs.Definition.Lockless

/-!
Definitions that do not contend never wait. If nothing but definitions is about their locks, each lock is
that of one name of one cache, and who holds it is defining that name into that cache (`Pool.Lockless`).
On its own thread a definition that waits is alone, so it finds its lock free unless another thread is
defining the same (`isFree_of_uncontended`).
-/

namespace Reload

variable {ρ κ : Type}

/-! ### One lock for each name -/

/-- No lock is that of two names, and a lock to come is that of none. -/
structure LockState.Keyed (state : LockState) : Prop where
  apart : ∀ {set other name name' lock}, (state.locks set).get? name = some lock →
    (state.locks other).get? name' = some lock → set = other ∧ name = name'
  old : ∀ {set name lock}, (state.locks set).get? name = some lock → lock.index < state.nextLock

namespace World

theorem keyed_lockFor {w : World} (keyed : w.lockState.Keyed) (set : LockSetId) (name : Name) :
    (w.lockFor set name).2.lockState.Keyed := by
  -- The lock that is handed out belongs to no other name.
  have own {other : LockSetId} {name' : Name}
      (tabled : (w.locks other).get? name' = some (w.lockFor set name).1) :
      set = other ∧ name = name' := by
    rcases w.lockFor_old_or_new set name with ⟨old, -⟩ | ⟨new, -⟩
    · exact keyed.apart old tabled
    · exact absurd new (Nat.ne_of_lt (keyed.old tabled))
  refine ⟨fun {set' other name' name'' lock} mine theirs => ?_, fun {other name' lock} tabled => ?_⟩
  · rcases of_get?_lockFor mine with before | ⟨rfl, rfl, handed⟩ <;>
      rcases of_get?_lockFor theirs with before' | ⟨rfl, rfl, handed'⟩
    · exact keyed.apart before before'
    · exact (own (handed' ▸ before)).imp Eq.symm Eq.symm
    · exact own (handed ▸ before')
    · exact ⟨rfl, rfl⟩
  · have later := w.nextLock_le_lockFor set name
    rcases of_get?_lockFor tabled with before | ⟨-, -, rfl⟩
    · exact Nat.lt_of_lt_of_le (keyed.old before) later
    · rcases w.lockFor_old_or_new set name with ⟨old, -⟩ | ⟨new, next⟩
      · exact Nat.lt_of_lt_of_le (keyed.old old) later
      · show _ < (w.lockFor set name).2.nextLock
        omega

end World

/-! ### Locks that only definitions take -/

theorem World.KeepsLocks.of_lockState {w w' : World} (same : w'.lockState = w.lockState) :
    w.KeepsLocks w' :=
  .of_eq (congrArg LockState.locks same) (congrArg LockState.lock same)
    (congrArg LockState.handles same)

theorem World.LocklessChange.lockState {f : World → World} (lockless : LocklessChange f)
    (w : World) : (f w).lockState = w.lockState := by
  have same : f w = (f w).under w.lockState := lockless w w.lockState
  rw [same]
  rfl

theorem Program.Lockless.keepsLocks {α : Type} {program : Program (System ρ) α}
    (lockless : program.Lockless) : program.KeepsLocks := by
  induction lockless with
  | done value => exact .last ⟨value, rfl⟩
  | step waits changes goes rest ih =>
    exact .step (fun s _ => .of_lockState
      (congrArg (fun s => s.world.lockState) (changes s s.world.lockState))) ih

namespace Call

variable {call : Call ρ κ}

theorem Lockless.keepsLocks (lockless : call.Lockless) : call.KeepsLocks where
  pack := lockless.pack.keepsLocks
  instantiate image := (lockless.instantiate image).keepsLocks
  load context := (lockless.load context).keepsLocks
  close context w := .of_lockState ((lockless.close context).lockState w)

theorem Lockless.configured (lockless : call.Lockless) (settings : Settings) :
    (call.configured settings).Lockless :=
  ⟨⟨lockless.pack, lockless.instantiate, lockless.load⟩, lockless.close⟩

/-- Between taking its lock and freeing it a definition leaves locks alone. -/
theorem Lockless.lockState_stage (lockless : call.Lockless) {lock : Option LockId}
    {stage : Stage ρ κ} (here : (Place.inside lock stage).Runs Program.Lockless) (s : System ρ) :
    ((call.advanceStage lock stage).act s).world.lockState = s.world.lockState :=
  congrArg (fun s => s.world.lockState)
    ((lockless.stage here lock call.loader.settings).changes s s.world.lockState)

end Call

/-- The rules, as far as they leave locks to definitions. -/
def Rules.lockless (rules : Rules ρ κ) : Rules ρ κ where
  begins call w := rules.begins call w ∧ call.Lockless
  outside w w' := rules.outside w w' ∧ w'.lockState = w.lockState

theorem Rules.keepLocks_lockless (rules : Rules ρ κ) : rules.lockless.KeepLocks where
  begins _ _ allowed := allowed.2.keepsLocks
  outside _ _ allowed := .of_lockState allowed.2

namespace Pool

variable {rules : Rules ρ κ} {pool pool' : Pool ρ κ} {move : Option (Move ρ κ)}
  {trace : List (Move ρ κ)} {running : Running ρ κ}

/-- What holds of the locks when only definitions take them. -/
structure Lockless (pool : Pool ρ κ) : Prop where
  lockless : ∀ index running, pool.calls index = some running →
    running.call.Lockless ∧ running.place.Runs Program.Lockless
  held : pool.Held
  keyed : pool.world.lockState.Keyed

private theorem keyed_advance (keyed : pool.world.lockState.Keyed)
    {turn : Turn (System ρ) (Place ρ κ)} (lockless : running.call.Lockless)
    (left : running.place.Runs Program.Lockless)
    (advances : running.call.advance running.place = some turn) :
    (turn.act pool.system).world.lockState.Keyed := by
  obtain ⟨call, place, since⟩ := running
  cases place with
  | check | wait | unlock | drop => cases advances; exact ⟨keyed.apart, keyed.old⟩
  | take => cases advances; exact World.keyed_lockFor keyed _ _
  | inside lock stage =>
    cases advances
    rw [lockless.lockState_stage left]
    exact keyed
  | ended => cases advances

/-- A callback leaves the holders of locks as they are. -/
private theorem holder_callback {turn : Turn (System ρ) (Place ρ κ)}
    (lockless : running.call.Lockless) (left : running.place.Runs Program.Lockless)
    (advances : running.call.advance running.place = some turn)
    (calls : running.place.callback) (s : System ρ) :
    (turn.act s).world.lock = s.world.lock := by
  obtain ⟨call, place, since⟩ := running
  cases place with
  | inside lock stage =>
    cases advances
    exact congrArg LockState.lock (lockless.lockState_stage left s)
  | check | take | wait | unlock | drop | ended => cases calls

theorem Lockless.step (kept : pool.Lockless) (next : Step rules.lockless pool move pool') :
    pool'.Lockless := by
  refine ⟨fun other found there => ?_, kept.held.step next fun callback lock => ?_, ?_⟩
  · cases next with
    | begin unused allowed =>
      rcases calls_put there with ⟨-, rfl⟩ | ⟨-, before⟩
      · exact ⟨allowed.2, trivial⟩
      · exact kept.lockless other found before
    | outside allowed => exact kept.lockless other found there
    | @advance index running turn here advances ready =>
      rcases calls_put there with ⟨-, rfl⟩ | ⟨-, before⟩
      · obtain ⟨lockless, left⟩ := kept.lockless index running here
        exact ⟨lockless, lockless.toRuns.advance .lasting left advances _⟩
      · exact kept.lockless other found before
  · cases next with
    | begin => rfl
    | outside allowed => exact congrArg (fun locks => (locks.lock lock).holder) allowed.2
    | @advance index running turn here advances ready =>
      obtain ⟨lockless, left⟩ := kept.lockless index running here
      have calls : running.place.callback := by simpa [Move.own] using callback
      exact congrArg (fun locks => (locks lock).holder)
        (holder_callback lockless left advances calls pool.system)
  · cases next with
    | begin => exact kept.keyed
    | outside allowed => exact Eq.mpr (congrArg LockState.Keyed allowed.2) kept.keyed
    | @advance index running turn here advances ready =>
      obtain ⟨lockless, left⟩ := kept.lockless index running here
      exact keyed_advance kept.keyed lockless left advances

theorem Run.lockless {start : System ρ} (free : ∀ lock, (start.world.lock lock).holder = none)
    (keyed : start.world.lockState.Keyed) (run : Run rules.lockless start trace pool) :
    pool.Lockless := by
  induction run with
  | start => exact ⟨by simp, held_empty free, keyed⟩
  | step _ next ih => exact ih.step next

end Pool

/-! ### Definitions that do not contend -/

/-- Whether the definition is in progress. -/
def Place.busy : Place ρ κ → Bool
  | .ended _ => false
  | _ => true

theorem Place.busy_of_advance {call : Call ρ κ} {place : Place ρ κ}
    {turn : Turn (System ρ) (Place ρ κ)} (advances : call.advance place = some turn) : place.busy := by
  cases place with
  | ended => cases advances
  | check | take | wait | inside | unlock | drop => rfl

theorem Place.own_of_busy {place : Place ρ κ} (busy : place.busy) (calls : place.callback = false) :
    place.own := by
  cases place with
  | ended => cases busy
  | check | take | wait | unlock | drop => rfl
  | inside lock stage => simp [own, calls]

namespace Pool

variable {rules : Rules ρ κ} {pool : Pool ρ κ} {index : Nat} {running : Running ρ κ}

/-- No two threads are defining units of one name into one cache. -/
def Uncontended (pool : Pool ρ κ) : Prop :=
  ∀ index other running theirs, pool.calls index = some running →
    pool.calls other = some theirs → running.place.busy → theirs.place.busy →
    running.call.loader.cache = theirs.call.loader.cache → running.call.name = theirs.call.name →
    running.call.thread = theirs.call.thread

/-- Definitions that go on contend no more than before. -/
theorem Uncontended.put (uncontended : pool.Uncontended) (here : pool.calls index = some running)
    (busy : running.place.busy) (place : Place ρ κ) (system : System ρ) :
    (pool.put index { running with place } system).Uncontended := by
  have before {other : Nat} {found : Running ρ κ}
      (there : (pool.put index { running with place } system).calls other = some found)
      (goes : found.place.busy) : ∃ theirs, pool.calls other = some theirs ∧ theirs.place.busy ∧
        theirs.call = found.call := by
    rcases calls_put there with ⟨rfl, rfl⟩ | ⟨-, before⟩
    · exact ⟨running, here, busy, rfl⟩
    · exact ⟨found, before, goes, rfl⟩
  intro one other found theirs there there' goes goes' cache name
  obtain ⟨mine, here, busy, same⟩ := before there goes
  obtain ⟨another, elsewhere, busy', same'⟩ := before there' goes'
  rw [← same, ← same'] at cache name ⊢
  exact uncontended one other mine another here elsewhere busy busy' cache name

/-- Who else holds the lock of a definition defines the same name in another thread: in its own, nobody
    else is defining. -/
theorem isFree_of_uncontended {lock : LockId} (locked : pool.Locked) (lockless : pool.Lockless)
    (sequenced : pool.Sequenced) (uncontended : pool.Uncontended)
    (here : pool.calls index = some running) (waits : running.place = .wait lock) :
    pool.world.isFree lock := by
  rw [World.isFree, Option.isNone_iff_eq_none]
  by_contra busy
  obtain ⟨thread, holder⟩ := Option.ne_none_iff_exists'.mp busy
  obtain ⟨other, theirs, there, has⟩ := lockless.held.holds holder
  have goes : theirs.place.busy := by
    cases place : theirs.place with
    | ended => rw [place] at has; cases has
    | check | take | wait | inside | unlock | drop => rfl
  have different : other ≠ index := by
    rintro rfl
    obtain rfl := Option.some.inj (there.symm.trans here)
    rw [waits] at has
    cases has
  obtain ⟨sets, names⟩ := lockless.keyed.apart
    (locked.tabled other theirs lock there (Place.handle?_of_held? has))
    (locked.tabled index running lock here (by rw [waits]; rfl))
  have cache : theirs.call.loader.cache = running.call.loader.cache :=
    congrArg CacheId.mk (congrArg LockSetId.index sets)
  have thread := uncontended other index theirs running there here goes (by rw [waits]; rfl)
    cache names
  obtain ⟨ending, ended⟩ :=
    (sequenced.alone here (by rw [waits]; rfl)).2 other theirs there thread different
  rw [ended] at goes
  cases goes

/-- The definitions of one thread do not contend. -/
theorem uncontended_of_thread {thread : ThreadId}
    (begins : ∀ call w, rules.begins call w → call.thread = thread)
    {start : System ρ} {trace : List (Move ρ κ)} (run : Run rules start trace pool) :
    pool.Uncontended := by
  intro index other running theirs here there _ _ _ _
  rw [run.begun begins index running here, run.begun begins other theirs there]

end Pool

end Reload
