import Reload.Proofs.CacheHistory
import Reload.Proofs.Concurrent.Contention

/-!
Definition locks are coherent, and they do not leak. A set forgets the locks that nobody has a handle to
whenever somebody asks for any lock, and it tells them by counting handles, without knowing what those
are for. Yet two handles are to one lock exactly if they are for one name of one set, and a set has the
locks that somebody has handles to, and the one that was asked for last (`locks_cohere`).
-/

namespace Reload

/-! ### What is done with locks -/

/-- A handle to a lock, with the name of the set that it was asked for. -/
structure Handle where
  set : LockSetId
  name : Name
  lock : LockId
  deriving DecidableEq

/-- What is done with the locks of any set, by any thread. -/
inductive LockOp where
  | ask (set : LockSetId) (name : Name)
  | copy (handle : Handle)
  | drop (handle : Handle)
  | acquire (handle : Handle) (thread : ThreadId)
  /-- A holder that panics leaves the lock poisoned. -/
  | unlock (handle : Handle) (panicking : Bool)

def LockOp.perform (w : World) : LockOp → World
  | ask set name => (w.lockFor set name).2
  | copy handle => w.addHandle handle.lock
  | drop handle => w.dropHandle handle.lock
  | acquire handle thread => w.acquire handle.lock thread
  | unlock handle panicking => w.unlock handle.lock panicking

/-- What was done, each with the state in which it was done, the latest first. -/
abbrev LockHistory : Type := List (LockOp × World)

namespace LockHistory

/-- The handles that were not dropped yet, each copy for itself. -/
def live : LockHistory → List Handle
  | [] => []
  | (.ask set name, w) :: before => ⟨set, name, (w.lockFor set name).1⟩ :: live before
  | (.copy handle, _) :: before => handle :: live before
  | (.drop handle, _) :: before => (live before).erase handle
  | (.acquire .., _) :: before | (.unlock .., _) :: before => live before

/-- The locks that were ever handed out. -/
def given : LockHistory → List LockId
  | [] => []
  | (.ask set name, w) :: before => (w.lockFor set name).1 :: given before
  | (.copy _, _) :: before | (.drop _, _) :: before
  | (.acquire .., _) :: before | (.unlock .., _) :: before => given before

/-- The names of a set that somebody has a handle for. -/
def inUse (history : LockHistory) (set : LockSetId) : Set Name :=
  {name | ∃ handle ∈ history.live, handle.set = set ∧ handle.name = name}

/-- Only a set that was made is asked, and what else is done to a lock is done through a handle to it. -/
def Allowed (history : LockHistory) (w : World) : LockOp → Prop
  | .ask set _ => set.index < w.nextCache
  | .copy handle | .drop handle => handle ∈ history.live
  | .acquire handle _ => handle ∈ history.live ∧ w.isFree handle.lock = true
  | .unlock handle _ => handle ∈ history.live ∧ w.isFree handle.lock = false

/-- The histories of locks since the process began, and the states that they lead to. Sets and caches
    may be made in between, and anything else may happen that leaves locks alone. -/
inductive Run : LockHistory → World → Prop where
  | start : Run [] {}
  | aside {history : LockHistory} {w : World} (w' : World) (before : Run history w)
      (locks : w'.lockState = w.lockState) (sets : w.nextCache ≤ w'.nextCache) : Run history w'
  | step {history : LockHistory} {w : World} (op : LockOp) (before : Run history w)
      (allowed : Allowed history w op) : Run ((op, w) :: history) (op.perform w)

/-! ### What the sets keep -/

/-- The handles that are counted are the live ones, and each of them is to the lock that its set has
    under its name. -/
structure Kept (history : LockHistory) (w : World) : Prop where
  counted : w.handles.Perm (history.live.map Handle.lock)
  tabled : ∀ handle ∈ history.live, (w.locks handle.set).get? handle.name = some handle.lock
  keyed : w.lockState.Keyed
  given : ∀ lock ∈ history.given, lock.index < w.nextLock
  unmade : ∀ lock : LockId, w.nextLock ≤ lock.index → w.lock lock = {}
  sets : ∀ set : LockSetId, w.nextCache ≤ set.index → ∀ name, (w.locks set).get? name = none

variable {history : LockHistory} {w : World}

theorem Kept.hasHandle_iff (kept : Kept history w) {lock : LockId} :
    w.hasHandle lock ↔ ∃ handle ∈ history.live, handle.lock = lock := by
  rw [World.hasHandle, List.contains_iff_mem, kept.counted.mem_iff, List.mem_map]

theorem Kept.hasHandle (kept : Kept history w) {handle : Handle} (live : handle ∈ history.live) :
    w.hasHandle handle.lock :=
  kept.hasHandle_iff.mpr ⟨handle, live, rfl⟩

/-- Whoever has a handle to the lock of a name has it for that name. -/
theorem Kept.mem_inUse (kept : Kept history w) {set : LockSetId} {name : Name} {lock : LockId}
    (tabled : (w.locks set).get? name = some lock) (handles : w.hasHandle lock) :
    name ∈ history.inUse set := by
  obtain ⟨handle, live, rfl⟩ := kept.hasHandle_iff.mp handles
  obtain ⟨sameSet, sameName⟩ := kept.keyed.apart (kept.tabled handle live) tabled
  exact ⟨handle, live, sameSet, sameName⟩

/-- Asking for a lock leaves those with handles where they are. -/
theorem Kept.tabled_lockFor (kept : Kept history w) {handle : Handle} (live : handle ∈ history.live)
    (set : LockSetId) (name : Name) :
    ((w.lockFor set name).2.locks handle.set).get? handle.name = some handle.lock := by
  have tabled := kept.tabled handle live
  have handles := kept.hasHandle live
  by_cases sameSet : handle.set = set
  · rw [← sameSet, World.get?_lockFor]
    by_cases sameName : handle.name = name
    · rw [if_pos sameName, ← sameName, World.lockFor_of_hasHandle tabled handles]
    · rw [if_neg sameName, tabled, Option.filter_some, if_pos handles]
  · rw [World.locks_lockFor_of_ne _ _ sameSet]
    exact tabled

theorem kept_ask (kept : Kept history w) {set : LockSetId} (name : Name)
    (made : set.index < w.nextCache) :
    Kept ((.ask set name, w) :: history) (w.lockFor set name).2 where
  counted := by
    rw [World.lockFor_handles]
    exact kept.counted.cons _
  tabled := by
    refine List.forall_mem_cons.mpr ⟨?_, fun handle live => kept.tabled_lockFor live set name⟩
    exact (World.get?_lockFor ..).trans (if_pos rfl)
  keyed := World.keyed_lockFor kept.keyed set name
  given := by
    have later := w.nextLock_le_lockFor set name
    refine List.forall_mem_cons.mpr ⟨?_, fun lock before => ?_⟩
    · rcases w.lockFor_old_or_new set name with ⟨tabled, -⟩ | ⟨new, next⟩
      · exact Nat.lt_of_lt_of_le (kept.keyed.old tabled) later
      · omega
    · exact Nat.lt_of_lt_of_le (kept.given lock before) later
  unmade lock new := by
    rw [World.lockFor_lock]
    exact kept.unmade lock (Nat.le_trans (w.nextLock_le_lockFor set name) new)
  sets other unmade := by
    have next : (w.lockFor set name).2.nextCache = w.nextCache := by rw [World.lockFor_eq]
    rw [next] at unmade
    have different : other ≠ set := fun same => Nat.not_lt.mpr unmade (same ▸ made)
    rw [World.locks_lockFor_of_ne _ _ different]
    exact kept.sets other unmade

/-- What makes no lock and no handle for another one leaves what is kept as it is, but for the state of
    the locks that were made. -/
theorem Kept.aside {history' : LockHistory} {w' : World} (kept : Kept history w)
    (locks : w'.locks = w.locks) (nextLock : w'.nextLock = w.nextLock)
    (sets : w.nextCache ≤ w'.nextCache) (given : history'.given = history.given)
    (live : history'.live ⊆ history.live) (counted : w'.handles.Perm (history'.live.map Handle.lock))
    (unmade : ∀ lock : LockId, w.nextLock ≤ lock.index → w'.lock lock = w.lock lock) :
    Kept history' w' where
  counted := counted
  tabled handle there := by
    rw [locks]
    exact kept.tabled handle (live there)
  keyed := by
    refine ⟨fun mine theirs => ?_, fun tabled => ?_⟩
    · simp only [World.lockState, locks] at mine theirs
      exact kept.keyed.apart mine theirs
    · simp only [World.lockState, locks, nextLock] at tabled ⊢
      exact kept.keyed.old tabled
  given lock before := by
    rw [given] at before
    rw [nextLock]
    exact kept.given lock before
  unmade lock new := by
    rw [nextLock] at new
    rw [unmade lock new]
    exact kept.unmade lock new
  sets set new := by
    rw [locks]
    exact kept.sets set (Nat.le_trans sets new)

theorem kept_drop (kept : Kept history w) {handle : Handle} (live : handle ∈ history.live) :
    Kept ((.drop handle, w) :: history) (w.dropHandle handle.lock) := by
  have counted : (w.handles.erase handle.lock).Perm ((history.live.erase handle).map Handle.lock) := by
    have first := kept.counted.trans ((List.perm_cons_erase live).map Handle.lock)
    have rest := first.erase handle.lock
    rwa [List.map_cons, List.erase_cons_head] at rest
  exact kept.aside rfl rfl (Nat.le_refl _) rfl List.erase_subset counted fun _ _ => rfl

/-- A lock that has a handle was made. -/
theorem Kept.ne_of_unmade (kept : Kept history w) {handle : Handle} (live : handle ∈ history.live)
    {lock : LockId} (unmade : w.nextLock ≤ lock.index) : lock ≠ handle.lock := by
  rintro rfl
  exact Nat.not_lt.mpr unmade (kept.keyed.old (kept.tabled handle live))

theorem kept_step (kept : Kept history w) {op : LockOp} (allowed : Allowed history w op) :
    Kept ((op, w) :: history) (op.perform w) := by
  cases op with
  | ask set name => exact kept_ask kept name allowed
  | copy handle =>
    exact kept.aside rfl rfl (Nat.le_refl _) rfl (List.cons_subset.mpr ⟨allowed, List.Subset.refl _⟩)
      (kept.counted.cons _) fun _ _ => rfl
  | drop handle => exact kept_drop kept allowed
  | acquire handle thread =>
    exact kept.aside rfl rfl (Nat.le_refl _) rfl (List.Subset.refl _) kept.counted
      fun _ unmade => replace_of_ne _ _ (kept.ne_of_unmade allowed.1 unmade)
  | unlock handle panicking =>
    exact kept.aside rfl rfl (Nat.le_refl _) rfl (List.Subset.refl _) kept.counted
      fun _ unmade => replace_of_ne _ _ (kept.ne_of_unmade allowed.1 unmade)

theorem Run.kept (run : Run history w) : Kept history w := by
  induction run with
  | start =>
    refine ⟨.nil, ?_, ⟨?_, ?_⟩, ?_, fun _ _ => rfl, fun _ _ _ => rfl⟩
    · exact fun _ live => absurd live List.not_mem_nil
    · exact fun tabled _ => nomatch tabled
    · exact fun tabled => nomatch tabled
    · exact fun _ given => absurd given List.not_mem_nil
  | aside w' before locks sets kept =>
    have handles := List.Perm.of_eq (congrArg LockState.handles locks)
    exact kept.aside (congrArg LockState.locks locks) (congrArg LockState.nextLock locks) sets rfl
      (List.Subset.refl _) (handles.trans kept.counted)
      fun lock _ => congrArg (fun state => state.lock lock) locks
  | step op before allowed kept => exact kept_step kept allowed

/-! ### What the locks are -/

/-- What the handles are to, and what asking for locks gives, after a history. -/
structure Coherent (history : LockHistory) (w : World) : Prop where
  /-- Two handles are to one lock exactly if they are for one name of one set. -/
  same : ∀ handle ∈ history.live, ∀ other ∈ history.live,
    handle.lock = other.lock ↔ handle.set = other.set ∧ handle.name = other.name
  /-- Asking gives the lock of a handle exactly if it is for that name of that set. -/
  asked : ∀ handle ∈ history.live, ∀ set name,
    (w.lockFor set name).1 = handle.lock ↔ set = handle.set ∧ name = handle.name
  /-- A lock with a handle stays where it is and as it is, whatever lock is asked for. -/
  lasting : ∀ handle ∈ history.live, ∀ set name,
    ((w.lockFor set name).2.locks handle.set).get? handle.name = some handle.lock ∧
      (w.lockFor set name).2.lock handle.lock = w.lock handle.lock
  /-- A name that nobody has a handle for gets a lock that nobody ever had, and that is neither held nor
      poisoned. -/
  fresh : ∀ set, ∀ name ∉ history.inUse set, (w.lockFor set name).1 ∉ history.given ∧
    (w.lockFor set name).2.lock (w.lockFor set name).1 = { holder := none, poisoned := false }
  /-- Afterwards the set has a lock for the name and for those that somebody has a handle for. -/
  tracked : ∀ set name,
    {other | ((w.lockFor set name).2.locks set).contains other} = insert name (history.inUse set)
  count : ∀ set name, (w.lockFor set name).2.lockCount set = (insert name (history.inUse set)).ncard
  /-- Separate caches have no lock in common. -/
  caches : ∀ cache other : CacheId, cache ≠ other → ∀ handle ∈ history.live,
    handle.set = cache.locks → ∀ name, (w.lockFor other.locks name).1 ≠ handle.lock
  /-- The locks of a new cache, or of a new set, are nobody's yet. -/
  newcomer : ∀ set, set = w.newCache.1.locks ∨ set = w.newLockSet.1 →
    history.inUse set = ∅ ∧ w.lockCount set = 0

theorem Kept.lockFor_eq_iff (kept : Kept history w) {handle : Handle} (live : handle ∈ history.live)
    (set : LockSetId) (name : Name) :
    (w.lockFor set name).1 = handle.lock ↔ set = handle.set ∧ name = handle.name := by
  have tabled := kept.tabled handle live
  constructor
  · intro handed
    rcases w.lockFor_old_or_new set name with ⟨old, -⟩ | ⟨new, -⟩
    · exact kept.keyed.apart (handed ▸ old) tabled
    · exact absurd handed (kept.ne_of_unmade live (Nat.le_of_eq new.symm))
  · rintro ⟨rfl, rfl⟩
    exact World.lockFor_of_hasHandle tabled (kept.hasHandle live)

theorem Kept.tracked_lockFor (kept : Kept history w) (set : LockSetId) (name : Name) :
    {other | ((w.lockFor set name).2.locks set).contains other} =
      insert name (history.inUse set) := by
  ext other
  rw [Set.mem_ofPred_eq, Set.mem_insert_iff, Table.contains, World.get?_lockFor]
  by_cases same : other = name
  · simp [same]
  · rw [if_neg same, Option.isSome_iff_exists]
    simp only [same, false_or, Option.filter_eq_some_iff]
    constructor
    · rintro ⟨lock, tabled, handles⟩
      exact kept.mem_inUse tabled handles
    · rintro ⟨handle, live, rfl, rfl⟩
      exact ⟨handle.lock, kept.tabled handle live, kept.hasHandle live⟩

theorem Kept.fresh_lockFor (kept : Kept history w) {set : LockSetId} {name : Name}
    (unused : name ∉ history.inUse set) :
    (w.lockFor set name).1 ∉ history.given ∧ w.lock (w.lockFor set name).1 = {} := by
  rcases w.lockFor_old_or_new set name with ⟨old, handles⟩ | ⟨new, -⟩
  · exact absurd (kept.mem_inUse old handles) unused
  · exact ⟨fun given => Nat.ne_of_lt (kept.given _ given) new, kept.unmade _ (Nat.le_of_eq new.symm)⟩

/-- A set that is yet to be made has no locks. -/
theorem Kept.unmade_set (kept : Kept history w) {set : LockSetId} (unmade : w.nextCache ≤ set.index) :
    history.inUse set = ∅ ∧ w.lockCount set = 0 := by
  have empty := kept.sets set unmade
  constructor
  · rw [Set.eq_empty_iff_forall_notMem]
    rintro name ⟨handle, live, rfl, rfl⟩
    exact absurd (kept.tabled handle live) (by simp [empty])
  · have none : {name | (w.locks set).contains name} = ∅ := by simp [Table.contains, empty]
    rw [World.lockCount, Table.size_eq_ncard, none, Set.ncard_empty]

theorem Kept.coherent (kept : Kept history w) : Coherent history w where
  same handle live other live' := by
    rw [← kept.lockFor_eq_iff live', (kept.lockFor_eq_iff live _ _).mpr ⟨rfl, rfl⟩]
  asked handle live := kept.lockFor_eq_iff live
  lasting handle live set name := ⟨kept.tabled_lockFor live set name, by rw [World.lockFor_lock]⟩
  fresh set name unused := by
    rw [World.lockFor_lock]
    exact kept.fresh_lockFor unused
  tracked := kept.tracked_lockFor
  count set name := by rw [World.lockCount, Table.size_eq_ncard, kept.tracked_lockFor]
  caches cache other different handle live here name handed := by
    have same := ((kept.lockFor_eq_iff live _ _).mp handed).1
    rw [here] at same
    exact different (congrArg (fun set => CacheId.mk set.index) same).symm
  newcomer set new := by
    refine kept.unmade_set ?_
    rcases new with rfl | rfl <;> exact Nat.le_refl _

end LockHistory

/-- Locks are coherent whatever was done with them: handles are to one lock exactly if they are for one
    name of one set, no lock with a handle is ever replaced or forgotten, and no lock without one is
    handed out again. -/
theorem locks_cohere {history : LockHistory} {w : World} (run : history.Run w) :
    history.Coherent w :=
  run.kept.coherent

/-- A lock is poisoned and its handle dropped. Somebody asks for another name, and then for the same one,
    and gets a new lock. -/
theorem locks_cohere_poisoned :
    let set := CacheId.processWide.locks
    let poisoned : Handle := ⟨set, ⟨"a", by decide⟩, ⟨0⟩⟩
    let other : Handle := ⟨set, ⟨"b", by decide⟩, ⟨1⟩⟩
    let again : Handle := ⟨set, poisoned.name, ⟨2⟩⟩
    ∃ (history : LockHistory) (w : World), history.Run w ∧
      history.map Prod.fst = [.ask set again.name, .ask set other.name, .drop poisoned,
        .unlock poisoned true, .acquire poisoned .first, .ask set poisoned.name] ∧
      history.live = [again, other] ∧ (w.lock poisoned.lock).poisoned ∧ w.lock again.lock = {} ∧
      history.Coherent w := by
  intro set poisoned other again
  have asked := LockHistory.Run.start.step (.ask set poisoned.name) Nat.zero_lt_one
  have taken := asked.step (.acquire poisoned .first) ⟨by decide, rfl⟩
  have freed := taken.step (.unlock poisoned true) ⟨by decide, rfl⟩
  have dropped := freed.step (.drop poisoned) (by decide : poisoned ∈ [poisoned])
  have pruned := dropped.step (.ask set other.name) Nat.zero_lt_one
  have run := pruned.step (.ask set again.name) Nat.zero_lt_one
  exact ⟨_, _, run, rfl, rfl, rfl, rfl, locks_cohere run⟩

end Reload
