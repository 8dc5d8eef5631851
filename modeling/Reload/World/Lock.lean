import Reload.World.Basic

/-!
Definition locks. A set has one lock for each name in use. Whoever asks for the lock of a name
gets a handle; a lock that nobody has a handle to leaves its set the next time somebody asks for
the lock of any name.
-/

namespace Reload.World

/-- Makes a set without locks. Its index is that of no cache, so no cache shares its locks. -/
def newLockSet (w : World) : LockSetId × World :=
  (⟨w.nextCache⟩, { w with nextCache := w.nextCache + 1 })

def hasHandle (w : World) (lock : LockId) : Bool := w.handles.contains lock

def addHandle (w : World) (lock : LockId) : World :=
  { w with handles := lock :: w.handles }

def dropHandle (w : World) (lock : LockId) : World :=
  { w with handles := w.handles.erase lock }

/-- The locks of a set that somebody has a handle to. -/
def pruned (w : World) (set : LockSetId) : Table Name LockId :=
  (w.locks set).filter w.hasHandle

/-- A handle to the lock of a name. Locks without handles leave the set first; then a name without
    a lock gets a new one. -/
def lockFor (w : World) (set : LockSetId) (name : Name) : LockId × World :=
  let kept := w.pruned set
  match kept.get? name with
  | some lock => (lock, { w with locks := replace w.locks set kept }.addHandle lock)
  | none =>
    let lock : LockId := ⟨w.nextLock⟩
    (lock, { w with
      nextLock := w.nextLock + 1
      locks := replace w.locks set (kept.insert name lock) }.addHandle lock)

def lockCount (w : World) (set : LockSetId) : Nat := (w.locks set).size

def isFree (w : World) (lock : LockId) : Bool := (w.lock lock).holder.isNone

def acquire (w : World) (lock : LockId) (thread : ThreadId) : World :=
  { w with lock := replace w.lock lock { w.lock lock with holder := some thread } }

/-- Takes a lock from its holder. A holder that panics leaves the lock poisoned. -/
def unlock (w : World) (lock : LockId) (panicking : Bool) : World :=
  let poisoned := (w.lock lock).poisoned || panicking
  { w with lock := replace w.lock lock { holder := none, poisoned } }

/-! ### What asking for a lock changes -/

/-- Asking for a lock changes its set, the handles, and the index of the next lock. -/
theorem lockFor_eq (w : World) (set : LockSetId) (name : Name) :
    (w.lockFor set name).2 = { w with
      nextLock := (w.lockFor set name).2.nextLock
      locks := replace w.locks set ((w.lockFor set name).2.locks set)
      handles := (w.lockFor set name).1 :: w.handles } := by
  cases found : (w.pruned set).get? name <;> simp [lockFor, found, addHandle]

@[simp] theorem lockFor_lock (w : World) (set : LockSetId) (name : Name) :
    (w.lockFor set name).2.lock = w.lock := by rw [lockFor_eq]

@[simp] theorem lockFor_handles (w : World) (set : LockSetId) (name : Name) :
    (w.lockFor set name).2.handles = (w.lockFor set name).1 :: w.handles := by rw [lockFor_eq]

@[simp] theorem lockFor_marker (w : World) (set : LockSetId) (name : Name) :
    (w.lockFor set name).2.marker = w.marker := by rw [lockFor_eq]

@[simp] theorem lockFor_entries (w : World) (set : LockSetId) (name : Name) :
    (w.lockFor set name).2.entries = w.entries := by rw [lockFor_eq]

@[simp] theorem lockFor_held (w : World) (set : LockSetId) (name : Name) :
    (w.lockFor set name).2.held = w.held := by rw [lockFor_eq]

@[simp] theorem lockFor_counters (w : World) (set : LockSetId) (name : Name) :
    (w.lockFor set name).2.counters = w.counters := by rw [lockFor_eq]

/-- Afterwards the set has the lock that was handed out under the name, and under any other name
    the lock that was there, if somebody has a handle to it. -/
theorem get?_lockFor (w : World) (set : LockSetId) (name other : Name) :
    ((w.lockFor set name).2.locks set).get? other =
      if other = name then some (w.lockFor set name).1
      else ((w.locks set).get? other).filter w.hasHandle := by
  have kept : (w.pruned set).get? other = ((w.locks set).get? other).filter w.hasHandle :=
    Table.get?_filter ..
  cases found : (w.pruned set).get? name with
  | none => simp [lockFor, found, addHandle, kept]
  | some lock =>
    by_cases same : other = name
    · simp [lockFor, found, addHandle, same]
    · simp [lockFor, found, addHandle, same, kept]

/-- A lock that is handed out was in the set under the name and has a handle, or it is a new one. -/
theorem lockFor_old_or_new (w : World) (set : LockSetId) (name : Name) :
    ((w.locks set).get? name = some (w.lockFor set name).1 ∧ w.hasHandle (w.lockFor set name).1) ∨
      ((w.lockFor set name).1.index = w.nextLock ∧
        (w.lockFor set name).2.nextLock = w.nextLock + 1) := by
  have kept : (w.pruned set).get? name = ((w.locks set).get? name).filter w.hasHandle :=
    Table.get?_filter ..
  cases found : (w.pruned set).get? name with
  | none => exact .inr (by simp [lockFor, found, addHandle])
  | some lock =>
    rw [found] at kept
    exact .inl (by simpa [lockFor, found] using Option.filter_eq_some_iff.mp kept.symm)

theorem lockFor_fst (w : World) (set : LockSetId) (name : Name) :
    (w.locks set).get? name = some (w.lockFor set name).1 ∨
      (w.lockFor set name).1 = ⟨w.nextLock⟩ :=
  (w.lockFor_old_or_new set name).imp And.left fun new => congrArg LockId.mk new.1

/-- A lock with a handle stays the lock of its name. -/
theorem lockFor_of_hasHandle {w : World} {set : LockSetId} {name : Name} {lock : LockId}
    (tabled : (w.locks set).get? name = some lock) (handle : w.hasHandle lock) :
    (w.lockFor set name).1 = lock := by
  have kept : (w.pruned set).get? name = some lock := by
    rw [pruned, Table.get?_filter]
    exact Option.filter_eq_some_iff.mpr ⟨tabled, handle⟩
  simp [lockFor, kept]

/-- Asking for a lock leaves the other sets alone. -/
theorem locks_lockFor_of_ne (w : World) {set other : LockSetId} (name : Name)
    (different : other ≠ set) : (w.lockFor set name).2.locks other = w.locks other := by
  rw [lockFor_eq]
  exact replace_of_ne _ _ different

/-- A lock that is in a set after somebody asked for one was there before, or it is that one. -/
theorem of_get?_lockFor {w : World} {set other : LockSetId} {name name' : Name}
    {lock : LockId} (tabled : ((w.lockFor set name).2.locks other).get? name' = some lock) :
    (w.locks other).get? name' = some lock ∨
      other = set ∧ name' = name ∧ lock = (w.lockFor set name).1 := by
  by_cases same : other = set
  · subst same
    rw [get?_lockFor] at tabled
    split at tabled
    · next named => exact .inr ⟨rfl, named, (Option.some.inj tabled).symm⟩
    · exact .inl (Option.filter_eq_some_iff.mp tabled).1
  · rw [locks_lockFor_of_ne w name same] at tabled
    exact .inl tabled

theorem nextLock_le_lockFor (w : World) (set : LockSetId) (name : Name) :
    w.nextLock ≤ (w.lockFor set name).2.nextLock := by
  cases found : (w.pruned set).get? name <;> simp [lockFor, found, addHandle]

end Reload.World
