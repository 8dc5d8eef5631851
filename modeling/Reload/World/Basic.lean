import Reload.Counters
import Reload.Event
import Reload.Table

/-!
The state that all loaders of a process share.

An artifact lives as long as something holds it strongly. `held` has the serial number of an
artifact once for each strong reference to it, so an artifact is alive exactly if its number is
in that list. Caches refer to artifacts weakly: an entry stays when its artifact dies, until the
entry is swept. Handles to definition locks, and references to execution contexts, are counted in
the same way.
-/

namespace Reload

structure ThreadId where
  index : Nat
  deriving DecidableEq

/-- A cache of published artifacts. Copies of a cache have its id. -/
structure CacheId where
  index : Nat
  deriving DecidableEq

/-- A set of definition locks, one for each name in use. -/
structure LockSetId where
  index : Nat
  deriving DecidableEq

structure LockId where
  index : Nat
  deriving DecidableEq

/-- The counters of one loader or resolver. -/
structure CountersId where
  index : Nat
  deriving DecidableEq

/-- An execution context that builds at most one artifact. -/
structure ContextId where
  index : Nat
  deriving DecidableEq

/-- The locks that belong to a cache. No other cache and no free-standing set has them. -/
def CacheId.locks (cache : CacheId) : LockSetId := ⟨cache.index⟩

/-- A lock that one thread at a time can hold. -/
structure Lock where
  holder : Option ThreadId := none
  /-- Whether a holder panicked. A poisoned lock can still be taken. -/
  poisoned : Bool := false
  deriving DecidableEq

/-- A function with one value replaced. -/
def replace {ι α : Type} [DecidableEq ι] (f : ι → α) (i : ι) (value : α) : ι → α :=
  fun j => if j = i then value else f j

@[simp] theorem replace_self {ι α : Type} [DecidableEq ι] (f : ι → α) (i : ι) (value : α) :
    replace f i value i = value := by simp [replace]

theorem replace_of_ne {ι α : Type} [DecidableEq ι] (f : ι → α) {i j : ι} (value : α)
    (other : j ≠ i) : replace f i value j = f j := by simp [replace, other]

structure World where
  /-- How many artifacts were created. -/
  created : Nat := 0
  /-- The serial number of an artifact, once for each strong reference to it. -/
  held : List Nat := []
  nextThread : Nat := 1
  /-- The name that each thread is defining. -/
  marker : ThreadId → Option Name := fun _ => none
  /-- The index of the next cache or lock set. -/
  nextCache : Nat := 1
  /-- The entries of each cache, dead ones too. -/
  entries : CacheId → Table Name Artifact := fun _ => .empty
  /-- The locks of each set. -/
  locks : LockSetId → Table Name LockId := fun _ => .empty
  nextLock : Nat := 0
  lock : LockId → Lock := fun _ => {}
  /-- A lock, once for each handle to it outside the sets. -/
  handles : List LockId := []
  nextCounters : Nat := 0
  counters : CountersId → Counters := fun _ => {}
  nextContext : Nat := 0
  /-- The artifact that each context has built. -/
  built : ContextId → Option Artifact := fun _ => none
  /-- A context, once for each reference to it. -/
  contexts : List ContextId := []
  /-- All events, the latest one first. -/
  journal : List Event := []

/-- The cache that the loaders of a process share unless they are given another. -/
def CacheId.processWide : CacheId := ⟨0⟩

/-- The thread that a process begins with. -/
def ThreadId.first : ThreadId := ⟨0⟩

namespace World

def record (w : World) (event : Event) : World :=
  { w with journal := event :: w.journal }

def newThread (w : World) : ThreadId × World :=
  (⟨w.nextThread⟩, { w with nextThread := w.nextThread + 1 })

/-! ### Artifacts and their holders -/

/-- Whether something holds the artifact. -/
def alive (w : World) (artifact : Artifact) : Bool := w.held.contains artifact.serial

def retain (w : World) (artifact : Artifact) : World :=
  { w with held := artifact.serial :: w.held }

def release (w : World) (artifact : Artifact) : World :=
  { w with held := w.held.erase artifact.serial }

def retainAll (w : World) (artifacts : List Artifact) : World := artifacts.foldl retain w

def releaseAll (w : World) (artifacts : List Artifact) : World := artifacts.foldl release w

/-- Creates an artifact, with one strong reference for the caller. -/
def create (w : World) (name : Name) (imageSize : Nat) (payload : Payload) : Artifact × World :=
  let serial := w.created + 1
  let artifact : Artifact := { serial, name, imageSize, payload }
  (artifact, { w with created := serial, held := serial :: w.held })

/-! ### The name that a thread is defining -/

/-- Marks the name as being defined by the thread. If the thread has a marker, that one stays, and
    its name is the refusal. -/
def mark (w : World) (thread : ThreadId) (name : Name) : Except Name Unit × World :=
  match w.marker thread with
  | some running => (.error running, w)
  | none => (.ok (), { w with marker := replace w.marker thread (some name) })

def unmark (w : World) (thread : ThreadId) : World :=
  { w with marker := replace w.marker thread none }

/-! ### Counters -/

def newCounters (w : World) : CountersId × World :=
  (⟨w.nextCounters⟩, { w with nextCounters := w.nextCounters + 1 })

def count (w : World) (id : CountersId) (counter : Counter) (amount : UInt64) : World :=
  { w with counters := replace w.counters id ((w.counters id).add counter amount) }

def resetCounters (w : World) (id : CountersId) : World :=
  { w with counters := replace w.counters id {} }

end World

end Reload
