import Reload.Loader

/-!
The answers of a session's commands.
-/

namespace Reload.Session

/-- What an attempt to take a lock without waiting finds. -/
inductive LockState where
  | free
  /-- A thread holds the lock, perhaps the one that tries. -/
  | held
  /-- Nobody holds the lock, but a holder panicked. -/
  | poisoned
  deriving DecidableEq

def LockState.ofLock (lock : Lock) : LockState :=
  if lock.holder.isSome then held else if lock.poisoned then poisoned else free

/-- What a cache has for one name: whether there is an entry, and the live artifact. -/
structure CacheRow where
  name : Name
  contained : Bool
  artifact : Option Artifact

inductive Answer where
  | done
  | flag (value : Bool)
  | nothing
  | artifact (artifact : Artifact)
  /-- The artifact with its description. -/
  | inspected (artifact : Artifact)
  /-- Whether two artifacts are one, and the order of their ids. -/
  | compared (same : Bool) (order : Ordering)
  /-- The name of a scope that was begun. -/
  | scope (name : Name)
  | marker (name : Name)
  /-- How many dead entries a publishing swept. -/
  | swept (count : Nat)
  | size (count : Nat)
  | cacheState (size : Nat) (rows : List CacheRow)
  | lock (state : LockState)
  /-- For each unit linked in, the one that it replaced; and how many are linked in at the end. -/
  | linked (replaced : List (Option Artifact)) (size : Nat)
  | chain (length : Nat)
  | guardedState (cacheSize : Nat) (hasAncestor : Bool)
  | chainState (length : Nat)
  /-- The value of a counter before it grew. -/
  | oldCount (value : UInt64)
  | counters (counters : Counters)
  | described (text : String)
  | settings (settings : Settings)
  | loaderState (settings : Settings) (cacheSize : Nat) (counters : Counters)
      (description : String)
  | events (events : List Event)
  /-- The answers of nested commands. -/
  | steps (answers : List Answer)
  /-- An answer with those of the hooks that ran to their end meanwhile. -/
  | hooked (answer : Answer) (hooks : List (List Answer))
  | failure (cause : Failure)
  | definitionFailure (failure : DefinitionFailure)
  | defect (defect : Wire.Defect)
  | panic (panic : Panic)
  /-- No register of the kind has this name. -/
  | unknownRegister (name : String)

/-- An answer with those of hooks, if there were any. -/
def Answer.withHooks (answer : Answer) : List (List Answer) → Answer
  | [] => answer
  | hooks => .hooked answer hooks

end Reload.Session
