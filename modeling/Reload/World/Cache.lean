import Reload.World.Basic

/-!
Caches. A cache has at most one entry for a name, and refers to the artifact weakly. An entry
whose artifact has died is no answer to a look-up, but it is there until the next publishing into
the cache sweeps it, its name is invalidated, or the cache is cleared.
-/

namespace Reload.World

def newCache (w : World) : CacheId × World :=
  (⟨w.nextCache⟩, { w with nextCache := w.nextCache + 1 })

/-- The live artifact under a name, with one more strong reference for the caller. -/
def lookup (w : World) (cache : CacheId) (name : Name) : Option Artifact × World :=
  match (w.entries cache).get? name with
  | some artifact => if w.alive artifact then (some artifact, w.retain artifact) else (none, w)
  | none => (none, w)

/-- Whether a name has an entry, live or dead. -/
def contains (w : World) (cache : CacheId) (name : Name) : Bool :=
  (w.entries cache).contains name

def cacheSize (w : World) (cache : CacheId) : Nat := (w.entries cache).size

/-- Removes the entry of a name, live or dead, and tells whether there was one. -/
def invalidate (w : World) (cache : CacheId) (name : Name) : Bool × World :=
  (w.contains cache name,
    { w with entries := replace w.entries cache ((w.entries cache).erase name) })

/-- Sweeps the dead entries, and puts the artifact under the name. Tells how many entries were
    swept; a dead one of the same name counts. -/
def publish (w : World) (cache : CacheId) (name : Name) (artifact : Artifact) : Nat × World :=
  let live := (w.entries cache).filter w.alive
  ((w.entries cache).size - live.size,
    { w with entries := replace w.entries cache (live.insert name artifact) })

def clear (w : World) (cache : CacheId) : World :=
  { w with entries := replace w.entries cache .empty }

end Reload.World
