import Reload.MemoryHost

/-!
Loaders define units and resolve names. A loader publishes into one cache, and resolves names
through that cache and its ancestor.

A definition marks its name on its thread, removes the name's entry, packs the unit,
instantiates the image, loads the artifact and publishes it. While the marker stands, the loader's
resolver refuses the name, so the artifact comes from the image. A thread that is defining a unit
defines no other. With `serialize`, the definitions of one name into one cache exclude each other.
-/

namespace Reload

/-- A loader with a packer of type `τ` and a host of type `η`. What it resolves names with is kept
    beside the cache, the ancestor and the counters that it stands for. -/
structure Loader (τ η : Type) where
  packer : τ
  host : η
  cache : CacheId
  ancestor : Option Resolver
  settings : Settings
  counters : CountersId
  /-- It is also the parent of the contexts that definitions make. -/
  resolver : Resolver := .guarded cache ancestor counters
  resolver_eq : resolver = .guarded cache ancestor counters := by rfl

namespace Loader

variable {τ η : Type}

/-! ### Building loaders -/

/-- A loader on the process-wide cache, without an ancestor, and with counters of its own. -/
def create (packer : τ) (host : η) (settings : Settings) (w : World) : Loader τ η × World :=
  let (counters, w) := w.newCounters
  ({ packer, host, cache := .processWide, ancestor := none, settings, counters }, w)

/-- A loader whose packer follows the settings, and whose host has the default API level or
    that of the settings, whichever is higher. -/
def createMatching (packer : Settings → τ) (host : UInt16 → η) (settings : Settings)
    (w : World) : Loader τ η × World :=
  create (packer settings) (host (max settings.minHostApi defaultHostApi)) settings w

/-- The loader on this cache and with this ancestor. It gets a new resolver, which counts into the
    same counters; the old one stays what it was for those who have it. -/
def rebuild (loader : Loader τ η) (cache : CacheId) (ancestor : Option Resolver) : Loader τ η :=
  { packer := loader.packer
    host := loader.host
    cache, ancestor
    settings := loader.settings
    counters := loader.counters
    resolver := .guarded cache ancestor loader.counters }

def withCache (loader : Loader τ η) (cache : CacheId) : Loader τ η :=
  loader.rebuild cache loader.ancestor

def withAncestor (loader : Loader τ η) (ancestor : Resolver) : Loader τ η :=
  loader.rebuild loader.cache (some ancestor)

def retain (loader : Loader τ η) (w : World) : World := loader.resolver.retain w

def release (loader : Loader τ η) (w : World) : World := loader.resolver.release w

def describe (loader : Loader τ η) (w : World) : String :=
  "DynamicLoader \x7b config: " ++ loader.settings.describe
    ++ ", cache_entries: " ++ toString (w.cacheSize loader.cache)
    ++ ", has_ancestor: " ++ toString loader.ancestor.isSome ++ ", .. \x7d"

/-! ### Resolving and defining -/

def resolve (loader : Loader τ η) (thread : ThreadId) (name : Name) (w : World) :
    Except NotFound Artifact × World :=
  loader.resolver.resolve thread name w

variable {ρ κ α : Type}

/-- Runs the action while the thread is marked with the name. The marker is gone afterwards, also
    when the action panics. -/
def marked (thread : ThreadId) (name : Name) (body : Attempt ρ α) : Attempt ρ α := do
  match ← ExceptT.lift (Action.onWorld fun w => w.mark thread name) with
  | .error running => throw (.inFlight running)
  | .ok () =>
    ExceptT.mk (body.run.ensuring fun _ => Action.changing fun w => w.unmark thread)

/-- Runs the action with the definition lock of the name, if the loader serializes. -/
def serialized (loader : Loader τ η) (thread : ThreadId) (name : Name)
    (body : Action (System ρ) α) : Action (System ρ) α :=
  if loader.settings.serialize then do
    let lock ← Action.onWorld fun w => w.lockFor loader.cache.locks name
    Action.withLock lock thread body
  else body

/-- Removes the entry of a name before its definition. An entry that was there makes this a
    redefinition. -/
def forget (loader : Loader τ η) (name : Name) : Action (System ρ) Unit := do
  if ← Action.onWorld fun w => w.invalidate loader.cache name then
    Action.change fun w => w.count loader.counters .redefinitions 1
    Action.change fun w => w.record (.invalidated name)

/-- Loads the name in a context, publishes the artifact and drops the context. Tells how many dead
    entries the publishing swept. -/
def publishFrom (loader : Loader τ (Host ρ κ)) (thread : ThreadId) (name : Name) (context : κ) :
    Attempt ρ (Artifact × Nat) := do
  let body : Attempt ρ (Artifact × Nat) := do
    match ← loader.host.load thread context name with
    | none => throw .emptyResult
    | some artifact =>
      let swept ← ExceptT.lift (Action.onWorld fun w => w.publish loader.cache name artifact)
      return (artifact, swept)
  ExceptT.mk (body.run.ensuring fun _ => Action.changing fun w => loader.host.close context w)

/-- The steps of a definition that run under the marker. -/
def defineMarked (loader : Loader (Packer ρ) (Host ρ κ)) (thread : ThreadId) (name : Name)
    (raw : Bytes) : Attempt ρ (Artifact × Nat) :=
  marked thread name do
    ExceptT.lift (loader.forget name)
    let image ← loader.packer.pack thread name raw
    let context ← loader.host.instantiate thread image loader.resolver
    loader.publishFrom thread name context

def succeed (loader : Loader τ η) (name : Name) (artifact : Artifact) (swept : Nat) :
    Action (System ρ) (Except DefinitionFailure Artifact) := do
  Action.change fun w => w.count loader.counters .definitions 1
  Action.change fun w => w.count loader.counters .entriesSwept (UInt64.ofNat swept)
  Action.change fun w => w.record (.defined name artifact swept)
  return .ok artifact

def failureEvent (name : Name) : Failure → Event
  | .inFlight running => .refusedReentrant name running
  | cause => .failed name cause

def fail (loader : Loader τ η) (name : Name) (cause : Failure) :
    Action (System ρ) (Except DefinitionFailure Artifact) := do
  Action.change fun w => w.count loader.counters .definitionFailures 1
  Action.change fun w => w.record (failureEvent name cause)
  return .error ⟨name, cause⟩

/-- Defines a name from the raw bytes of a unit. The artifact comes with one strong reference for
    the caller; the cache has none. A thread that is defining a unit is refused before it waits
    for a lock, which it may hold itself. -/
def define (loader : Loader (Packer ρ) (Host ρ κ)) (thread : ThreadId) (name : Name)
    (raw : Bytes) : Action (System ρ) (Except DefinitionFailure Artifact) := do
  match ← Action.read fun w => w.marker thread with
  | some running => loader.fail name (.inFlight running)
  | none =>
    loader.serialized thread name do
      match ← (loader.defineMarked thread name raw).run with
      | .ok (artifact, swept) => loader.succeed name artifact swept
      | .error cause => loader.fail name cause

end Loader

end Reload
