import Reload.Session.Hooks

/-!
Running the commands of a session. A session starts with empty registers, an empty process-wide
cache and no marker on any thread. Threads run to their end when they are started. A definition,
an instantiation, a load, a thread or a block under a lock that panics answers with the panic.
-/

namespace Reload.Session

/-- A step of a command. It fails if it reads a register that is empty. -/
abbrev Step (α : Type) : Type := ExceptT Register (Action (System Registers)) α

namespace Step

variable {α : Type}

def of (action : Action (System Registers) α) : Step α := ExceptT.lift action

def change (f : System Registers → System Registers) : Step Unit :=
  of (Action.atomically fun s => ((), f s))

def onWorld (f : World → α × World) : Step α := of (Action.onWorld f)

def changeWorld (f : World → World) : Step Unit := of (Action.change f)

def read (f : World → α) : Step α := of (Action.read f)

def fetch (kind : Kind α) (register : Register) : Step α := do
  match ← of (Action.atomically fun s => ((kind.table s.client).get? register, s)) with
  | some value => return value
  | none => throw register

def fetch? (kind : Kind α) : Option Register → Step (Option α)
  | some register => some <$> fetch kind register
  | none => return none

/-- Keeps a result in a register, or drops it. -/
def keep (kind : Kind α) (into : Option Register) (value : α) : Step Unit :=
  change (kind.keep into value)

/-- Empties a register, and tells whether there was a value in it. -/
def drop (kind : Kind α) (register : Register) : Step Answer :=
  .flag <$> of (Action.atomically (kind.drop register))

def locksAt : LocksAt → Step LockSetId
  | .cache cache => (·.locks) <$> fetch .caches cache
  | .set set => fetch .lockSets set

def countersAt : CountersAt → Step CountersId
  | .loader loader => (·.counters) <$> fetch .loaders loader
  | .counters counters => fetch .counters counters

def resolverAt : ResolverAt → Step Resolver
  | .loader loader => (·.resolver) <$> fetch .loaders loader
  | .resolver resolver => (·.resolver) <$> fetch .resolvers resolver

/-- The answer that an action gives at its end; a panic is an answer. -/
def answer (action : Action (System Registers) α) (answerOf : α → Step Answer) : Step Answer := do
  match ← of action.attempt with
  | .ok value => answerOf value
  | .error panic => return .panic panic

/-- The answer of an action, with those of the hooks that ran to their end in it. -/
def answerWithHooks (action : Action (System Registers) α) (answerOf : α → Step Answer) :
    Step Answer := do
  of openHooks
  let result ← of action.attempt
  let hooks ← of closeHooks
  match result with
  | .ok value => return (← answerOf value).withHooks hooks
  | .error panic => return (Answer.panic panic).withHooks hooks

/-- Links in artifacts, one after the other. Gives the artifacts that were replaced on the way, and
    the linked units. -/
def link (artifacts : List Register) : Step (List (Option Artifact) × Table Name Artifact) := do
  let rec go : List Register → Table Name Artifact →
      Step (List (Option Artifact) × Table Name Artifact)
    | [], units => return ([], units)
    | register :: rest, units => do
      let artifact ← fetch .artifacts register
      changeWorld fun w => w.retain artifact
      let (replaced, units) := Resolver.link units artifact
      if let some old := replaced then changeWorld fun w => w.release old
      let (others, units) ← go rest units
      return (replaced :: others, units)
  go artifacts .empty

end Step

open Step

def ArtifactCommand.perform : ArtifactCommand → Step Answer
  | create name imageSize payload into => do
    let artifact ← onWorld fun w => w.create name imageSize payload
    keep .artifacts into artifact
    return .artifact artifact
  | inspect artifact => return .inspected (← fetch .artifacts artifact)
  | hold artifact into => do
    let artifact ← fetch .artifacts artifact
    changeWorld fun w => w.retain artifact
    keep .artifacts into artifact
    return .done
  | drop artifact => Step.drop .artifacts artifact
  | compare a b => do
    let a ← fetch .artifacts a
    let b ← fetch .artifacts b
    return .compared (a.serial = b.serial) (Ord.compare a.id b.id)
  | weaken artifact into => do
    keep .weak into (← fetch .artifacts artifact)
    return .done
  | isAlive weak => do
    let artifact ← fetch .weak weak
    return .flag (← Step.read fun w => w.alive artifact)

def ScopeCommand.perform (thread : ThreadId) : ScopeCommand → Step Answer
  | enter name into => do
    match ← onWorld fun w => w.mark thread name with
    | .error running => return .failure (.inFlight running)
    | .ok () =>
      keep (.scopes thread) into name
      return .scope name
  | close scope => Step.drop (.scopes thread) scope
  | marker => do
    match ← Step.read fun w => w.marker thread with
    | some name => return .marker name
    | none => return .nothing
  | isMarked name => return .flag (← Step.read fun w => decide (w.marker thread = some name))

def cacheRow (cache : CacheId) (name : Name) (w : World) : CacheRow where
  name := name
  contained := w.contains cache name
  artifact := (w.lookup cache name).1

def CacheCommand.perform : CacheCommand → Step Answer
  | create into => do
    keep .caches into (← onWorld World.newCache)
    return .done
  | share cache into => do
    keep .caches into (← fetch .caches cache)
    return .done
  | publish artifact cache name => do
    let artifact ← fetch .artifacts artifact
    let cache ← fetch .caches cache
    return .swept (← onWorld fun w => w.publish cache name artifact)
  | lookup cache name into => do
    let cache ← fetch .caches cache
    match ← onWorld fun w => w.lookup cache name with
    | some artifact =>
      keep .artifacts into artifact
      return .artifact artifact
    | none => return .nothing
  | invalidate cache name => do
    let cache ← fetch .caches cache
    return .flag (← onWorld fun w => w.invalidate cache name)
  | contains cache name => do
    let cache ← fetch .caches cache
    return .flag (← Step.read fun w => w.contains cache name)
  | size cache => do
    let cache ← fetch .caches cache
    return .size (← Step.read fun w => w.cacheSize cache)
  | clear cache => do
    let cache ← fetch .caches cache
    changeWorld fun w => w.clear cache
    return .done
  | state cache names => do
    let cache ← fetch .caches cache
    Step.read fun w => .cacheState (w.cacheSize cache) (names.map fun name => cacheRow cache name w)

def LockCommand.perform : LockCommand → Step Answer
  | createSet into => do
    keep .lockSets into (← onWorld World.newLockSet)
    return .done
  | lockFor name locks into => do
    let set ← locksAt locks
    keep .locks into (← onWorld fun w => w.lockFor set name)
    return .done
  | count locks => do
    let set ← locksAt locks
    return .size (← Step.read fun w => w.lockCount set)
  | same a b => do
    let a ← fetch .locks a
    let b ← fetch .locks b
    return .flag (a = b)
  | drop lock => Step.drop .locks lock
  | tryLock lock => do
    let lock ← fetch .locks lock
    return .lock (← Step.read fun w => LockState.ofLock (w.lock lock))

/-- The state of a resolver that can be told. One that was taken from a loader tells nothing. -/
def ResolverEntry.state (entry : ResolverEntry) (w : World) : Answer :=
  if entry.ofLoader then .nothing
  else
    match entry.resolver.tree with
    | .linked units => .size units.size
    | .chain links => .chainState links.length
    | .guarded cache ancestor _ => .guardedState (w.cacheSize cache) ancestor.isSome

def ResolverCommand.perform (thread : ThreadId) : ResolverCommand → Step Answer
  | linked artifacts into => do
    let (replaced, units) ← link artifacts
    keep .resolvers into ⟨.linked units, false⟩
    return .linked replaced units.size
  | chain links into => do
    let entries ← links.mapM (fetch .resolvers)
    let resolver := Resolver.chain (entries.map (·.resolver))
    changeWorld resolver.retain
    keep .resolvers into ⟨resolver, false⟩
    return .chain entries.length
  | guarded counters cache ancestor into => do
    let counters ← match counters with
      | some register => fetch .counters register
      | none => onWorld World.newCounters
    let cache ← fetch .caches cache
    let ancestor ← fetch? .resolvers ancestor
    let resolver := Resolver.guarded cache (ancestor.map (·.resolver)) counters
    changeWorld resolver.retain
    keep .resolvers into ⟨resolver, false⟩
    return .done
  | ofLoader loader into => do
    let loader ← fetch .loaders loader
    changeWorld loader.retain
    keep .resolvers into ⟨loader.resolver, true⟩
    return .done
  | drop resolver => Step.drop .resolvers resolver
  | state resolver => do
    let entry ← fetch .resolvers resolver
    Step.read entry.state
  | resolve name source into => do
    let resolver ← resolverAt source
    match ← onWorld fun w => resolver.resolve thread name w with
    | .ok artifact =>
      keep .artifacts into artifact
      return .artifact artifact
    | .error missing => return .failure (.notFound missing)

def CountersCommand.perform : CountersCommand → Step Answer
  | create into => do
    keep .counters into (← onWorld World.newCounters)
    return .done
  | add counters counter amount => do
    let id ← countersAt counters
    onWorld fun w => (.oldCount ((w.counters id).get counter), w.count id counter amount)
  | reset counters => do
    let id ← countersAt counters
    changeWorld fun w => w.resetCounters id
    return .done
  | read counters => do
    let id ← countersAt counters
    Step.read fun w => .counters (w.counters id)

/-- Drops the scopes and the contexts of a thread that has ended. -/
def endThread (thread : ThreadId) (s : System Registers) : System Registers :=
  (Kind.contexts thread).dropAll ((Kind.scopes thread).dropAll s)

/-- A loader on another cache or with another ancestor, where they are given. -/
def rebuilt (loader : PlannedLoader) (cache : Option CacheId) (ancestor : Option ResolverEntry) :
    PlannedLoader :=
  let loader := (ancestor.map fun entry => loader.withAncestor entry.resolver).getD loader
  (cache.map loader.withCache).getD loader

/-- The events that were not told yet, the earliest one first. -/
def newEvents (s : System Registers) : List Event × System Registers :=
  ((s.world.journal.take (s.world.journal.length - s.client.reported)).reverse,
    { s with client := { s.client with reported := s.world.journal.length } })

/-- The answer to a command on a thread. Nested commands are run by `run`. What a running command
    works on stays alive until it ends, even if a hook empties the register. -/
def performCommand (run : Runner) (thread : ThreadId) : Command → Step Answer
  | .refused answer => return answer
  | .artifact command => command.perform
  | .scope command => command.perform thread
  | .cache command => command.perform
  | .lock command => command.perform
  | .resolver command => command.perform thread
  | .counters command => command.perform
  | .withLock lock ops => do
    let lock ← fetch .locks lock
    changeWorld fun w => w.addHandle lock
    Step.answer (Action.withLock lock thread (run thread ops)) fun answers => return .steps answers
  | .instantiate host parent image into => do
    let parent := ((← fetch? .resolvers parent).map (·.resolver)).getD .none
    let building := ((host.toHost run).instantiate thread image parent).run
    answerWithHooks (building.holding parent.retain parent.release) fun
      | .error cause => return .failure cause
      | .ok context => do
        let text ← Step.read context.describe
        keep (.contexts thread) into context
        return .described text
  | .load name context into => do
    let context ← fetch (.contexts thread) context
    let loading := (context.load run thread name).run
    answerWithHooks (loading.holding context.retain context.close) fun
      | .error cause => return .failure cause
      | .ok (some artifact) => do
        keep .artifacts into artifact
        return .artifact artifact
      | .ok none => return .nothing
  | .contextState context => do
    let context ← fetch (.contexts thread) context
    return .described (← Step.read context.describe)
  | .dropContext context => Step.drop (.contexts thread) context
  | .newLoader plan cache ancestor into => do
    let cache ← fetch? .caches cache
    let ancestor ← fetch? .resolvers ancestor
    let loader := rebuilt (← onWorld plan.create) cache ancestor
    changeWorld loader.retain
    keep .loaders into loader
    return .settings loader.settings
  | .rebuildLoader cache ancestor register => do
    let cache ← fetch? .caches cache
    let ancestor ← fetch? .resolvers ancestor
    let loader := rebuilt (← fetch .loaders register) cache ancestor
    changeWorld loader.retain
    keep .loaders (some register) loader
    return .done
  | .dropLoader loader => Step.drop .loaders loader
  | .loaderState loader => do
    let loader ← fetch .loaders loader
    Step.read fun w => .loaderState loader.settings (w.cacheSize loader.cache)
      (w.counters loader.counters) (loader.describe w)
  | .define name raw loader into => do
    let loader ← fetch .loaders loader
    let defining := (loader.toLoader run).define thread name raw
    answerWithHooks (defining.holding loader.retain loader.release) fun
      | .error failure => return .definitionFailure failure
      | .ok artifact => do
        keep .artifacts into artifact
        return .artifact artifact
  | .thread ops => do
    let started ← onWorld World.newThread
    Step.answer
      ((run started ops).ensuring fun _ => Program.atomically fun s => ((), endThread started s))
      fun answers => return .steps answers
  | .panic message => of (Action.panic message)
  | .events => .events <$> of (Action.atomically newEvents)

/-- The answer to a command, also if it reads an empty register. -/
def answerCommand (run : Runner) (thread : ThreadId) (command : Command) :
    Action (System Registers) Answer := do
  match ← (performCommand run thread command).run with
  | .ok answer => return answer
  | .error register => return .unknownRegister register

/-- Runs commands whose nesting, hooks included, is no deeper than the limit. Commands below the
    limit wait forever. -/
def runNested : (limit : Nat) → Runner
  | 0, _, _ => ExceptT.lift (Program.never [])
  | limit + 1, thread, ops => ops.mapM (answerCommand (runNested limit) thread)

/-- How deep commands may be nested, hooks included. -/
def nestingLimit : Nat := 4096

/-- The answers to the commands of a session, or the panic that ends it. There is no end if a
    command waits for a lock that is never free, or hooks are nested beyond the limit. -/
def answers (ops : List Command) : Option (Except Panic (List Answer)) :=
  let start : System Registers := { world := {}, client := {} }
  ((runNested nestingLimit ThreadId.first ops).run.run start).map Prod.fst

end Reload.Session
