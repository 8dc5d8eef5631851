import Reload.Session.Answer

/-!
The commands of a session. A session works on named registers of several kinds. Packers and
hosts may have hooks: commands that run in the middle of a definition, an instantiation or a
load, on the same thread.
-/

namespace Reload.Session

abbrev Register := String

/-- How a packer is put together, with hooks made of `Op`. -/
inductive PackerPlan (Op : Type) where
  /-- Follows the settings. -/
  | standard (settings : Settings)
  /-- The raw bytes are the image. -/
  | identity
  | failing (cause : Failure)
  /-- Runs the commands first. -/
  | hooked (ops : List Op) (inner : PackerPlan Op)

/-- How a host is put together, with hooks made of `Op`. -/
inductive HostPlan (Op : Type) where
  | memory (api : UInt16)
  /-- The contexts load nothing. -/
  | empty
  /-- The contexts load what is in the register at that moment. -/
  | fixed (artifact : Register)
  /-- The contexts fail to load. -/
  | failingLoads (cause : Failure)
  | failing (cause : Failure)
  /-- Runs the commands before each instantiation. -/
  | hookedInstantiate (ops : List Op) (inner : HostPlan Op)
  /-- Runs the commands before each load of a context. -/
  | hookedLoad (ops : List Op) (inner : HostPlan Op)

/-- How a loader is put together. -/
inductive LoaderPlan (Op : Type) where
  /-- Packer and in-memory host follow the settings. -/
  | matching (settings : Settings)
  /-- With default settings. -/
  | plain (packer : PackerPlan Op) (host : HostPlan Op)
  | custom (settings : Settings) (packer : PackerPlan Op) (host : HostPlan Op)

inductive LocksAt where
  | cache (cache : Register)
  | set (set : Register)

inductive CountersAt where
  | loader (loader : Register)
  | counters (counters : Register)

inductive ResolverAt where
  | loader (loader : Register)
  | resolver (resolver : Register)

/-- Commands on artifacts and weak references. A result goes `into` a register after the command is
    done; without a register it is dropped. -/
inductive ArtifactCommand where
  | create (name : Name) (imageSize : Nat) (payload : Payload) (into : Option Register)
  | inspect (artifact : Register)
  | hold (artifact : Register) (into : Option Register)
  | drop (artifact : Register)
  | compare (a b : Register)
  | weaken (artifact : Register) (into : Option Register)
  | isAlive (weak : Register)

/-- Commands on the marker of the thread. A scope is what a marker stands for; dropping it clears
    the marker. -/
inductive ScopeCommand where
  | enter (name : Name) (into : Option Register)
  | close (scope : Register)
  | marker
  | isMarked (name : Name)

inductive CacheCommand where
  | create (into : Option Register)
  | share (cache : Register) (into : Option Register)
  | publish (artifact cache : Register) (name : Name)
  | lookup (cache : Register) (name : Name) (into : Option Register)
  | invalidate (cache : Register) (name : Name)
  | contains (cache : Register) (name : Name)
  | size (cache : Register)
  | clear (cache : Register)
  | state (cache : Register) (names : List Name)

inductive LockCommand where
  | createSet (into : Option Register)
  | lockFor (name : Name) (locks : LocksAt) (into : Option Register)
  | count (locks : LocksAt)
  | same (a b : Register)
  | drop (lock : Register)
  | tryLock (lock : Register)

inductive ResolverCommand where
  | linked (artifacts : List Register) (into : Option Register)
  | chain (links : List Register) (into : Option Register)
  | guarded (counters : Option Register) (cache : Register) (ancestor : Option Register)
      (into : Option Register)
  | ofLoader (loader : Register) (into : Option Register)
  | drop (resolver : Register)
  | state (resolver : Register)
  | resolve (name : Name) (source : ResolverAt) (into : Option Register)

inductive CountersCommand where
  | create (into : Option Register)
  | add (counters : CountersAt) (counter : Counter) (amount : UInt64)
  | reset (counters : CountersAt)
  | read (counters : CountersAt)

inductive Command where
  /-- The command was refused when it was read; it does nothing but answer so. -/
  | refused (answer : Answer)
  | artifact (command : ArtifactCommand)
  | scope (command : ScopeCommand)
  | cache (command : CacheCommand)
  | lock (command : LockCommand)
  | resolver (command : ResolverCommand)
  | counters (command : CountersCommand)
  /-- Runs the commands while the thread holds the lock. -/
  | withLock (lock : Register) (ops : List Command)
  | instantiate (host : HostPlan Command) (parent : Option Register) (image : Bytes)
      (into : Option Register)
  | load (name : Name) (context : Register) (into : Option Register)
  | contextState (context : Register)
  | dropContext (context : Register)
  | newLoader (plan : LoaderPlan Command) (cache ancestor : Option Register)
      (into : Option Register)
  | rebuildLoader (cache ancestor : Option Register) (loader : Register)
  | dropLoader (loader : Register)
  | loaderState (loader : Register)
  | define (name : Name) (raw : Bytes) (loader : Register) (into : Option Register)
  /-- Runs the commands on a new thread, and waits for its end. -/
  | thread (ops : List Command)
  | panic (message : String)
  /-- All events since the last such command. -/
  | events

end Reload.Session
