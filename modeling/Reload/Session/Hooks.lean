import Reload.Session.Registers

/-!
Packers, hosts and contexts put together from their plans. Their hooks run on the thread of
the call; the answers of a hook that runs to its end go to the innermost definition,
instantiation or load that is running.
-/

namespace Reload.Session

/-- Runs commands one after the other on a thread. -/
abbrev Runner := ThreadId → List Command → Action (System Registers) (List Answer)

/-- Begins to collect the answers of hooks. -/
def openHooks : Action (System Registers) Unit :=
  Action.atomically fun s => ((), { s with client := { s.client with hooks := [] :: s.client.hooks } })

/-- The answers of the hooks since the matching `openHooks`. -/
def closeHooks : Action (System Registers) (List (List Answer)) :=
  Action.atomically fun s =>
    (s.client.hooks.headD [], { s with client := { s.client with hooks := s.client.hooks.tail } })

/-- Adds the answers of a hook to the innermost collection. -/
def Registers.addHook (r : Registers) (answers : List Answer) : Registers :=
  match r.hooks with
  | [] => r
  | innermost :: outer => { r with hooks := (innermost ++ [answers]) :: outer }

/-- Runs a hook. If it panics, its answers are lost. -/
def runHook (run : Runner) (thread : ThreadId) (ops : List Command) :
    Action (System Registers) Unit := do
  let answers ← run thread ops
  Action.atomically fun s => ((), { s with client := s.client.addHook answers })

def PackerPlan.toPacker (run : Runner) : PackerPlan Command → Packer Registers
  | standard settings => .standard settings
  | identity => ⟨fun _ _ raw => pure raw⟩
  | failing cause => ⟨fun _ _ _ => throw cause⟩
  | hooked ops inner =>
    ⟨fun thread name raw => do
      ExceptT.lift (runHook run thread ops)
      (inner.toPacker run).pack thread name raw⟩

/-- Loads a name in a context. -/
def Context.load (run : Runner) (thread : ThreadId) (name : Name) :
    Context → Attempt Registers (Option Artifact)
  | memory context => (Host.memory defaultHostApi).load thread context name
  | empty => pure none
  | fixed register =>
    ExceptT.lift <| Action.atomically fun s =>
      match s.client.artifacts.get? register with
      | some artifact => (some artifact, { s with world := s.world.retain artifact })
      | none => (none, s)
  | failing cause => throw cause
  | hooked ops inner => do
    ExceptT.lift (runHook run thread ops)
    inner.load run thread name

def HostPlan.instantiate (run : Runner) (thread : ThreadId) (image : Bytes) (parent : Resolver) :
    HostPlan Command → Attempt Registers Context
  | memory api => Context.memory <$> (Host.memory api).instantiate thread image parent
  | empty => pure .empty
  | fixed register => pure (.fixed register)
  | failingLoads cause => pure (.failing cause)
  | failing cause => throw cause
  | hookedInstantiate ops inner => do
    ExceptT.lift (runHook run thread ops)
    inner.instantiate run thread image parent
  | hookedLoad ops inner => Context.hooked ops <$> inner.instantiate run thread image parent

def HostPlan.toHost (run : Runner) (plan : HostPlan Command) : Host Registers Context where
  instantiate thread image parent := plan.instantiate run thread image parent
  load thread context name := context.load run thread name
  close context w := context.close w

def PlannedLoader.toLoader (run : Runner) (loader : PlannedLoader) :
    Loader (Packer Registers) (Host Registers Context) :=
  { loader with
    packer := loader.packer.toPacker run
    host := loader.host.toHost run }

/-- A loader put together from its plan, on the process-wide cache. -/
def LoaderPlan.create (plan : LoaderPlan Command) (w : World) : PlannedLoader × World :=
  match plan with
  | matching settings => Loader.createMatching .standard .memory settings w
  | plain packer host => Loader.create packer host {} w
  | custom settings packer host => Loader.create packer host settings w

end Reload.Session
