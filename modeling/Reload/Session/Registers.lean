import Reload.Session.Command

/-!
The registers of a session. Scopes and contexts belong to the thread that made them; all other
registers are shared. A register holds its value: a value that is replaced or dropped gives up
what it held.
-/

namespace Reload.Session

/-- An execution context of a host that was put together from a plan. -/
inductive Context where
  | memory (context : MemoryContext)
  | empty
  | fixed (artifact : Register)
  | failing (cause : Failure)
  /-- Runs the commands before each load. -/
  | hooked (ops : List Command) (inner : Context)

def Context.retain : Context → World → World
  | memory context, w => context.retain w
  | empty, w | fixed _, w | failing _, w => w
  | hooked _ inner, w => inner.retain w

def Context.close : Context → World → World
  | memory context, w => context.close w
  | empty, w | fixed _, w | failing _, w => w
  | hooked _ inner, w => inner.close w

def Context.describe : Context → World → String
  | memory context, w => context.describe w
  | empty, _ | fixed _, _ | failing _, _ => "double"
  | hooked _ inner, w => inner.describe w

/-- A resolver, and whether it was taken from a loader. -/
structure ResolverEntry where
  resolver : Resolver
  ofLoader : Bool

/-- A loader as it was planned. -/
abbrev PlannedLoader := Loader (PackerPlan Command) (HostPlan Command)

/-- The registers of a session, by kind. -/
structure Registers where
  artifacts : Table Register Artifact := .empty
  weak : Table Register Artifact := .empty
  /-- The process-wide cache is in the register `global` from the start. -/
  caches : Table Register CacheId := Table.empty.insert "global" .processWide
  resolvers : Table Register ResolverEntry := .empty
  loaders : Table Register PlannedLoader := .empty
  counters : Table Register CountersId := .empty
  lockSets : Table Register LockSetId := .empty
  locks : Table Register LockId := .empty
  scopes : ThreadId → Table Register Name := fun _ => .empty
  contexts : ThreadId → Table Register Context := fun _ => .empty
  /-- For each running definition, instantiation and load, the innermost first: the answers of the
      hooks that ran to their end in it. -/
  hooks : List (List (List Answer)) := []
  /-- How many events of the journal have been told. -/
  reported : Nat := 0

/-- A kind of registers: its table, and what it means to drop a value. -/
structure Kind (α : Type) where
  table : Registers → Table Register α
  update : Registers → Table Register α → Registers
  release : α → World → World

namespace Kind

/-- Artifacts, each held by its register. -/
def artifacts : Kind Artifact :=
  ⟨(·.artifacts), fun r table => { r with artifacts := table }, fun a w => w.release a⟩

/-- Artifacts that their registers do not hold. -/
def weak : Kind Artifact := ⟨(·.weak), fun r table => { r with weak := table }, fun _ w => w⟩

def caches : Kind CacheId := ⟨(·.caches), fun r table => { r with caches := table }, fun _ w => w⟩

/-- Resolvers. A register holds the artifacts that its resolver holds. -/
def resolvers : Kind ResolverEntry :=
  ⟨(·.resolvers), fun r table => { r with resolvers := table },
    fun entry w => entry.resolver.release w⟩

/-- Loaders. A register holds what the ancestor of its loader holds. -/
def loaders : Kind PlannedLoader :=
  ⟨(·.loaders), fun r table => { r with loaders := table }, fun loader w => loader.release w⟩

def counters : Kind CountersId :=
  ⟨(·.counters), fun r table => { r with counters := table }, fun _ w => w⟩

def lockSets : Kind LockSetId :=
  ⟨(·.lockSets), fun r table => { r with lockSets := table }, fun _ w => w⟩

/-- Definition locks. A register is a handle to its lock. -/
def locks : Kind LockId :=
  ⟨(·.locks), fun r table => { r with locks := table }, fun lock w => w.dropHandle lock⟩

/-- The scopes of one thread. A scope that is dropped clears the marker of its thread. -/
def scopes (thread : ThreadId) : Kind Name :=
  ⟨fun r => r.scopes thread, fun r table => { r with scopes := replace r.scopes thread table },
    fun _ w => w.unmark thread⟩

def contexts (thread : ThreadId) : Kind Context :=
  ⟨fun r => r.contexts thread,
    fun r table => { r with contexts := replace r.contexts thread table },
    fun context w => context.close w⟩

/-- Puts a value into a register. The value that was there is dropped. -/
def put {α : Type} (kind : Kind α) (register : Register) (value : α) (s : System Registers) :
    System Registers :=
  let table := kind.table s.client
  let client := kind.update s.client (table.insert register value)
  match table.get? register with
  | some old => { world := kind.release old s.world, client }
  | none => { world := s.world, client }

/-- Keeps a result in a register, or drops it if there is none to keep it in. -/
def keep {α : Type} (kind : Kind α) (into : Option Register) (value : α)
    (s : System Registers) : System Registers :=
  match into with
  | some register => kind.put register value s
  | none => { s with world := kind.release value s.world }

/-- Empties a register, and tells whether there was a value in it. -/
def drop {α : Type} (kind : Kind α) (register : Register) (s : System Registers) :
    Bool × System Registers :=
  let table := kind.table s.client
  match table.get? register with
  | some old =>
    (true, { world := kind.release old s.world,
             client := kind.update s.client (table.erase register) })
  | none => (false, s)

def dropAll {α : Type} (kind : Kind α) (s : System Registers) : System Registers :=
  { world := (kind.table s.client).values.foldl (fun w value => kind.release value w) s.world,
    client := kind.update s.client .empty }

end Kind

end Reload.Session
