import Reload.Proofs.Concurrent.Pool
import Reload.Proofs.Definition.Memory

/-!
Definitions in memory beside others. Their packers, hosts and contexts may first do other things, as
far as the rules allow, before they do what they are for (`Call.Hosting`). What a packer gives at last
is a parameter (`Packs`): it may be what some settings pack, or anything. From the places of such a
definition it can be told what is under way: whether the marker stands, which context is loading, and
which artifact was loaded.
-/

namespace Reload

variable {ρ κ α : Type} {outside : World → World → Prop}

/-! ### Callbacks that do other things first -/

/-- What a callback of a definition can rely on: its thread is marked, and what caches have was
    created, as were the artifacts that it knows. -/
structure Call.Within (call : Call ρ κ) (since : Nat) (w : World) : Prop where
  created : since ≤ w.created
  marked : w.marker call.thread = some call.name
  grounded : w.Grounded

/-- A callback of a definition that does other things first, as the rules allow, and comes to its last
    program then, unless it panics before. It knows the artifacts that were created when it came this
    far. -/
inductive Call.Hooked (call : Call ρ κ) (outside : World → World → Prop)
    (last : Program (System ρ) (Except Panic α) → Prop) :
    Nat → Program (System ρ) (Except Panic α) → Prop where
  | last {since : Nat} {program : Program (System ρ) (Except Panic α)} (comes : last program) :
      call.Hooked outside last since program
  | panic {since : Nat} (panic : Panic) : call.Hooked outside last since (.done (.error panic))
  | step {since : Nat} {ready : System ρ → Bool} {act : System ρ → System ρ}
      {next : System ρ → Program (System ρ) (Except Panic α)}
      (allowed : ∀ s, call.Within since s.world → ready s → outside s.world (act s).world)
      (rest : ∀ s, call.Within since s.world → ready s →
        call.Hooked outside last (act s).world.created (next s)) :
      call.Hooked outside last since (.step ready act next)

namespace Call

variable {call : Call ρ κ} {since : Nat}

theorem Within.mono {now : Nat} {w : World} (within : call.Within now w) (later : since ≤ now) :
    call.Within since w :=
  ⟨Nat.le_trans later within.created, within.marked, within.grounded⟩

variable {last : Program (System ρ) (Except Panic α) → Prop}

theorem Hooked.mono {program : Program (System ρ) (Except Panic α)} {now : Nat}
    (hooked : call.Hooked outside last since program) (later : since ≤ now) :
    call.Hooked outside last now program := by
  cases hooked with
  | last comes => exact .last comes
  | panic panic => exact .panic panic
  | step allowed rest =>
    refine .step ?_ ?_
    · exact fun s within => allowed s (within.mono later)
    · exact fun s within => rest s (within.mono later)

/-- A turn of a callback is another thing that the rules allow, or the callback has come to its last
    program. -/
theorem Hooked.turn_or {turn : Turn (System ρ) (Program (System ρ) (Except Panic α))}
    {s : System ρ} (hooked : call.Hooked outside last s.world.created turn.program)
    (within : call.Within s.world.created s.world) (ready : turn.ready s) :
    (outside s.world (turn.act s).world ∧
      call.Hooked outside last (turn.act s).world.created (turn.next s)) ∨ last turn.program := by
  cases hooked with
  | last comes => exact .inr comes
  | step allowed rest => exact .inl ⟨allowed s within ready, rest s within ready⟩

/-- A turn of a callback that comes to a turn at last is another thing that the rules allow, or that
    turn itself. -/
theorem Hooked.turn {turn core : Turn (System ρ) (Program (System ρ) (Except Panic α))}
    {s : System ρ} (hooked : call.Hooked outside (· = core.program) s.world.created turn.program)
    (within : call.Within s.world.created s.world) (ready : turn.ready s) :
    (outside s.world (turn.act s).world ∧
      call.Hooked outside (· = core.program) (turn.act s).world.created (turn.next s)) ∨
        turn = core := by
  refine (hooked.turn_or within ready).imp_right fun comes => ?_
  cases turn
  cases core
  cases comes
  rfl

/-- A change that comes first. -/
theorem Hooked.changing {program : Program (System ρ) (Except Panic α)} {f : World → World}
    (hooked : call.Hooked outside last since program)
    (allowed : ∀ w, call.Within since w → outside w (f w))
    (created : ∀ w : World, w.created ≤ (f w).created) :
    call.Hooked outside last since (changing f program) := by
  refine .step ?_ ?_
  · exact fun s within _ => allowed s.world within
  · exact fun s within _ => hooked.mono (Nat.le_trans within.created (created s.world))

end Call

/-! ### Packers -/

/-- Which images a packer may give for the raw unit of a name. -/
abbrev Packs : Type := Name → Bytes → Bytes → Prop

namespace Packs

/-- Those that some settings pack. -/
def spelled : Packs := fun name raw image =>
  ∃ settings : Settings, settings.pack name raw = .ok image

/-- Any at all. -/
def any : Packs := fun _ _ _ => True

end Packs

/-- A packer of the definition has come to its end, without a panic. It gives one of these images, or
    refuses the unit for any cause. -/
inductive Call.Packed (packs : Packs) (call : Call ρ κ) :
    Program (System ρ) (Except Panic (Except Failure Bytes)) → Prop where
  | image {image : Bytes} (gives : packs call.name call.raw image) :
      call.Packed packs (.done (.ok (.ok image)))
  | refused (cause : Failure) : call.Packed packs (.done (.ok (.error cause)))

namespace Call

variable {packs : Packs} {call : Call ρ κ} {since : Nat}

/-- Settings pack what some settings pack. -/
theorem packed_of_settings (settings : Settings) :
    call.Packed .spelled (.done (.ok (settings.pack call.name call.raw))) := by
  cases packed : settings.pack call.name call.raw with
  | error cause => exact .refused cause
  | ok image => exact .image ⟨settings, packed⟩

/-- A turn of a packer is another thing that the rules allow. -/
theorem Hooked.turn_of_packed
    {turn : Turn (System ρ) (Program (System ρ) (Except Panic (Except Failure Bytes)))}
    {s : System ρ} (hooked : call.Hooked outside (call.Packed packs) s.world.created turn.program)
    (within : call.Within s.world.created s.world) (ready : turn.ready s) :
    outside s.world (turn.act s).world ∧
      call.Hooked outside (call.Packed packs) (turn.act s).world.created (turn.next s) := by
  rcases hooked.turn_or within ready with allowed | comes
  · exact allowed
  · cases comes

theorem Hooked.gives {image : Bytes}
    (hooked : call.Hooked outside (call.Packed packs) since (.done (.ok (.ok image)))) :
    packs call.name call.raw image := by
  cases hooked with
  | last comes =>
    cases comes with
    | image gives => exact gives

end Call

/-! ### Definitions in memory -/

/-- The step in which a host of this API level makes a context. -/
def MemoryContext.makes (api : UInt16) (image : Bytes) (parent : Resolver) :
    Turn (System ρ) (Program (System ρ) (Except Panic (Except Failure MemoryContext))) where
  ready _ := true
  act s := { s with world := (instantiate api image parent s.world).2 }
  next s := .done (.ok (instantiate api image parent s.world).1)

def MemoryContext.loads (context : MemoryContext) (thread : ThreadId) (name : Name) :
    Turn (System ρ) (Program (System ρ) (Except Panic (Except Failure (Option Artifact)))) where
  ready _ := true
  act s := { s with world := (context.load thread name s.world).2 }
  next s := .done (.ok ((context.load thread name s.world).1.map some))

/-- A definition whose host keeps units in memory, and whose packer gives such images. It began when
    this many artifacts had been created, those that its resolver holds among them. -/
structure Call.Hosting (outside : World → World → Prop) (packs : Packs) (since : Nat)
    (call : Call ρ MemoryContext) : Prop where
  ancestor : ∀ artifact ∈ call.loader.resolver.artifacts, artifact.serial ≤ since
  pack : call.Hooked outside (call.Packed packs) since
    (call.loader.packer.pack call.thread call.name call.raw).run.run
  instantiate : ∃ api, ∀ image, call.Hooked outside
    (· = (MemoryContext.makes api image call.loader.resolver).program) since
    (call.loader.host.instantiate call.thread image call.loader.resolver).run.run
  load : ∀ context, call.Hooked outside (· = (context.loads call.thread call.name).program) since
    (call.loader.host.load call.thread context call.name).run.run
  close : ∀ context w, call.loader.host.close context w = context.close w

/-- Such a definition whose packer gives what some settings pack. -/
abbrev Call.InMemory (outside : World → World → Prop) (since : Nat)
    (call : Call ρ MemoryContext) : Prop :=
  call.Hosting outside .spelled since

/-- Whether the host of a definition keeps units in memory. Its packer may be any. -/
def Call.InMemoryHost (call : Call ρ MemoryContext) : Prop :=
  ∃ api, call.loader.host = Host.memory api

theorem Call.Hosting.mono {packs : Packs} {since now : Nat} {call : Call ρ MemoryContext}
    (memory : call.Hosting outside packs since) (later : since ≤ now) :
    call.Hosting outside packs now where
  ancestor artifact held := Nat.le_trans (memory.ancestor artifact held) later
  pack := memory.pack.mono later
  instantiate := by
    obtain ⟨api, hooked⟩ := memory.instantiate
    exact ⟨api, fun image => (hooked image).mono later⟩
  load context := (memory.load context).mono later
  close := memory.close

theorem MemoryContext.host_load (api : UInt16) (context : MemoryContext) (thread : ThreadId)
    (name : Name) : ((Host.memory api : Host ρ MemoryContext).load thread context name).run.run =
      (context.loads thread name).program := by
  refine congrArg (Program.step _ _) (funext fun s => ?_)
  show Program.bind (.done (.ok (context.load thread name s.world).1)) (ExceptT.bindCont _) =
    .done (.ok ((context.load thread name s.world).1.map some))
  cases (context.load thread name s.world).1 <;> rfl

/-- A host in memory does nothing else first. -/
theorem Call.InMemoryHost.hosting {packs : Packs} {since : Nat} {call : Call ρ MemoryContext}
    (memory : call.InMemoryHost)
    (ancestor : ∀ artifact ∈ call.loader.resolver.artifacts, artifact.serial ≤ since)
    (pack : call.Hooked outside (call.Packed packs) since
      (call.loader.packer.pack call.thread call.name call.raw).run.run) :
    call.Hosting outside packs since := by
  obtain ⟨api, host⟩ := memory
  refine ⟨ancestor, pack, ⟨api, fun image => .last ?_⟩, fun context => .last ?_, fun _ _ => ?_⟩
  · rw [host]
    rfl
  · rw [host]
    exact MemoryContext.host_load api context call.thread call.name
  · rw [host]
    rfl

/-- Loaders in memory make such definitions, under any rules. -/
theorem Loader.inMemory_call (outside : World → World → Prop) {loader : Loader Settings UInt16}
    {since : Nat} (ancestor : ∀ artifact ∈ loader.resolver.artifacts, artifact.serial ≤ since)
    (thread : ThreadId) (name : Name) (raw : Bytes) :
    (loader.call thread name raw : Call ρ MemoryContext).InMemory outside since := by
  have memory : (loader.call thread name raw : Call ρ MemoryContext).InMemoryHost :=
    ⟨loader.host, rfl⟩
  exact memory.hosting ancestor (.last (Call.packed_of_settings loader.packer))

/-! ### Contexts of a definition -/

/-- A context made of an image that the definition's packer may give, whose parent is the resolver of
    the loader. -/
structure Call.Seeded (packs : Packs) (call : Call ρ MemoryContext) (context : MemoryContext) :
    Prop where
  parent : context.parent = call.loader.resolver
  image : ∃ image decoded, packs call.name call.raw image ∧ Image.decode image = .ok decoded ∧
    context.body = decoded.body

theorem Call.seeded_of_instantiate {packs : Packs} {call : Call ρ MemoryContext} {api : UInt16}
    {image : Bytes} {w w' : World} {context : MemoryContext}
    (gives : packs call.name call.raw image)
    (made : MemoryContext.instantiate api image call.loader.resolver w = (.ok context, w')) :
    call.Seeded packs context := by
  obtain ⟨parent, -, -⟩ := MemoryContext.instantiate_eq made
  obtain ⟨decoded, spells, -, body, -⟩ := MemoryContext.image_of_instantiate made
  exact ⟨parent, image, decoded, gives, spells, body⟩

/-! ### What is under way at a place -/

def Result.artifact? : Result → Option Artifact
  | .ok (.ok (artifact, _)) => some artifact
  | _ => none

@[simp] theorem Result.artifact?_ending (name : Name) (result : Result) :
    Ending.artifact? (result.ending name) = Result.artifact? result := by
  rcases result with panic | cause | ⟨artifact, swept⟩ <;> rfl

namespace Place

def context? : Place ρ MemoryContext → Option MemoryContext
  | .inside _ (.load context _) => some context
  | _ => none

def artifact? : Place ρ MemoryContext → Option Artifact
  | .inside _ (.publish _ artifact) => some artifact
  | .inside _ (.close _ result) | .inside _ (.unmark result) => Result.artifact? result
  | .inside _ (.report _ _ ending) | .unlock _ ending | .drop _ ending | .ended ending =>
    Ending.artifact? ending
  | _ => none

/-- The ending of a definition that has taken its notes. -/
def ending? : Place ρ κ → Option Ending
  | .unlock _ ending | .drop _ ending | .ended ending => some ending
  | .check | .take | .wait _ | .inside _ _ => none

/-- What is left of the callback that a definition in memory is in. -/
def Hooked (outside : World → World → Prop) (packs : Packs) (call : Call ρ MemoryContext)
    (since : Nat) : Place ρ MemoryContext → Prop
  | .inside _ (.pack turn) => call.Hooked outside (call.Packed packs) since turn.program
  | .inside _ (.instantiate turn) => ∃ image api, packs call.name call.raw image ∧
    call.Hooked outside (· = (MemoryContext.makes api image call.loader.resolver).program) since
      turn.program
  | .inside _ (.load context turn) => call.Seeded packs context ∧
    call.Hooked outside (· = (context.loads call.thread call.name).program) since turn.program
  | _ => True

theorem Hooked.mono {packs : Packs} {call : Call ρ MemoryContext} {since now : Nat}
    {place : Place ρ MemoryContext} (hooked : place.Hooked outside packs call since)
    (later : since ≤ now) : place.Hooked outside packs call now := by
  cases place with
  | inside lock stage =>
    cases stage with
    | pack turn => exact Call.Hooked.mono hooked later
    | instantiate turn =>
      obtain ⟨image, api, gives, hooked⟩ := hooked
      exact ⟨image, api, gives, hooked.mono later⟩
    | load context turn => exact ⟨hooked.1, hooked.2.mono later⟩
    | mark | forget | note | publish | close | unmark | report => trivial
  | check | take | wait | unlock | drop | ended => trivial

end Place

/-- A place under the marker that a definition comes to without an artifact, and with one of these
    contexts at most. -/
structure Place.Under (outside : World → World → Prop) (packs : Packs)
    (call : Call ρ MemoryContext) (since : Nat) (contexts : MemoryContext → Prop)
    (place : Place ρ MemoryContext) : Prop where
  marked : place.marked = true
  artifact : place.artifact? = none
  context : ∀ context, place.context? = some context → contexts context
  hooked : place.Hooked outside packs call since

/-- A place past the marker, with the artifact that was loaded, if any. -/
structure Place.Past (outside : World → World → Prop) (packs : Packs)
    (call : Call ρ MemoryContext) (since : Nat) (artifact : Option Artifact)
    (place : Place ρ MemoryContext) : Prop where
  marked : place.marked = false
  artifact : place.artifact? = artifact
  context : place.context? = none
  hooked : place.Hooked outside packs call since

namespace Call

variable {packs : Packs} {call : Call ρ MemoryContext} {lock : Option LockId} {since : Nat}

theorem past_atReporting (ending : Ending) (notes : List Note) :
    (atReporting lock ending notes).Past outside packs call since ending.artifact? := by
  cases notes with
  | nil => cases lock <;> exact ⟨rfl, rfl, rfl, trivial⟩
  | cons first others => exact ⟨rfl, rfl, rfl, trivial⟩

theorem past_atReport (result : Result) :
    (call.atReport lock result).Past outside packs call since result.artifact? := by
  rw [← Result.artifact?_ending call.name]
  exact past_atReporting _ _

theorem under_atLoading {context : MemoryContext} (seeded : call.Seeded packs context)
    {program : Program (System ρ) (Except Panic (Except Failure (Option Artifact)))}
    (hooked : call.Hooked outside (· = (context.loads call.thread call.name).program) since
      program) :
    (atLoading lock context program).Under outside packs call since (· = context) := by
  cases program with
  | done loaded =>
    cases hooked with
    | last comes => cases comes
    | panic panic => exact ⟨rfl, rfl, nofun, trivial⟩
  | step ready act next =>
    refine ⟨rfl, rfl, ?_, seeded, hooked⟩
    rintro _ ⟨⟩
    rfl

theorem under_atInstantiated (memory : call.Hosting outside packs since)
    {instantiated : Except Panic (Except Failure MemoryContext)}
    (seeded : ∀ context, instantiated = .ok (.ok context) → call.Seeded packs context) :
    (call.atInstantiated lock instantiated).Under outside packs call since
      fun context => instantiated = .ok (.ok context) := by
  rcases instantiated with panic | cause | context
  · exact ⟨rfl, rfl, nofun, trivial⟩
  · exact ⟨rfl, rfl, nofun, trivial⟩
  · have under : (call.atInstantiated lock (.ok (.ok context))).Under outside packs call since
        (· = context) := under_atLoading (seeded context rfl) (memory.load context)
    exact ⟨under.marked, under.artifact, fun _ found => by rw [under.context _ found], under.hooked⟩

theorem under_makes (memory : call.Hosting outside packs since) {image : Bytes}
    (gives : packs call.name call.raw image) (api : UInt16) (w : World) :
    (call.atInstantiated lock
      (.ok (MemoryContext.instantiate api image call.loader.resolver w).1)).Under outside packs call
      since fun context =>
        (MemoryContext.instantiate api image call.loader.resolver w).1 = .ok context := by
  have under : (call.atInstantiated lock (.ok (MemoryContext.instantiate api image
      call.loader.resolver w).1)).Under outside packs call since _ :=
    under_atInstantiated memory fun context ended =>
      seeded_of_instantiate gives (Prod.ext (Except.ok.inj ended) rfl)
  exact ⟨under.marked, under.artifact,
    fun context loading => Except.ok.inj (under.context context loading), under.hooked⟩

theorem under_atInstantiating {image : Bytes} {api : UInt16}
    (gives : packs call.name call.raw image)
    {program : Program (System ρ) (Except Panic (Except Failure MemoryContext))}
    (hooked : call.Hooked outside
      (· = (MemoryContext.makes api image call.loader.resolver).program) since program) :
    (call.atInstantiating lock program).Under outside packs call since fun _ => False := by
  cases program with
  | done instantiated =>
    cases hooked with
    | last comes => cases comes
    | panic panic => exact ⟨rfl, rfl, nofun, trivial⟩
  | step ready act next => exact ⟨rfl, rfl, nofun, image, api, gives, hooked⟩

theorem under_atPacked (memory : call.Hosting outside packs since)
    {packed : Except Panic (Except Failure Bytes)}
    (gives : ∀ image, packed = .ok (.ok image) → packs call.name call.raw image) :
    (call.atPacked lock packed).Under outside packs call since fun _ => False := by
  rcases packed with panic | cause | image
  · exact ⟨rfl, rfl, nofun, trivial⟩
  · exact ⟨rfl, rfl, nofun, trivial⟩
  · obtain ⟨api, hooked⟩ := memory.instantiate
    exact under_atInstantiating (gives image rfl) (hooked image)

theorem under_atPacking (memory : call.Hosting outside packs since)
    {program : Program (System ρ) (Except Panic (Except Failure Bytes))}
    (hooked : call.Hooked outside (call.Packed packs) since program) :
    (call.atPacking lock program).Under outside packs call since fun _ => False := by
  cases program with
  | done packed =>
    refine under_atPacked memory fun image ended => ?_
    subst ended
    exact hooked.gives
  | step ready act next => exact ⟨rfl, rfl, nofun, hooked⟩

theorem under_atNoting (memory : call.Hosting outside packs since) (notes : List Note) :
    (call.atNoting lock notes).Under outside packs call since fun _ => False := by
  cases notes with
  | nil => exact under_atPacking memory memory.pack
  | cons first others => exact ⟨rfl, rfl, nofun, trivial⟩

end Call

end Reload
