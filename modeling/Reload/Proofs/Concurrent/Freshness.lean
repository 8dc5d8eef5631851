import Reload.Proofs.Concurrent.Sound
import Reload.Proofs.Definition.Whole

/-!
A definition in memory gives its own artifact. Whatever other definitions and other parties do between
its steps, the artifact was created by a step of the definition itself, and published by another, after
which the cache had it under the name (`define_fresh`).
-/

namespace Reload

variable {ρ : Type}

/-- Ids are in the order of creation as long as 64 bits suffice. -/
theorem Artifact.id_lt_id {first second : Artifact} (earlier : first.serial < second.serial)
    (bounded : second.serial < 2 ^ 64) : first.id < second.id := by
  rw [id, id, UInt64.lt_iff_toNat_lt, UInt64.toNat_ofNat', UInt64.toNat_ofNat']
  omega

def Place.published? : Place ρ MemoryContext → Option Artifact
  | .inside _ (.publish ..) => none
  | place => place.artifact?

theorem Place.published_or {place : Place ρ MemoryContext} {artifact : Artifact}
    (loaded : place.artifact? = some artifact) : place.published? = some artifact ∨
      ∃ lock context, place = .inside lock (.publish context artifact) := by
  unfold published?
  split
  · next lock context found =>
    obtain rfl := Option.some.inj loaded
    exact .inr ⟨lock, context, rfl⟩
  · exact .inl loaded

theorem Place.artifact_of_published {place : Place ρ MemoryContext} {artifact : Artifact}
    (published : place.published? = some artifact) : place.artifact? = some artifact := by
  unfold published? at published
  split at published
  · cases published
  · exact published

theorem Place.Past.published {outside : World → World → Prop} {packs : Packs}
    {call : Call ρ MemoryContext} {since : Nat} {loaded : Option Artifact}
    {place : Place ρ MemoryContext} (past : place.Past outside packs call since loaded)
    {artifact : Artifact} (found : place.artifact? = some artifact) :
    place.published? = some artifact := by
  rcases published_or found with published | ⟨lock, context, rfl⟩
  · exact published
  · cases past.marked

namespace Pool

variable {rules : Rules ρ MemoryContext} {packs : Packs} {pool pool' : Pool ρ MemoryContext}
  {index : Nat} {running : Running ρ MemoryContext}

/-! ### Where an artifact comes from -/

private theorem loaded_inside (memory : rules.Hosting packs) (sound : pool.Sound rules.outside packs)
    (here : pool.calls index = some running) {lock : Option LockId} {stage : Stage ρ MemoryContext}
    (place : running.place = .inside lock stage)
    (ready : (running.call.advanceStage lock stage).ready pool.system) {artifact : Artifact}
    (loaded : ((running.call.advanceStage lock stage).next pool.system).artifact? =
      some artifact) :
    running.place.artifact? = some artifact ∧
        ((running.call.advanceStage lock stage).next pool.system).published? = some artifact ∨
      artifact.serial = pool.world.created + 1 ∧
        ((running.call.advanceStage lock stage).act pool.system).world.created = artifact.serial ∧
        ((running.call.advanceStage lock stage).next pool.system).published? = none := by
  have before := sound.calls index running here
  have hooked := before.hooked
  rw [place] at hooked
  have absent : ∀ {now : Nat} {contexts : MemoryContext → Prop} {next : Place ρ MemoryContext},
      next.Under rules.outside packs running.call now contexts → next.artifact? = some artifact → False :=
    fun under loaded => absurd (under.artifact.symm.trans loaded) (by simp)
  cases stage with
  | mark =>
    simp only [Call.advanceStage] at loaded
    split at loaded
    · next name _ =>
      have past : (running.call.atReport lock (.ok (.error (.inFlight name)))).Past rules.outside packs
          running.call pool.world.created none := Call.past_atReport (.ok (.error (.inFlight name)))
      exact absurd (past.artifact.symm.trans loaded) (by simp)
    · cases loaded
  | forget => exact (absent (Call.under_atNoting before.memory _) loaded).elim
  | note first others => exact (absent (Call.under_atNoting before.memory _) loaded).elim
  | pack turn =>
    have within := sound.within here (by rw [place]; rfl)
    obtain ⟨allowed, rest⟩ := Call.Hooked.turn_of_packed hooked within ready
    have created := (memory.outside _ _ allowed).created
    have memory' := before.memory.mono (Nat.le_trans before.since created)
    exact (absent (Call.under_atPacking memory' rest) loaded).elim
  | instantiate turn =>
    obtain ⟨image, api, gives, hooked⟩ := hooked
    have within := sound.within here (by rw [place]; rfl)
    rcases hooked.turn within ready with ⟨-, rest⟩ | rfl
    · exact (absent (Call.under_atInstantiating gives rest) loaded).elim
    · exact (absent (Call.under_makes before.memory gives api pool.world) loaded).elim
  | load context turn =>
    obtain ⟨seeded, hooked⟩ := hooked
    have within := sound.within here (by rw [place]; rfl)
    rcases hooked.turn within ready with ⟨-, rest⟩ | rfl
    · exact (absent (Call.under_atLoading seeded rest) loaded).elim
    · have marker := before.marked (by rw [place]; rfl)
      obtain ⟨unbuilt, made⟩ := before.context context (by rw [place]; rfl)
      obtain ⟨-, given, -⟩ := MemoryContext.load_marked [] seeded.parent marker unbuilt made
      simp only [Call.advanceStage, MemoryContext.loads, Call.atLoading] at loaded ⊢
      cases load : (context.load running.call.thread running.call.name pool.system.world).1 with
      | error cause =>
        rw [load] at loaded
        cases loaded
      | ok found =>
        rw [load] at loaded
        cases loaded
        obtain ⟨-, rfl, created⟩ := given _ load
        exact .inr ⟨rfl, created, rfl⟩
  | publish context found => exact .inl ⟨by rw [place]; exact loaded, loaded⟩
  | close context result => exact .inl ⟨by rw [place]; exact loaded, loaded⟩
  | unmark result =>
    have past : (running.call.atReport lock result).Past rules.outside packs running.call
        pool.world.created result.artifact? := Call.past_atReport result
    exact .inl ⟨by rw [place]; exact past.artifact.symm.trans loaded, past.published loaded⟩
  | report first others ending =>
    have past : (Call.atReporting lock ending others).Past rules.outside packs running.call
        pool.world.created ending.artifact? := Call.past_atReporting ending others
    exact .inl ⟨by rw [place]; exact past.artifact.symm.trans loaded, past.published loaded⟩

/-- After a step, a definition has the artifact that it had, which is published by then, or one that
    the step created. -/
theorem Sound.loaded (memory : rules.Hosting packs) (sound : pool.Sound rules.outside packs)
    (here : pool.calls index = some running)
    {turn : Turn (System ρ) (Place ρ MemoryContext)}
    (advances : running.call.advance running.place = some turn) (ready : turn.ready pool.system)
    {artifact : Artifact} (loaded : (turn.next pool.system).artifact? = some artifact) :
    running.place.artifact? = some artifact ∧
        (turn.next pool.system).published? = some artifact ∨
      artifact.serial = pool.world.created + 1 ∧
        (turn.act pool.system).world.created = artifact.serial ∧
        (turn.next pool.system).published? = none := by
  cases place : running.place with
  | check =>
    rw [place] at advances
    cases advances
    simp only [] at loaded
    split at loaded
    · next name _ =>
      have past : (running.call.atReport none (.ok (.error (.inFlight name)))).Past rules.outside packs
          running.call pool.world.created none := Call.past_atReport (.ok (.error (.inFlight name)))
      exact absurd (past.artifact.symm.trans loaded) (by simp)
    · split at loaded <;> cases loaded
  | take =>
    rw [place] at advances
    cases advances
    cases loaded
  | wait lock =>
    rw [place] at advances
    cases advances
    cases loaded
  | inside lock stage =>
    rw [place] at advances
    cases advances
    rw [← place]
    exact loaded_inside memory sound here place ready loaded
  | unlock lock ending =>
    rw [place] at advances
    cases advances
    exact .inl ⟨loaded, loaded⟩
  | drop lock ending =>
    rw [place] at advances
    cases advances
    exact .inl ⟨loaded, loaded⟩
  | ended ending =>
    rw [place] at advances
    cases advances

theorem entry_of_publish {turn : Turn (System ρ) (Place ρ MemoryContext)} {lock : Option LockId}
    {context : MemoryContext} {artifact : Artifact}
    (place : running.place = .inside lock (.publish context artifact))
    (advances : running.call.advance running.place = some turn) (s : System ρ) :
    ((turn.act s).world.entries running.call.loader.cache).get? running.call.name =
      some artifact := by
  rw [place] at advances
  cases advances
  simp [Call.advanceStage, World.publish]

/-! ### The steps of a run -/

/-- The step in which a definition created its artifact. -/
structure Creates (index : Nat) (since : Nat) (artifact : Artifact)
    (move : Move ρ MemoryContext) : Prop where
  own : move.index = index
  since : since ≤ move.before.created
  next : artifact.serial = move.before.created + 1
  created : move.after.created = artifact.serial
  grounded : move.before.Grounded

/-- The step in which a definition published its artifact. -/
structure Publishes (index : Nat) (call : Call ρ MemoryContext) (artifact : Artifact)
    (move : Move ρ MemoryContext) : Prop where
  own : move.index = index
  place : ∃ lock context, move.running.place = .inside lock (.publish context artifact)
  entry : (move.after.entries call.loader.cache).get? call.name = some artifact

structure Traced (trace : List (Move ρ MemoryContext)) (pool : Pool ρ MemoryContext) : Prop where
  created : ∀ index running artifact, pool.calls index = some running →
    running.place.artifact? = some artifact →
    ∃ move ∈ trace, Creates index running.since artifact move
  published : ∀ index running artifact, pool.calls index = some running →
    running.place.published? = some artifact →
    ∃ move ∈ trace, Publishes index running.call artifact move

theorem Traced.step {trace : List (Move ρ MemoryContext)} (traced : pool.Traced trace)
    (memory : rules.Hosting packs) (sound : pool.Sound rules.outside packs)
    {move : Option (Move ρ MemoryContext)} (next : Step rules pool move pool') :
    pool'.Traced (move.toList ++ trace) := by
  cases next with
  | begin unused allowed =>
    constructor
    · intro other found artifact there loaded
      rcases calls_put there with ⟨-, rfl⟩ | ⟨-, before⟩
      · cases loaded
      · exact traced.created other found artifact before loaded
    · intro other found artifact there published
      rcases calls_put there with ⟨-, rfl⟩ | ⟨-, before⟩
      · cases published
      · exact traced.published other found artifact before published
  | outside allowed => exact ⟨traced.created, traced.published⟩
  | @advance index running turn here advances ready =>
    constructor
    · intro other found artifact there loaded
      rcases calls_put there with ⟨rfl, rfl⟩ | ⟨-, before⟩
      · rcases sound.loaded memory here advances ready loaded with ⟨old, -⟩ | ⟨serial, created, -⟩
        · obtain ⟨move, listed, creates⟩ := traced.created other running artifact here old
          exact ⟨move, List.mem_cons_of_mem _ listed, creates⟩
        · exact ⟨_, List.mem_cons_self,
            ⟨rfl, (sound.calls other running here).since, serial, created, sound.grounded⟩⟩
      · obtain ⟨move, listed, creates⟩ := traced.created other found artifact before loaded
        exact ⟨move, List.mem_cons_of_mem _ listed, creates⟩
    · intro other found artifact there published
      rcases calls_put there with ⟨rfl, rfl⟩ | ⟨-, before⟩
      · have loaded := Place.artifact_of_published published
        rcases sound.loaded memory here advances ready loaded with ⟨old, -⟩ | ⟨-, -, unpublished⟩
        · rcases Place.published_or old with before | ⟨lock, context, place⟩
          · obtain ⟨move, listed, publishes⟩ := traced.published other running artifact here before
            exact ⟨move, List.mem_cons_of_mem _ listed, publishes⟩
          · exact ⟨_, List.mem_cons_self, ⟨rfl, ⟨lock, context, place⟩,
              entry_of_publish place advances pool.system⟩⟩
        · exact absurd (unpublished.symm.trans published) (by simp)
      · obtain ⟨move, listed, publishes⟩ := traced.published other found artifact before published
        exact ⟨move, List.mem_cons_of_mem _ listed, publishes⟩

theorem Run.traced (memory : rules.Hosting packs) {start : System ρ} (fresh : start.world.FreshContexts)
    (grounded : start.world.Grounded) {trace : List (Move ρ MemoryContext)}
    (run : Run rules start trace pool) : pool.Traced trace := by
  induction run with
  | start =>
    constructor
    · intro _ _ _ here
      cases here
    · intro _ _ _ here
      cases here
  | step before next ih => exact ih.step memory (before.sound memory fresh grounded) next

/-- A definition that nothing comes in between succeeds, if its unit can be packed and the host has the
    level that the images need. -/
theorem Run.succeeds {start : System ρ} {trace : List (Move ρ MemoryContext)} {since : Nat}
    {loader : Loader Settings UInt16} {thread : ThreadId} {name : Name} {raw image : Bytes}
    (before : Run rules start trace pool)
    (here : pool.calls index = some ⟨loader.call thread name raw, .check, since⟩)
    (unmarked : pool.world.marker thread = none)
    (free : pool.world.FreeLocks loader.cache.locks) (fresh : pool.world.FreshContexts)
    (packed : loader.packer.pack name raw = .ok image)
    (level : loader.packer.minHostApi ≤ loader.host)
    (ancestors : ∀ artifact ∈ loader.resolver.artifacts, artifact.serial ≤ pool.world.created) :
    ∃ moves artifact system, (∀ move ∈ moves, move.index = index) ∧
      Run rules start (moves ++ trace) (pool.put index
        ⟨loader.call thread name raw, .ended (.ok (.ok artifact)), since⟩ system) ∧
      system.world.alive artifact ∧ system.world.created = pool.world.created + 1 ∧
      loader.Defined pool.system (.ok (.ok artifact)) system.world := by
  obtain ⟨artifact, system, ran, live, created, defined⟩ :=
    loader.define_succeeds thread name raw unmarked free fresh packed level ancestors
  have spelled := (loader.call thread name raw : Call ρ MemoryContext).define_eq_checking
  obtain ⟨moves, own, run⟩ := before.alone here
    ((congrArg (Program.run · pool.system) spelled).symm.trans ran)
  exact ⟨moves, artifact, system, own, run, live, created, defined⟩

/-! ### The artifact of a definition -/

/-- What holds of an artifact that a definition has given. -/
structure Given (trace : List (Move ρ MemoryContext)) (pool : Pool ρ MemoryContext) (index : Nat)
    (running : Running ρ MemoryContext) (artifact : Artifact) : Prop where
  made : running.call.Made running.since pool.world artifact
  /-- Its id is above all ids that had been given when the definition began. -/
  id : pool.world.created < 2 ^ 64 → ∀ old : Artifact, old.serial ≤ running.since →
    old.id < artifact.id
  /-- When it was created, no cache had it. -/
  created : ∃ move ∈ trace, Creates index running.since artifact move ∧
    ∀ cache name old, (move.before.entries cache).get? name = some old →
      old.serial < artifact.serial
  ancestor : ∀ old ∈ running.call.loader.resolver.artifacts, old.serial < artifact.serial
  /-- No other definition has it. -/
  alone : ∀ other found theirs, other ≠ index → pool.calls other = some found →
    found.place.artifact? = some theirs → theirs.serial ≠ artifact.serial
  published : ∃ move ∈ trace, Publishes index running.call artifact move

/-- A definition in memory that ends with an artifact has created it and published it, whatever
    happens beside it. -/
theorem define_fresh (memory : rules.Memory) {start : System ρ}
    (fresh : start.world.FreshContexts) (grounded : start.world.Grounded)
    {trace : List (Move ρ MemoryContext)} (run : Run rules start trace pool)
    (here : pool.calls index = some running) {artifact : Artifact}
    (ended : running.place = .ended (.ok (.ok artifact))) :
    Given trace pool index running artifact := by
  have sound := run.sound memory fresh grounded
  have traced := run.traced memory fresh grounded
  have loaded : running.place.artifact? = some artifact := by rw [ended]; rfl
  have published : running.place.published? = some artifact := by rw [ended]; rfl
  have made := ((sound.calls index running here).artifact artifact loaded).made
  obtain ⟨move, listed, creates⟩ := traced.created index running artifact here loaded
  constructor
  · exact made
  · intro bounded old before
    have later := made.later
    have created := made.created
    exact Artifact.id_lt_id (by omega) (by omega)
  · refine ⟨move, listed, creates, fun cache name old entry => ?_⟩
    have before := creates.grounded cache name old entry
    have next := creates.next
    omega
  · intro old held
    have before := (sound.calls index running here).memory.ancestor old held
    have later := made.later
    omega
  · intro other found theirs different there loadedThere same
    exact different (sound.artifacts other index found running theirs artifact there here
      loadedThere loaded same)
  · exact traced.published index running artifact here published

theorem define_fresh_interrupted :
    let unit : Artifact := ⟨1, ⟨"a", by decide⟩, 0, .nothing⟩
    let raw : Bytes := [0x48, 0x53, 0x55, 0x31, 0, 0, 7]
    let call (thread : Nat) : Call Unit MemoryContext :=
      (Loader.linkedBehind unit).call ⟨thread⟩ unit.name raw
    let rules : Rules Unit MemoryContext :=
      { begins := fun call w => call.InMemory World.Foreign w.created, outside := World.Foreign }
    ∃ trace pool artifact theirs,
      Run rules ⟨{ created := 1, held := [1] }, ()⟩ trace pool ∧
        pool.calls 1 = some ⟨call 1, .ended (.ok (.ok theirs)), 1⟩ ∧
        pool.calls 0 = some ⟨call 0, .ended (.ok (.ok artifact)), 1⟩ ∧
        Given trace pool 0 ⟨call 0, .ended (.ok (.ok artifact)), 1⟩ artifact := by
  intro unit raw call rules
  have memory : rules.Memory := ⟨fun _ _ allowed => allowed, fun _ _ foreign => foreign⟩
  obtain ⟨image, packed⟩ : ∃ image, (Loader.linkedBehind unit).packer.pack unit.name raw =
      .ok image :=
    Settings.exists_pack ⟨"", [7]⟩ rfl (by decide) nofun (by decide) (by decide)
  have ancestors : ∀ artifact ∈ (Loader.linkedBehind unit).resolver.artifacts,
      artifact.serial ≤ 1 := Loader.linkedBehind_ancestors unit
  let w : World := { created := 1, held := [1] }
  let s : System Unit := ⟨((Loader.linkedBehind unit).resolve ⟨1⟩ unit.name w).2, ()⟩
  let begun (thread : Nat) : Running Unit MemoryContext := ⟨call thread, .check, 1⟩
  have run₀ : Run rules ⟨w, ()⟩ [] (Pool.put ⟨⟨w, ()⟩, fun _ => none⟩ 0 (begun 0) ⟨w, ()⟩) :=
    .step .start (.begin rfl (Loader.inMemory_call _ ancestors _ _ _))
  -- A thread resolves the name, and then defines it, before the definition that has begun goes on.
  have foreign : rules.outside w s.world := Resolver.foreign_resolve _ _ _ _
  have run₁ : Run rules ⟨w, ()⟩ [] (Pool.put ⟨⟨w, ()⟩, fun _ => none⟩ 0 (begun 0) s) :=
    .step run₀ (.outside foreign)
  have run₂ : Run rules ⟨w, ()⟩ []
      ((Pool.put ⟨⟨w, ()⟩, fun _ => none⟩ 0 (begun 0) s).put 1 (begun 1) s) :=
    .step run₁ (.begin rfl (Loader.inMemory_call _ ancestors _ _ _))
  have free : s.world.FreeLocks (Loader.linkedBehind unit).cache.locks := by
    refine ⟨fun name lock tabled => ?_, fun _ _ => rfl⟩
    cases tabled
  obtain ⟨_, theirs, s₁, -, run₃, -, -, defined⟩ := run₂.succeeds (replace_self ..) rfl free
    (fun _ _ => rfl) packed (by decide) ancestors
  have here : (((Pool.put ⟨⟨w, ()⟩, fun _ => none⟩ 0 (begun 0) s).put 1 (begun 1) s).put 1
    ⟨call 1, .ended (.ok (.ok theirs)), 1⟩ s₁).calls 0 = some (begun 0) := rfl
  obtain ⟨_, artifact, s₂, -, run₄, -⟩ := run₃.succeeds here (congrFun defined.marker _)
    defined.locks (defined.quiet.fresh fun _ _ => rfl) packed (by decide)
    fun artifact held => Nat.le_trans (ancestors artifact held) defined.quiet.created
  exact ⟨_, _, artifact, theirs, run₄, rfl, rfl,
    define_fresh memory (fun _ _ => rfl) (fun _ _ _ entry => by cases entry) run₄ rfl rfl⟩

end Pool

end Reload
