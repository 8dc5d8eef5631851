import Reload.Proofs.Concurrent.Hooked

/-!
What definitions in memory rely on when they run beside others. The marker stands while a definition is
at work, and no other definition clears it; a context that is loading is the definition's own, and has
built nothing; an artifact that was loaded is a new one, of the definition's own name and with the body
of an image that its packer may give, and no other definition has it (`Run.sound`).
-/

namespace Reload

variable {ρ κ κ' α : Type}

/-- A change by whoever has no part in the definitions that are running: no marker is cleared, the
    contexts that were made stay as they are, and what caches have was created. -/
structure World.Foreign (w w' : World) : Prop where
  created : w.created ≤ w'.created
  nextContext : w.nextContext ≤ w'.nextContext
  marker : ∀ thread name, w.marker thread = some name → w'.marker thread = some name
  built : ∀ id : ContextId, id.index < w.nextContext → w'.built id = w.built id
  fresh : w.FreshContexts → w'.FreshContexts
  grounded : w.Grounded → w'.Grounded

/-! ### One definition -/

/-- An artifact that a definition has loaded: a new one, of its own name, with the body of an image that
    its packer may give. -/
structure Call.Loaded (packs : Packs) (call : Call ρ κ) (since : Nat) (w : World)
    (artifact : Artifact) : Prop where
  later : since < artifact.serial
  created : artifact.serial ≤ w.created
  name : artifact.name = call.name
  payload : ∃ image decoded, packs call.name call.raw image ∧ Image.decode image = .ok decoded ∧
    artifact.payload = .body decoded.body

/-- An artifact that a definition has made: a new one, of its own name and unit. -/
structure Call.Made (call : Call ρ κ) (since : Nat) (w : World) (artifact : Artifact) : Prop where
  later : since < artifact.serial
  created : artifact.serial ≤ w.created
  name : artifact.name = call.name
  payload : ∃ unit, SourceUnit.decode call.raw = .ok unit ∧ artifact.payload = .body unit.body

/-- What was loaded from images that settings pack is of the definition's own unit. -/
theorem Call.Loaded.made {call : Call ρ κ} {since : Nat} {w : World} {artifact : Artifact}
    (loaded : call.Loaded .spelled since w artifact) : call.Made since w artifact := by
  obtain ⟨image, decoded, ⟨settings, packed⟩, spells, body⟩ := loaded.payload
  obtain ⟨unit, reads, spelled⟩ := Settings.decode_pack packed
  obtain rfl := Except.ok.inj (spells.symm.trans spelled)
  exact ⟨loaded.later, loaded.created, loaded.name, unit, reads, body⟩

namespace Running

/-- What holds of a definition in memory at each of its places. -/
structure Sound (outside : World → World → Prop) (packs : Packs)
    (running : Running ρ MemoryContext) (w : World) : Prop where
  memory : running.call.Hosting outside packs running.since
  hooked : running.place.Hooked outside packs running.call w.created
  since : running.since ≤ w.created
  marked : running.place.marked → w.marker running.call.thread = some running.call.name
  context : ∀ context, running.place.context? = some context →
    w.built context.id = none ∧ context.id.index < w.nextContext
  artifact : ∀ artifact, running.place.artifact? = some artifact →
    running.call.Loaded packs running.since w artifact

/-- A change that does not touch what a definition relies on. -/
structure Spared (running : Running ρ MemoryContext) (w w' : World) : Prop where
  created : w.created ≤ w'.created
  nextContext : w.nextContext ≤ w'.nextContext
  marker : running.place.marked → w'.marker running.call.thread = w.marker running.call.thread
  built : ∀ context, running.place.context? = some context → w.built context.id = none →
    w'.built context.id = none

variable {outside : World → World → Prop} {packs : Packs} {running : Running ρ MemoryContext}
  {w w' : World}

theorem Sound.spared (sound : running.Sound outside packs w) (spared : running.Spared w w') :
    running.Sound outside packs w' where
  memory := sound.memory
  hooked := sound.hooked.mono spared.created
  since := Nat.le_trans sound.since spared.created
  marked marked := (spared.marker marked).trans (sound.marked marked)
  context context loading := by
    obtain ⟨unbuilt, made⟩ := sound.context context loading
    exact ⟨spared.built context loading unbuilt, Nat.lt_of_lt_of_le made spared.nextContext⟩
  artifact artifact loaded := by
    have made := sound.artifact artifact loaded
    exact ⟨made.later, Nat.le_trans made.created spared.created, made.name, made.payload⟩

theorem Sound.foreign (sound : running.Sound outside packs w) (foreign : w.Foreign w') :
    running.Spared w w' where
  created := foreign.created
  nextContext := foreign.nextContext
  marker marked := by
    have marker := sound.marked marked
    rw [foreign.marker _ _ marker, marker]
  built context loading unbuilt := by
    obtain ⟨-, made⟩ := sound.context context loading
    rw [foreign.built context.id made, unbuilt]

theorem Sound.under (sound : running.Sound outside packs w) {place : Place ρ MemoryContext}
    {contexts : MemoryContext → Prop}
    (under : place.Under outside packs running.call w'.created contexts)
    (created : w.created ≤ w'.created)
    (marker : w'.marker running.call.thread = some running.call.name)
    (context : ∀ context, contexts context →
      w'.built context.id = none ∧ context.id.index < w'.nextContext) :
    ({ running with place } : Running ρ MemoryContext).Sound outside packs w' where
  memory := sound.memory
  hooked := under.hooked
  since := Nat.le_trans sound.since created
  marked _ := marker
  context found loading := context found (under.context found loading)
  artifact artifact loaded := absurd (loaded.symm.trans under.artifact) (by simp)

end Running

/-- A change that leaves alone what definitions in memory rely on. -/
structure World.Still (w w' : World) : Prop where
  created : w'.created = w.created
  marker : w'.marker = w.marker
  nextContext : w'.nextContext = w.nextContext
  built : w'.built = w.built
  entries : w'.entries = w.entries

theorem World.Still.foreign {w w' : World} (still : w.Still w') : w.Foreign w' where
  created := Nat.le_of_eq still.created.symm
  nextContext := Nat.le_of_eq still.nextContext.symm
  marker _ _ stands := by rw [still.marker]; exact stands
  built _ _ := by rw [still.built]
  fresh untouched id unmade := by
    rw [still.built]
    exact untouched id (by rw [← still.nextContext]; exact unmade)
  grounded grounded cache name artifact entry := by
    rw [still.entries] at entry
    rw [still.created]
    exact grounded cache name artifact entry

theorem Note.still (note : Note) (counters : CountersId) (w : World) :
    w.Still (note.apply counters w) := by
  cases note <;> exact ⟨rfl, rfl, rfl, rfl, rfl⟩

/-- Callbacks in memory are foreign to all but the contexts that they let build something. -/
theorem Confined.spared {counters : CountersId} {artifacts : List Artifact} {w w' : World}
    (confined : Confined counters artifacts w w') {running : Running ρ MemoryContext}
    (built : ∀ context, running.place.context? = some context → w.built context.id = none →
      w'.built context.id = none) : running.Spared w w' where
  created := confined.created
  nextContext := confined.nextContext
  marker _ := by rw [confined.frame]
  built := built

theorem Confined.grounded {counters : CountersId} {artifacts : List Artifact} {w w' : World}
    (confined : Confined counters artifacts w w') (grounded : w.Grounded) : w'.Grounded := by
  intro cache name artifact entry
  rw [confined.frame] at entry
  exact Nat.le_trans (grounded cache name artifact entry) confined.created

theorem World.Grounded.invalidate {w : World} (grounded : w.Grounded) (cache : CacheId)
    (gone : Name) : (w.invalidate cache gone).2.Grounded := by
  intro other name artifact entry
  by_cases same : other = cache
  · subst same
    simp only [World.invalidate, replace_self, Table.get?_erase] at entry
    split at entry
    · cases entry
    · exact grounded other name artifact entry
  · simp only [World.invalidate, replace_of_ne _ _ same] at entry
    exact grounded other name artifact entry

theorem World.Grounded.publish {w : World} (grounded : w.Grounded) (cache : CacheId)
    (published : Name) {artifact : Artifact} (created : artifact.serial ≤ w.created) :
    (w.publish cache published artifact).2.Grounded := by
  intro other name found entry
  by_cases same : other = cache
  · subst same
    simp only [World.publish, replace_self, Table.get?_insert, Table.get?_filter] at entry
    split at entry
    · cases entry
      exact created
    · exact grounded other name found (Option.filter_eq_some_iff.mp entry).1
  · simp only [World.publish, replace_of_ne _ _ same] at entry
    exact grounded other name found entry

/-! ### What is foreign -/

theorem World.foreign_invalidate (w : World) (cache : CacheId) (name : Name) :
    w.Foreign (w.invalidate cache name).2 :=
  ⟨Nat.le_refl _, Nat.le_refl _, fun _ _ stands => stands, fun _ _ => rfl, id,
    fun grounded => grounded.invalidate _ _⟩

theorem World.foreign_publish {w : World} (cache : CacheId) (name : Name) {artifact : Artifact}
    (created : artifact.serial ≤ w.created) : w.Foreign (w.publish cache name artifact).2 :=
  ⟨Nat.le_refl _, Nat.le_refl _, fun _ _ stands => stands, fun _ _ => rfl, id,
    fun grounded => grounded.publish _ _ created⟩

theorem World.foreign_clear (w : World) (cache : CacheId) : w.Foreign (w.clear cache) := by
  refine ⟨Nat.le_refl _, Nat.le_refl _, fun _ _ stands => stands, fun _ _ => rfl, id, ?_⟩
  intro grounded other name artifact entry
  by_cases same : other = cache
  · subst same
    simp [World.clear] at entry
  · simp only [World.clear, replace_of_ne _ _ same] at entry
    exact grounded other name artifact entry

theorem Resolver.foreign_resolve (resolver : Resolver) (thread : ThreadId) (name : Name)
    (w : World) : w.Foreign (resolver.resolve thread name w).2 := by
  have frame := (resolver.answered thread name w).frame
  refine World.Still.foreign ?_
  rw [frame]
  exact ⟨rfl, rfl, rfl, rfl, rfl⟩

/-- A callback may begin a definition on its thread, which is refused. -/
theorem Call.Hooked.refused {outside : World → World → Prop} {call : Call ρ κ} {since : Nat}
    {last : Program (System ρ) (Except Panic α) → Prop} {nested : Call ρ κ'}
    {next : Ending → Program (System ρ) (Except Panic α)} (same : nested.thread = call.thread)
    (still : ∀ w w' : World, w.Still w' → outside w w')
    (rest : call.Hooked outside last since
      (next (.ok (.error ⟨nested.name, .inFlight call.name⟩)))) :
    call.Hooked outside last since
      ((nested.loader.define nested.thread nested.name nested.raw).run >>= next) := by
  rw [nested.define_eq_checking]
  refine .step (fun s _ _ => still _ _ ⟨rfl, rfl, rfl, rfl, rfl⟩) fun s within _ => ?_
  have marked : s.world.marker nested.thread = some call.name := by rw [same]; exact within.marked
  simp only [marked]
  -- The failure is counted, and recorded.
  refine .changing (.changing (rest.mono within.created) ?_ ?_) ?_ ?_
  · exact fun w _ => still _ _ ⟨rfl, rfl, rfl, rfl, rfl⟩
  · exact fun w => Nat.le_refl _
  · exact fun w _ => still _ _ ⟨rfl, rfl, rfl, rfl, rfl⟩
  · exact fun w => Nat.le_refl _

namespace Pool

/-! ### All definitions -/

/-- What holds of all definitions of a pool together. -/
structure Sound (outside : World → World → Prop) (packs : Packs) (pool : Pool ρ MemoryContext) :
    Prop where
  calls : ∀ index running, pool.calls index = some running →
    running.Sound outside packs pool.world
  threads : ∀ index other running found, pool.calls index = some running →
    pool.calls other = some found → running.place.marked → found.place.marked →
    running.call.thread = found.call.thread → index = other
  contexts : ∀ index other running found context context', pool.calls index = some running →
    pool.calls other = some found → running.place.context? = some context →
    found.place.context? = some context' → context.id = context'.id → index = other
  artifacts : ∀ index other running found artifact artifact', pool.calls index = some running →
    pool.calls other = some found → running.place.artifact? = some artifact →
    found.place.artifact? = some artifact' → artifact.serial = artifact'.serial → index = other
  fresh : pool.world.FreshContexts
  grounded : pool.world.Grounded

variable {outside : World → World → Prop} {packs : Packs} {pool : Pool ρ MemoryContext}
  {index : Nat} {running : Running ρ MemoryContext}

theorem Sound.within (sound : pool.Sound outside packs) (here : pool.calls index = some running)
    (marked : running.place.marked) : running.call.Within pool.world.created pool.world :=
  ⟨Nat.le_refl _, (sound.calls index running here).marked marked, sound.grounded⟩

/-- One definition moves on, and what it does spares the others. A marker that it sets stands on a
    thread without one, a context that it makes has the next id, and an artifact that it makes the
    next serial number. -/
theorem Sound.put (sound : pool.Sound outside packs) (here : pool.calls index = some running)
    {place : Place ρ MemoryContext} {system : System ρ}
    (spares : ∀ other found, other ≠ index → pool.calls other = some found →
      found.Spared pool.world system.world)
    (own : ({ running with place } : Running ρ MemoryContext).Sound outside packs system.world)
    (marked : place.marked → running.place.marked = true ∨
      pool.world.marker running.call.thread = none)
    (context : ∀ context, place.context? = some context → running.place.context? = some context ∨
      context.id = ⟨pool.world.nextContext⟩)
    (artifact : ∀ artifact, place.artifact? = some artifact →
      running.place.artifact? = some artifact ∨ artifact.serial = pool.world.created + 1)
    (fresh : system.world.FreshContexts) (grounded : system.world.Grounded) :
    (pool.put index { running with place } system).Sound outside packs := by
  -- What the definition has after the step, no other definition has.
  have others : ∀ {other found}, other ≠ index → pool.calls other = some found →
      (place.marked → found.place.marked → found.call.thread ≠ running.call.thread) ∧
      (∀ context context', place.context? = some context → found.place.context? = some context' →
        context.id ≠ context'.id) ∧
      ∀ artifact artifact', place.artifact? = some artifact →
        found.place.artifact? = some artifact' → artifact.serial ≠ artifact'.serial := by
    intro other found different there
    have foundSound := sound.calls other found there
    refine ⟨?_, ?_, ?_⟩
    · intro markedHere markedThere sameThread
      rcases marked markedHere with before | unmarked
      · exact different (sound.threads other index found running there here markedThere before
          sameThread)
      · have marker := foundSound.marked markedThere
        rw [sameThread, unmarked] at marker
        cases marker
    · intro context₁ context₂ loading loadingThere sameId
      rcases context context₁ loading with before | next
      · exact different (sound.contexts other index found running context₂ context₁ there here
          loadingThere before sameId.symm)
      · obtain ⟨-, made⟩ := foundSound.context context₂ loadingThere
        rw [← sameId, next] at made
        exact Nat.lt_irrefl _ made
    · intro artifact₁ artifact₂ loaded loadedThere sameSerial
      rcases artifact artifact₁ loaded with before | next
      · exact different (sound.artifacts other index found running artifact₂ artifact₁ there here
          loadedThere before sameSerial.symm)
      · have made := (foundSound.artifact artifact₂ loadedThere).created
        omega
  refine ⟨?_, ?_, ?_, ?_, fresh, grounded⟩
  · intro other found there
    rcases calls_put there with ⟨rfl, rfl⟩ | ⟨different, before⟩
    · exact own
    · exact (sound.calls other found before).spared (spares other found different before)
  · intro first second one two isOne isTwo markedOne markedTwo sameThread
    rcases calls_put isOne with ⟨rfl, rfl⟩ | ⟨different, before⟩ <;>
      rcases calls_put isTwo with ⟨rfl, rfl⟩ | ⟨different', before'⟩
    · rfl
    · exact absurd sameThread.symm ((others different' before').1 markedOne markedTwo)
    · exact absurd sameThread ((others different before).1 markedTwo markedOne)
    · exact sound.threads first second one two before before' markedOne markedTwo sameThread
  · intro first second one two context₁ context₂ isOne isTwo loadingOne loadingTwo sameId
    rcases calls_put isOne with ⟨rfl, rfl⟩ | ⟨different, before⟩ <;>
      rcases calls_put isTwo with ⟨rfl, rfl⟩ | ⟨different', before'⟩
    · rfl
    · exact absurd sameId ((others different' before').2.1 _ _ loadingOne loadingTwo)
    · exact absurd sameId.symm ((others different before).2.1 _ _ loadingTwo loadingOne)
    · exact sound.contexts first second one two _ _ before before' loadingOne loadingTwo sameId
  · intro first second one two artifact₁ artifact₂ isOne isTwo loadedOne loadedTwo sameSerial
    rcases calls_put isOne with ⟨rfl, rfl⟩ | ⟨different, before⟩ <;>
      rcases calls_put isTwo with ⟨rfl, rfl⟩ | ⟨different', before'⟩
    · rfl
    · exact absurd sameSerial ((others different' before').2.2 _ _ loadedOne loadedTwo)
    · exact absurd sameSerial.symm ((others different before).2.2 _ _ loadedTwo loadedOne)
    · exact sound.artifacts first second one two _ _ before before' loadedOne loadedTwo sameSerial

/-- A foreign change while one definition moves on, without a new marker, context or artifact. -/
theorem Sound.put_foreign (sound : pool.Sound outside packs) (here : pool.calls index = some running)
    {place : Place ρ MemoryContext} {system : System ρ}
    (foreign : pool.world.Foreign system.world)
    (hooked : place.Hooked outside packs running.call system.world.created)
    (marked : place.marked → running.place.marked)
    (context : ∀ context, place.context? = some context → running.place.context? = some context)
    (artifact : ∀ artifact, place.artifact? = some artifact →
      running.place.artifact? = some artifact) :
    (pool.put index { running with place } system).Sound outside packs := by
  have before := sound.calls index running here
  have after := before.spared (before.foreign foreign)
  refine sound.put here ?_ ?_ ?_ ?_ ?_ (foreign.fresh sound.fresh)
    (foreign.grounded sound.grounded)
  · exact fun other found _ there => (sound.calls other found there).foreign foreign
  · exact ⟨after.memory, hooked, after.since, fun stands => after.marked (marked stands),
      fun found loading => after.context found (context found loading),
      fun found loaded => after.artifact found (artifact found loaded)⟩
  · exact fun stands => .inl (marked stands)
  · exact fun found loading => .inl (context found loading)
  · exact fun found loaded => .inl (artifact found loaded)

private theorem Sound.put_bare (sound : pool.Sound outside packs)
    (here : pool.calls index = some running) {place : Place ρ MemoryContext} {system : System ρ}
    (foreign : pool.world.Foreign system.world)
    (past : place.Past outside packs running.call system.world.created none) :
    (pool.put index { running with place } system).Sound outside packs :=
  sound.put_foreign here foreign past.hooked
    (fun marked => absurd (past.marked.symm.trans marked) (by simp))
    (fun _ loading => absurd (past.context.symm.trans loading) (by simp))
    (fun _ loaded => absurd (past.artifact.symm.trans loaded) (by simp))

private theorem Sound.put_under (sound : pool.Sound outside packs)
    (here : pool.calls index = some running) {place : Place ρ MemoryContext} {system : System ρ}
    (foreign : pool.world.Foreign system.world) (marked : running.place.marked)
    {contexts : MemoryContext → Prop}
    (under : place.Under outside packs running.call system.world.created contexts)
    (context : ∀ context, contexts context → running.place.context? = some context) :
    (pool.put index { running with place } system).Sound outside packs :=
  sound.put_foreign here foreign under.hooked (fun _ => marked)
    (fun found loading => context found (under.context found loading))
    (fun _ loaded => absurd (under.artifact.symm.trans loaded) (by simp))

/-! ### The steps that are not foreign to the definition itself -/

/-- A marker is set on a thread that has none, and refused on any other. -/
private theorem sound_mark (sound : pool.Sound outside packs) (here : pool.calls index = some running)
    (lock : Option LockId) :
    (pool.put index
      { running with place := (running.call.advanceStage lock .mark).next pool.system }
      ((running.call.advanceStage lock .mark).act pool.system)).Sound outside packs := by
  have before := sound.calls index running here
  simp only [Call.advanceStage]
  cases marker : pool.system.world.marker running.call.thread with
  | some name =>
    simp only [World.mark, marker]
    exact sound.put_bare here (World.Still.foreign ⟨rfl, rfl, rfl, rfl, rfl⟩)
      (Call.past_atReport (.ok (.error (.inFlight name))))
  | none =>
    simp only [World.mark, marker]
    have foreign : pool.world.Foreign { pool.system.world with
        marker := replace pool.system.world.marker running.call.thread
          (some running.call.name) } := by
      refine ⟨Nat.le_refl _, Nat.le_refl _, ?_, fun _ _ => rfl, id, id⟩
      intro thread name stands
      by_cases same : thread = running.call.thread
      · exact absurd ((same ▸ stands).symm.trans marker) (by simp)
      · exact (replace_of_ne _ _ same).trans stands
    refine sound.put here ?_ ?_ ?_ ?_ ?_ (foreign.fresh sound.fresh)
      (foreign.grounded sound.grounded)
    · exact fun other found _ there => (sound.calls other found there).foreign foreign
    · refine ⟨before.memory, trivial, before.since, fun _ => replace_self .., ?_, ?_⟩
      · intro _ loading
        cases loading
      · intro _ loaded
        cases loaded
    · exact fun _ => .inr marker
    · intro _ loading
      cases loading
    · intro _ loaded
      cases loaded

private theorem sound_makes (sound : pool.Sound outside packs) (here : pool.calls index = some running)
    (marked : running.place.marked) {lock : Option LockId} {image : Bytes} {api : UInt16}
    (gives : packs running.call.name running.call.raw image) :
    (pool.put index
      { running with
        place := running.call.atInstantiated lock
          (.ok (MemoryContext.instantiate api image running.call.loader.resolver
            pool.world).1) }
      { pool.system with
        world := (MemoryContext.instantiate api image running.call.loader.resolver
          pool.world).2 }).Sound outside packs := by
  have before := sound.calls index running here
  have growing : Growing running.call.loader.counters _ pool.world (MemoryContext.instantiate api
      image running.call.loader.resolver pool.world).2 := MemoryContext.instantiate_growing ..
  have built := MemoryContext.instantiate_built api image running.call.loader.resolver pool.world
  have made : ∀ context, (MemoryContext.instantiate api image running.call.loader.resolver
      pool.world).1 = .ok context → context.id = ⟨pool.world.nextContext⟩ ∧
        pool.world.nextContext < (MemoryContext.instantiate api image
          running.call.loader.resolver pool.world).2.nextContext := by
    intro context ended
    have made : MemoryContext.instantiate api image running.call.loader.resolver pool.world =
        (.ok context, (MemoryContext.instantiate api image running.call.loader.resolver
          pool.world).2) := Prod.ext ended rfl
    obtain ⟨-, id, world⟩ := MemoryContext.instantiate_eq made
    refine ⟨id, ?_⟩
    rw [world, MemoryContext.retain, Resolver.retain, World.retainAll_eq]
    exact Nat.lt_succ_self _
  have memory := before.memory.mono (Nat.le_trans before.since growing.created)
  have under : (running.call.atInstantiated lock _).Under outside packs running.call _ _ :=
    Call.under_makes memory gives api pool.world
  refine sound.put here ?_ (before.under under growing.created ?_ ?_) (fun _ => .inl marked) ?_ ?_
    (growing.fresh sound.fresh) (growing.toConfined.grounded sound.grounded)
  · intro other found _ there
    exact growing.toConfined.spared fun _ _ unbuilt => by rw [built, unbuilt]
  · rw [growing.toConfined.marker]
    exact before.marked marked
  · intro context ended
    obtain ⟨id, next⟩ := made context ended
    rw [built, id]
    exact ⟨sound.fresh _ (Nat.le_refl _), next⟩
  · exact fun context loading => .inr (made context (under.context context loading)).1
  · exact fun _ loaded => absurd (under.artifact.symm.trans loaded) (by simp)

private theorem loaded_of_loads {call : Call ρ MemoryContext} {context : MemoryContext} {w : World}
    {since : Nat} (old : since ≤ w.created) (seeded : call.Seeded packs context) {w' : World}
    (named : call.name = context.unit) (created : w'.created = (context.fresh w).serial) :
    call.Loaded packs since w' (context.fresh w) := by
  obtain ⟨image, decoded, gives, spells, body⟩ := seeded.image
  refine ⟨Nat.lt_succ_of_le old, Nat.le_of_eq created.symm, named.symm, image, decoded, gives, spells,
    ?_⟩
  rw [← body]
  rfl

/-- An artifact that is loaded is a new one. -/
private theorem sound_loads (sound : pool.Sound outside packs) (here : pool.calls index = some running)
    {lock lock' : Option LockId} {context : MemoryContext}
    {turn : Turn (System ρ) (Program (System ρ) (Except Panic (Except Failure (Option Artifact))))}
    (place : running.place = .inside lock (.load context turn))
    (seeded : running.call.Seeded packs context) :
    (pool.put index
      { running with
        place := Call.atLoaded lock' context
          (.ok ((context.load running.call.thread running.call.name pool.world).1.map some)) }
      { pool.system with
        world := (context.load running.call.thread running.call.name pool.world).2 }).Sound
      outside packs := by
  have before := sound.calls index running here
  have loading : running.place.context? = some context := by rw [place]; rfl
  have marked : running.place.marked = true := by rw [place]; rfl
  have marker := before.marked marked
  obtain ⟨unbuilt, made⟩ := before.context context loading
  obtain ⟨growing, given, others⟩ :=
    MemoryContext.load_marked [] seeded.parent marker unbuilt made
  have spares : ∀ other found, other ≠ index → pool.calls other = some found → found.Spared
      pool.world (context.load running.call.thread running.call.name pool.world).2 := by
    intro other found different there
    refine growing.toConfined.spared fun context' loading' unbuilt' => ?_
    have elsewhere : context'.id ≠ context.id := fun same => different
      (sound.contexts other index found running context' context there here loading' loading same)
    rw [others _ elsewhere, unbuilt']
  have marker' : (context.load running.call.thread running.call.name pool.world).2.marker
      running.call.thread = some running.call.name := by
    rw [growing.toConfined.marker]
    exact marker
  have since := Nat.le_trans before.since growing.created
  rcases load : (context.load running.call.thread running.call.name pool.world).1 with
    cause | artifact
  · refine sound.put here spares ?_ (fun _ => .inl marked) nofun nofun (growing.fresh sound.fresh)
      (growing.toConfined.grounded sound.grounded)
    exact ⟨before.memory, trivial, since, fun _ => marker', nofun, nofun⟩
  · obtain ⟨named, rfl, created⟩ := given artifact load
    refine sound.put here spares ?_ (fun _ => .inl marked) nofun ?_ (growing.fresh sound.fresh)
      (growing.toConfined.grounded sound.grounded)
    · refine ⟨before.memory, trivial, since, fun _ => marker', nofun, ?_⟩
      rintro _ ⟨⟩
      exact loaded_of_loads before.since seeded named created
    · rintro _ ⟨⟩
      exact .inr rfl

/-- A context that is dropped is of no use to the other definitions. -/
private theorem sound_close (sound : pool.Sound outside packs) (here : pool.calls index = some running)
    {lock : Option LockId} {context : MemoryContext} {result : Result}
    (place : running.place = .inside lock (.close context result)) :
    (pool.put index { running with place := .inside lock (.unmark result) }
      { pool.system with world := context.close pool.world }).Sound outside packs := by
  have before := sound.calls index running here
  have confined : Confined running.call.loader.counters [] pool.world (context.close pool.world) :=
    MemoryContext.close_confined context pool.world
  have marked : running.place.marked = true := by rw [place]; rfl
  have spared : ∀ found : Running ρ MemoryContext,
      found.Spared pool.world (context.close pool.world) := fun found =>
    confined.spared fun _ _ unbuilt => MemoryContext.close_built unbuilt
  have after := before.spared (spared running)
  refine sound.put here (fun _ found _ _ => spared found) ?_ (fun _ => .inl marked) nofun ?_
    (confined.fresh sound.fresh) (confined.grounded sound.grounded)
  · refine ⟨before.memory, trivial, after.since, fun _ => after.marked marked, nofun, ?_⟩
    exact fun artifact loaded => after.artifact artifact (by rw [place]; exact loaded)
  · exact fun artifact loaded => .inl (by rw [place]; exact loaded)

/-- A marker that is cleared is the definition's own. -/
private theorem sound_unmark (sound : pool.Sound outside packs) (here : pool.calls index = some running)
    {lock : Option LockId} {result : Result}
    (place : running.place = .inside lock (.unmark result)) :
    (pool.put index { running with place := running.call.atReport lock result }
      { pool.system with world := pool.world.unmark running.call.thread }).Sound outside packs := by
  have before := sound.calls index running here
  have marked : running.place.marked = true := by rw [place]; rfl
  have past : (running.call.atReport lock result).Past outside packs running.call pool.world.created
      result.artifact? := Call.past_atReport result
  have artifact : ∀ artifact, (running.call.atReport lock result).artifact? = some artifact →
      running.place.artifact? = some artifact := by
    intro artifact loaded
    rw [past.artifact] at loaded
    rw [place]
    exact loaded
  refine sound.put here ?_ ?_ ?_ ?_ (fun found loaded => .inl (artifact found loaded)) sound.fresh
    sound.grounded
  · intro other found different there
    refine ⟨Nat.le_refl _, Nat.le_refl _, ?_, fun _ _ unbuilt => unbuilt⟩
    intro markedThere
    have elsewhere : found.call.thread ≠ running.call.thread := fun same =>
      different (sound.threads other index found running there here markedThere marked same)
    exact replace_of_ne _ _ elsewhere
  · refine ⟨before.memory, past.hooked, before.since, ?_, ?_, ?_⟩
    · exact fun stands => absurd (past.marked.symm.trans stands) (by simp)
    · exact fun _ loading => absurd (past.context.symm.trans loading) (by simp)
    · intro found loaded
      have made := before.artifact found (artifact found loaded)
      exact ⟨made.later, made.created, made.name, made.payload⟩
  · exact fun stands => absurd (past.marked.symm.trans stands) (by simp)
  · exact fun _ loading => absurd (past.context.symm.trans loading) (by simp)

end Pool

/-! ### Every step -/

/-- Rules by which definitions are in memory with packers that give such images, and whatever else
    happens is foreign to them. -/
structure Rules.Hosting (rules : Rules ρ MemoryContext) (packs : Packs) : Prop where
  begins : ∀ call w, rules.begins call w → call.Hosting rules.outside packs w.created
  outside : ∀ w w', rules.outside w w' → w.Foreign w'

/-- Such rules by which packers give what some settings pack. -/
abbrev Rules.Memory (rules : Rules ρ MemoryContext) : Prop := rules.Hosting .spelled

namespace Pool

variable {rules : Rules ρ MemoryContext} {packs : Packs} {pool pool' : Pool ρ MemoryContext}
  {index : Nat} {running : Running ρ MemoryContext}

private theorem sound_empty {start : System ρ} (fresh : start.world.FreshContexts)
    (grounded : start.world.Grounded) :
    (⟨start, fun _ => none⟩ : Pool ρ MemoryContext).Sound rules.outside packs where
  calls _ _ here := by cases here
  threads _ _ _ _ here := by cases here
  contexts _ _ _ _ _ _ here := by cases here
  artifacts _ _ _ _ _ _ here := by cases here
  fresh := fresh
  grounded := grounded

private theorem sound_begin (sound : pool.Sound rules.outside packs) {call : Call ρ MemoryContext}
    (memory : call.Hosting rules.outside packs pool.world.created) :
    (pool.put index ⟨call, .check, pool.world.created⟩ pool.system).Sound rules.outside packs := by
  refine ⟨?_, ?_, ?_, ?_, sound.fresh, sound.grounded⟩
  · intro other found there
    rcases calls_put there with ⟨-, rfl⟩ | ⟨-, before⟩
    · exact ⟨memory, trivial, Nat.le_refl _, nofun, nofun, nofun⟩
    · exact sound.calls other found before
  · intro first second one two isOne isTwo markedOne markedTwo sameThread
    rcases calls_put isOne with ⟨-, rfl⟩ | ⟨-, before⟩
    · cases markedOne
    rcases calls_put isTwo with ⟨-, rfl⟩ | ⟨-, before'⟩
    · cases markedTwo
    exact sound.threads first second one two before before' markedOne markedTwo sameThread
  · intro first second one two context₁ context₂ isOne isTwo loadingOne loadingTwo sameId
    rcases calls_put isOne with ⟨-, rfl⟩ | ⟨-, before⟩
    · cases loadingOne
    rcases calls_put isTwo with ⟨-, rfl⟩ | ⟨-, before'⟩
    · cases loadingTwo
    exact sound.contexts first second one two _ _ before before' loadingOne loadingTwo sameId
  · intro first second one two artifact₁ artifact₂ isOne isTwo loadedOne loadedTwo sameSerial
    rcases calls_put isOne with ⟨-, rfl⟩ | ⟨-, before⟩
    · cases loadedOne
    rcases calls_put isTwo with ⟨-, rfl⟩ | ⟨-, before'⟩
    · cases loadedTwo
    exact sound.artifacts first second one two _ _ before before' loadedOne loadedTwo sameSerial

private theorem sound_inside (memory : rules.Hosting packs) (sound : pool.Sound rules.outside packs)
    (here : pool.calls index = some running) {lock : Option LockId} {stage : Stage ρ MemoryContext}
    (place : running.place = .inside lock stage)
    (ready : (running.call.advanceStage lock stage).ready pool.system) :
    (pool.put index { running with place := (running.call.advanceStage lock stage).next pool.system }
      ((running.call.advanceStage lock stage).act pool.system)).Sound rules.outside packs := by
  have before := sound.calls index running here
  have hooked := before.hooked
  rw [place] at hooked
  cases stage with
  | mark => exact sound_mark sound here lock
  | forget =>
    exact sound.put_under here (World.foreign_invalidate _ _ _) (by rw [place]; rfl)
      (Call.under_atNoting (before.memory.mono before.since) _) nofun
  | note first others =>
    have foreign := (first.still running.call.loader.counters pool.world).foreign
    have memory := before.memory.mono (Nat.le_trans before.since foreign.created)
    exact sound.put_under here foreign (by rw [place]; rfl) (Call.under_atNoting memory _) nofun
  | pack turn =>
    have within := sound.within here (by rw [place]; rfl)
    obtain ⟨allowed, rest⟩ := Call.Hooked.turn_of_packed hooked within ready
    have foreign := memory.outside _ _ allowed
    have memory' := before.memory.mono (Nat.le_trans before.since foreign.created)
    exact sound.put_under here foreign (by rw [place]; rfl) (Call.under_atPacking memory' rest) nofun
  | instantiate turn =>
    obtain ⟨image, api, gives, hooked⟩ := hooked
    have within := sound.within here (by rw [place]; rfl)
    rcases hooked.turn within ready with ⟨allowed, rest⟩ | rfl
    · exact sound.put_under here (memory.outside _ _ allowed) (by rw [place]; rfl)
        (Call.under_atInstantiating gives rest) nofun
    · exact sound_makes sound here (by rw [place]; rfl) gives
  | load context turn =>
    obtain ⟨seeded, hooked⟩ := hooked
    have within := sound.within here (by rw [place]; rfl)
    rcases hooked.turn within ready with ⟨allowed, rest⟩ | rfl
    · refine sound.put_under here (memory.outside _ _ allowed) (by rw [place]; rfl)
        (Call.under_atLoading seeded rest) ?_
      rintro _ rfl
      rw [place]
      rfl
    · exact sound_loads sound here place seeded
  | publish context artifact =>
    have made := before.artifact artifact (by rw [place]; rfl)
    refine sound.put_foreign here (World.foreign_publish _ _ made.created) trivial
      (fun _ => by rw [place]; rfl) nofun ?_
    rintro _ ⟨⟩
    rw [place]
    rfl
  | close context result =>
    have closes := before.memory.close context pool.system.world
    simp only [Call.advanceStage, Turn.change, closes]
    exact sound_close sound here place
  | unmark result => exact sound_unmark sound here place
  | report first others ending =>
    have still := first.still running.call.loader.counters pool.world
    have past : (Call.atReporting lock ending others).Past rules.outside packs running.call
        (first.apply running.call.loader.counters pool.world).created ending.artifact? :=
      Call.past_atReporting ending others
    refine sound.put_foreign here still.foreign past.hooked ?_ ?_ ?_
    · exact fun marked => absurd (past.marked.symm.trans marked) (by simp)
    · exact fun _ loading => absurd (past.context.symm.trans loading) (by simp)
    · intro artifact loaded
      rw [place]
      exact past.artifact.symm.trans loaded

theorem Sound.step (memory : rules.Hosting packs) (sound : pool.Sound rules.outside packs)
    {move : Option (Move ρ MemoryContext)} (next : Step rules pool move pool') :
    pool'.Sound rules.outside packs := by
  cases next with
  | begin unused allowed => exact sound_begin sound (memory.begins _ _ allowed)
  | outside allowed =>
    have foreign := memory.outside _ _ allowed
    refine ⟨fun index running here => ?_, sound.threads, sound.contexts, sound.artifacts,
      foreign.fresh sound.fresh, foreign.grounded sound.grounded⟩
    have before := sound.calls index running here
    exact before.spared (before.foreign foreign)
  | @advance index running turn here advances ready =>
    cases place : running.place with
    | check =>
      rw [place] at advances
      cases advances
      refine sound.put_bare here (World.Still.foreign ⟨rfl, rfl, rfl, rfl, rfl⟩) ?_
      simp only []
      split
      · next name _ => exact Call.past_atReport (.ok (.error (.inFlight name)))
      · split <;> exact ⟨rfl, rfl, rfl, trivial⟩
    | take =>
      rw [place] at advances
      cases advances
      refine sound.put_bare here (World.Still.foreign ?_) ⟨rfl, rfl, rfl, trivial⟩
      simp only [Pool.world]
      rw [World.lockFor_eq]
      exact ⟨rfl, rfl, rfl, rfl, rfl⟩
    | wait lock =>
      rw [place] at advances
      cases advances
      exact sound.put_bare here (World.Still.foreign ⟨rfl, rfl, rfl, rfl, rfl⟩)
        ⟨rfl, rfl, rfl, trivial⟩
    | inside lock stage =>
      rw [place] at advances
      cases advances
      exact sound_inside memory sound here place ready
    | unlock lock ending =>
      rw [place] at advances
      cases advances
      refine sound.put_foreign here (World.Still.foreign ⟨rfl, rfl, rfl, rfl, rfl⟩) trivial nofun
        nofun ?_
      exact fun _ loaded => by rw [place]; exact loaded
    | drop lock ending =>
      rw [place] at advances
      cases advances
      refine sound.put_foreign here (World.Still.foreign ⟨rfl, rfl, rfl, rfl, rfl⟩) trivial nofun
        nofun ?_
      exact fun _ loaded => by rw [place]; exact loaded
    | ended ending =>
      rw [place] at advances
      cases advances

/-- What definitions in memory rely on holds in every run from a state in which contexts that are
    not made have built nothing and what caches have was created. -/
theorem Run.sound (memory : rules.Hosting packs) {start : System ρ} (fresh : start.world.FreshContexts)
    (grounded : start.world.Grounded) {trace : List (Move ρ MemoryContext)}
    (run : Run rules start trace pool) : pool.Sound rules.outside packs := by
  induction run with
  | start => exact sound_empty fresh grounded
  | step _ next ih => exact ih.step memory next

end Pool

end Reload
