import Reload.Proofs.Definition.Exits
import Reload.Proofs.Packing
import Reload.Proofs.Resolution

/-!
The callbacks of a definition by a loader that keeps units in memory. They are known, so what they
leave alone can be told (`Confined`). While the marker stands, a context gets nothing from its parent,
so the artifact that it loads is a new one (`MemoryContext.load_marked`).
-/

namespace Reload

/-- The loader with the packer that follows its settings, and the host that keeps units in memory. -/
def Loader.inMemory {ρ : Type} (loader : Loader Settings UInt16) :
    Loader (Packer ρ) (Host ρ MemoryContext) :=
  { loader with packer := .standard loader.packer, host := .memory loader.host }

/-- What is called when such a loader defines a unit. -/
def Loader.call {ρ : Type} (loader : Loader Settings UInt16) (thread : ThreadId) (name : Name)
    (raw : Bytes) : Call ρ MemoryContext :=
  ⟨loader.inMemory, thread, name, raw⟩

def Loader.linkedBehind (unit : Artifact) : Loader Settings UInt16 where
  packer := {}
  host := defaultHostApi
  cache := .processWide
  ancestor := some (.linked (Table.empty.insert unit.name unit))
  settings := { serialize := true }
  counters := ⟨0⟩

theorem Loader.linkedBehind_ancestors (unit : Artifact) :
    ∀ artifact ∈ (linkedBehind unit).resolver.artifacts, artifact.serial ≤ unit.serial := by
  intro artifact held
  obtain rfl := List.mem_singleton.mp held
  exact Nat.le_refl _

def World.FreshContexts (w : World) : Prop :=
  ∀ id : ContextId, w.nextContext ≤ id.index → w.built id = none

/-- The artifacts in caches were created. -/
def World.Grounded (w : World) : Prop :=
  ∀ cache name artifact, (w.entries cache).get? name = some artifact → artifact.serial ≤ w.created

/-! ### What callbacks leave alone -/

/-- What callbacks in memory leave alone. They bring no artifact back to life that none of the
    resolvers holds. -/
structure Confined (counters : CountersId) (artifacts : List Artifact) (w w' : World) : Prop where
  frame : w' = { w with
    created := w'.created
    held := w'.held
    counters := w'.counters
    nextContext := w'.nextContext
    built := w'.built
    contexts := w'.contexts
    journal := w'.journal }
  created : w.created ≤ w'.created
  nextContext : w.nextContext ≤ w'.nextContext
  counters : ∀ counter : Counter, counter.ofDefinitions →
    w'.counter counters counter = w.counter counters counter
  fresh : w.FreshContexts → w'.FreshContexts
  alive : ∀ artifact : Artifact, artifact.serial ≤ w.created →
    artifact.serial ∉ artifacts.map Artifact.serial → w'.alive artifact → w.alive artifact

/-- Callbacks in memory that release nothing. -/
structure Growing (counters : CountersId) (artifacts : List Artifact) (w w' : World) : Prop
    extends Confined counters artifacts w w' where
  keeps : ∀ artifact : Artifact, w.alive artifact → w'.alive artifact

variable {counters : CountersId} {artifacts : List Artifact}

theorem Confined.trans {w₁ w₂ w₃ : World} (first : Confined counters artifacts w₁ w₂)
    (second : Confined counters artifacts w₂ w₃) : Confined counters artifacts w₁ w₃ where
  frame := by
    rw [second.frame, first.frame]
  created := Nat.le_trans first.created second.created
  nextContext := Nat.le_trans first.nextContext second.nextContext
  counters counter own := (second.counters counter own).trans (first.counters counter own)
  fresh untouched := second.fresh (first.fresh untouched)
  alive artifact old unheld live :=
    first.alive artifact old unheld
      (second.alive artifact (Nat.le_trans old first.created) unheld live)

theorem Confined.marker {w w' : World} (confined : Confined counters artifacts w w') :
    w'.marker = w.marker := by
  rw [confined.frame]

theorem Growing.refl (w : World) : Growing counters artifacts w w where
  frame := rfl
  created := Nat.le_refl _
  nextContext := Nat.le_refl _
  counters _ _ := rfl
  fresh untouched := untouched
  alive _ _ _ live := live
  keeps _ live := live

theorem Growing.trans {w₁ w₂ w₃ : World} (first : Growing counters artifacts w₁ w₂)
    (second : Growing counters artifacts w₂ w₃) : Growing counters artifacts w₁ w₃ where
  toConfined := first.toConfined.trans second.toConfined
  keeps artifact live := second.keeps artifact (first.keeps artifact live)

theorem retainAll_growing (w : World) : Growing counters artifacts w (w.retainAll artifacts) where
  frame := by rw [World.retainAll_eq]
  created := Nat.le_of_eq (by rw [World.retainAll_eq])
  nextContext := Nat.le_of_eq (by rw [World.retainAll_eq])
  counters counter own := by rw [World.retainAll_eq]; rfl
  fresh untouched := by rw [World.retainAll_eq]; exact untouched
  alive artifact _ unheld live := (World.alive_retainAll.mp live).resolve_left unheld
  keeps artifact live := World.alive_retainAll.mpr (.inr live)

theorem releaseAll_confined (released : List Artifact) (w : World) :
    Confined counters artifacts w (w.releaseAll released) where
  frame := by rw [World.releaseAll_eq]
  created := Nat.le_of_eq (by rw [World.releaseAll_eq])
  nextContext := Nat.le_of_eq (by rw [World.releaseAll_eq])
  counters counter own := by rw [World.releaseAll_eq]; rfl
  fresh untouched := by rw [World.releaseAll_eq]; exact untouched
  alive artifact _ _ live := World.alive_of_alive_releaseAll live

theorem refuse_growing (refusing : CountersId) (name : Name) (w : World) :
    Growing counters artifacts w (Resolver.Tree.refuse refusing name w) where
  frame := rfl
  created := Nat.le_refl _
  nextContext := Nat.le_refl _
  counters counter own := by
    have other : counter ≠ .guardedMisses := by
      rintro rfl
      cases own
    by_cases same : counters = refusing
    · subst same
      exact (World.counter_count w counters .guardedMisses counter 1).trans (if_neg other)
    · exact World.counter_count_of_ne w .guardedMisses counter 1 same
  fresh untouched := untouched
  alive _ _ _ live := live
  keeps _ live := live

/-! ### Contexts -/

namespace MemoryContext

theorem retain_eq (context : MemoryContext) (w : World) : context.retain w =
    { w with
      held := (context.parent.artifacts.map Artifact.serial).reverse ++ w.held
      contexts := context.id :: w.contexts } := by
  rw [retain, Resolver.retain, World.retainAll_eq]

/-- A context that was made has the parent it was given, and the next id. Making it retains what the
    parent holds. -/
theorem instantiate_eq {api : UInt16} {image : Bytes} {parent : Resolver} {w w' : World}
    {context : MemoryContext} (made : instantiate api image parent w = (.ok context, w')) :
    context.parent = parent ∧ context.id = ⟨w.nextContext⟩ ∧
      w' = context.retain { w with nextContext := w.nextContext + 1 } := by
  unfold instantiate at made
  split at made
  · cases made
  · split at made
    · cases made
    · split at made
      · cases made
      · cases made
        exact ⟨rfl, rfl, rfl⟩

/-- A context that was made is that of an image that its bytes spell. -/
theorem image_of_instantiate {api : UInt16} {image : Bytes} {parent : Resolver} {w w' : World}
    {context : MemoryContext} (made : instantiate api image parent w = (.ok context, w')) :
    ∃ decoded, Image.decode image = .ok decoded ∧ context.unit.text = decoded.name ∧
      context.body = decoded.body ∧ context.imageSize = image.length := by
  unfold instantiate at made
  split at made
  · cases made
  · next decoded spells =>
    split at made
    · cases made
    · split at made
      · cases made
      · next unit named =>
        cases made
        exact ⟨decoded, spells, (Name.ofText_eq_ok_iff.mp named).symm, rfl, rfl⟩

theorem instantiate_error {api : UInt16} {image : Bytes} {parent : Resolver} {w w' : World}
    {cause : Failure} (failed : instantiate api image parent w = (.error cause, w')) : w' = w := by
  unfold instantiate at failed
  split at failed
  · cases failed; rfl
  · split at failed
    · cases failed; rfl
    · split at failed
      · cases failed; rfl
      · cases failed

private theorem counted_growing (id : ContextId) (w : World) : Growing counters artifacts w
    { w with nextContext := w.nextContext + 1, contexts := id :: w.contexts } where
  frame := rfl
  created := Nat.le_refl _
  nextContext := Nat.le_succ _
  counters _ _ := rfl
  fresh untouched id unmade := untouched id (Nat.le_of_succ_le unmade)
  alive _ _ _ live := live
  keeps _ live := live

theorem instantiate_growing (api : UInt16) (image : Bytes) (parent : Resolver) (w : World) :
    Growing counters parent.artifacts w (instantiate api image parent w).2 := by
  rcases made : instantiate api image parent w with ⟨cause | context, w'⟩
  · rw [instantiate_error made]
    exact .refl w
  obtain ⟨sameParent, -, rfl⟩ := instantiate_eq made
  rw [retain, sameParent, Resolver.retain]
  exact (counted_growing context.id w).trans (retainAll_growing _)

theorem instantiate_built (api : UInt16) (image : Bytes) (parent : Resolver) (w : World) :
    (instantiate api image parent w).2.built = w.built := by
  rcases made : instantiate api image parent w with ⟨cause | context, w'⟩
  · rw [instantiate_error made]
  · obtain ⟨-, -, rfl⟩ := instantiate_eq made
    rw [retain, Resolver.retain, World.retainAll_eq]

def fresh (context : MemoryContext) (w : World) : Artifact :=
  ⟨w.created + 1, context.unit, context.imageSize, .body context.body⟩

/-- The state in which a context has built its artifact and given it away. -/
def build (context : MemoryContext) (w : World) : World :=
  { w with
    created := w.created + 1
    held := (w.created + 1) :: (w.created + 1) :: w.held
    built := replace w.built context.id (some (context.fresh w)) }

/-- A context whose parent refuses the name and that has built nothing builds its artifact. -/
theorem load_refused {context : MemoryContext} {thread : ThreadId} {name : Name} {w w' : World}
    {missing : NotFound} (refused : context.parent.resolve thread name w = (.error missing, w'))
    (unbuilt : w'.built context.id = none) :
    context.load thread name w =
      if name = context.unit then (.ok (context.fresh w'), context.build w')
      else (.error (.notFound missing), w') := by
  unfold load
  rw [refused]
  simp only [own, unbuilt]
  rfl

theorem build_growing {context : MemoryContext} {w : World}
    (made : context.id.index < w.nextContext) :
    Growing counters artifacts w (context.build w) where
  frame := rfl
  created := Nat.le_succ _
  nextContext := Nat.le_refl _
  counters _ _ := rfl
  fresh untouched id unmade := by
    have other : id ≠ context.id := by
      rintro rfl
      exact absurd made (Nat.not_lt.mpr unmade)
    exact (replace_of_ne _ _ other).trans (untouched id unmade)
  alive artifact old _ live := by
    have different : artifact.serial ≠ w.created + 1 := by omega
    rw [World.alive_iff] at live ⊢
    exact List.mem_of_ne_of_mem different (List.mem_of_ne_of_mem different live)
  keeps artifact live := by
    rw [World.alive_iff] at live ⊢
    simp [build, live]

/-- The state after a context has lost a reference: with the last one it lets go of its artifact. -/
def letGo (context : MemoryContext) (w : World) : World :=
  if context.id ∈ w.contexts then w
  else
    match w.built context.id with
    | some artifact => { w with built := replace w.built context.id none }.release artifact
    | none => w

private theorem letGo_confined (context : MemoryContext) {w w₁ : World}
    (before : Confined counters artifacts w w₁) :
    Confined counters artifacts w (context.letGo w₁) := by
  unfold letGo
  split
  · exact before
  split
  · refine before.trans ⟨rfl, Nat.le_refl _, Nat.le_refl _, fun _ _ => rfl, ?_, ?_⟩
    · intro untouched id unmade
      by_cases same : id = context.id
      · rw [same]
        exact replace_self ..
      · exact (replace_of_ne _ _ same).trans (untouched id unmade)
    · intro artifact _ _ live
      exact World.alive_of_alive_release live
  · exact before

theorem close_confined (context : MemoryContext) (w : World) :
    Confined counters artifacts w (context.close w) := by
  have dropped : Confined counters artifacts w
      { w with contexts := w.contexts.erase context.id } :=
    ⟨rfl, Nat.le_refl _, Nat.le_refl _, fun _ _ => rfl, fun untouched => untouched,
      fun _ _ _ live => live⟩
  exact context.letGo_confined (dropped.trans (releaseAll_confined context.parent.artifacts _))

/-- Dropping a context makes it forget what it has built, and builds nothing. -/
theorem built_of_close {context : MemoryContext} {w : World} {id : ContextId} {artifact : Artifact}
    (built : (context.close w).built id = some artifact) : w.built id = some artifact := by
  have kept : (context.parent.release
      { w with contexts := w.contexts.erase context.id }).built id = w.built id := by
    rw [Resolver.release, World.releaseAll_eq]
  simp only [close] at built
  generalize context.parent.release { w with contexts := w.contexts.erase context.id } = w₁
    at kept built
  rw [← kept]
  split at built
  · exact built
  · split at built
    · by_cases same : id = context.id
      · rw [same] at built
        cases (replace_self ..).symm.trans built
      · exact (replace_of_ne _ _ same).symm.trans built
    · exact built

theorem close_built {context : MemoryContext} {w : World} {id : ContextId}
    (unbuilt : w.built id = none) : (context.close w).built id = none := by
  cases built : (context.close w).built id with
  | none => rfl
  | some artifact => cases unbuilt.symm.trans (built_of_close built)

/-- Dropping a context changes references, and what contexts have built. -/
theorem close_eq (context : MemoryContext) (w : World) : context.close w =
    { w with
      held := (context.close w).held
      built := (context.close w).built
      contexts := (context.close w).contexts } := by
  simp only [close]
  rw [Resolver.release, World.releaseAll_eq]
  split
  · rfl
  · split <;> rfl

/-- Dropping a context takes away the references of its parent, and at most one to the artifact that
    it has built. -/
theorem count_close {context : MemoryContext} {w : World} {artifact : Artifact}
    (built : w.built context.id = some artifact) (serial : Nat) :
    (context.close w).held.count serial =
        w.held.count serial - (context.parent.artifacts.map Artifact.serial).count serial ∨
      artifact.serial = serial ∧ (context.close w).held.count serial =
        w.held.count serial - (context.parent.artifacts.map Artifact.serial).count serial - 1 := by
  have released := World.count_releaseAll context.parent.artifacts serial
    { w with contexts := w.contexts.erase context.id }
  have kept : (context.parent.release
      { w with contexts := w.contexts.erase context.id }).built context.id = some artifact := by
    rw [Resolver.release, World.releaseAll_eq]
    exact built
  simp only [close]
  rw [← released, ← Resolver.release]
  generalize context.parent.release { w with contexts := w.contexts.erase context.id } = w₁ at kept ⊢
  split
  · exact .inl rfl
  · simp only [kept, World.release, List.count_erase, beq_iff_eq]
    by_cases own : artifact.serial = serial
    · exact .inr ⟨own, by rw [if_pos own]⟩
    · exact .inl (by rw [if_neg own, Nat.sub_zero])

/-- An artifact that somebody else holds outlives the context that has built it. -/
theorem alive_close {context : MemoryContext} {w : World} {artifact : Artifact}
    (built : w.built context.id = some artifact) (twice : 2 ≤ w.held.count artifact.serial)
    (other : artifact.serial ∉ context.parent.artifacts.map Artifact.serial) :
    (context.close w).alive artifact := by
  have unheld := List.count_eq_zero.mpr other
  rw [World.alive_iff, ← List.count_pos_iff]
  rcases count_close built artifact.serial with count | ⟨-, count⟩ <;> omega

section
variable {τ η : Type} {loader : Loader τ η} {context : MemoryContext} {thread : ThreadId}
  {name : Name} {w : World} (parent : context.parent = loader.resolver)
  (marked : w.marker thread = some name) (unbuilt : w.built context.id = none)
include parent marked unbuilt

/-- A context that asks the loader's resolver and has built nothing builds its artifact, if any, while
    its thread is marked with the name. -/
private theorem load_marked_eq : context.load thread name w =
    let w' := Resolver.Tree.refuse loader.counters name w
    if name = context.unit then (.ok (context.fresh w'), context.build w')
    else (.error (.notFound ⟨name⟩), w') := by
  refine load_refused ?_ unbuilt
  rw [parent, loader.resolver_eq, Resolver.resolve_guarded, if_pos marked]

variable (artifacts) in
theorem load_growing (made : context.id.index < w.nextContext) :
    Growing counters artifacts w (context.load thread name w).2 := by
  have refusing : Growing counters artifacts w (Resolver.Tree.refuse loader.counters name w) :=
    refuse_growing _ name w
  rw [load_marked_eq parent marked unbuilt]
  by_cases same : name = context.unit
  · simp only [if_pos same]
    exact refusing.trans (build_growing made)
  · simp only [if_neg same]
    exact refusing

variable (artifacts) in
/-- What it gives is its own unit, and new, and it leaves other contexts alone. -/
theorem load_marked (made : context.id.index < w.nextContext) :
    Growing loader.counters artifacts w (context.load thread name w).2 ∧
      (∀ artifact, (context.load thread name w).1 = .ok artifact →
        name = context.unit ∧ artifact = context.fresh w ∧
          (context.load thread name w).2.created = artifact.serial) ∧
      ∀ id, id ≠ context.id → (context.load thread name w).2.built id = w.built id := by
  refine ⟨load_growing artifacts parent marked unbuilt made, ?_⟩
  rw [load_marked_eq parent marked unbuilt]
  by_cases same : name = context.unit
  · simp only [if_pos same]
    refine ⟨?_, fun _ other => replace_of_ne _ _ other⟩
    rintro _ ⟨⟩
    exact ⟨same, rfl, rfl⟩
  · simp only [if_neg same]
    exact ⟨by simp, fun _ _ => rfl⟩

end

end MemoryContext

/-! ### The callbacks of a definition -/

theorem Host.run_load {ρ : Type} (api : UInt16) (context : MemoryContext) (thread : ThreadId)
    (name : Name) (s : System ρ) : ((memory api).load thread context name).run.run.run s =
      some (.ok ((context.load thread name s.world).1.map some),
        { s with world := (context.load thread name s.world).2 }) := by
  show (some <$> ExceptT.mk (Action.onWorld fun w => context.load thread name w)).run.run.run s = _
  simp only [ExceptT.run_map, ExceptT.run_mk, Action.onWorld, Action.atomically, ExceptT.run_lift,
    Functor.map_map, Program.run_map, Program.run_atomically]
  rfl

namespace Loader

variable {ρ : Type} (loader : Loader Settings UInt16) (thread : ThreadId) (name : Name)
  (raw : Bytes)

theorem packs_call (s : System ρ) :
    (loader.call thread name raw).packs s = some (.ok (loader.packer.pack name raw), s) := rfl

theorem instantiates_call (image : Bytes) (s : System ρ) :
    (loader.call thread name raw).instantiates image s =
      some (.ok (MemoryContext.instantiate loader.host image loader.resolver s.world).1,
        { s with
          world := (MemoryContext.instantiate loader.host image loader.resolver s.world).2 }) := rfl

theorem loads_call (context : MemoryContext) (s : System ρ) :
    (loader.call thread name raw).loads context s =
      some (.ok ((context.load thread name s.world).1.map some),
        { s with world := (context.load thread name s.world).2 }) :=
  Host.run_load loader.host context thread name s

/-- A context that a definition has made asks the loader's resolver, and has built nothing. -/
theorem context_of_builds {s s₁ s₂ : System ρ} {image : Bytes} {context : MemoryContext}
    (fresh : s.world.FreshContexts)
    (packs : (loader.call thread name raw).packs s = some (.ok (.ok image), s₁))
    (builds : (loader.call thread name raw).instantiates image s₁ =
      some (.ok (.ok context), s₂)) :
    context.parent = loader.resolver ∧ s₂.world.marker = s.world.marker ∧
      s₂.world.built context.id = none ∧ context.id.index < s₂.world.nextContext ∧
      s₂.world.created = s.world.created := by
  obtain ⟨-, rfl⟩ := Prod.mk.inj (Option.some.inj packs)
  rw [loader.instantiates_call] at builds
  obtain ⟨ended, rfl⟩ := Prod.mk.inj (Option.some.inj builds)
  rcases made : MemoryContext.instantiate loader.host image loader.resolver s.world with ⟨built, w⟩
  rw [made] at ended
  obtain rfl : built = .ok context := Except.ok.inj ended
  obtain ⟨parent, id, rfl⟩ := MemoryContext.instantiate_eq made
  rw [MemoryContext.retain, Resolver.retain, World.retainAll_eq, id]
  exact ⟨parent, rfl, fresh _ (Nat.le_refl _), Nat.lt_succ_self _, rfl⟩

/-- While the thread is marked with the name, the callbacks of a definition in memory end, and are
    confined. -/
theorem callbacks_call {s : System ρ} (marked : s.world.marker thread = some name)
    (fresh : s.world.FreshContexts) :
    (loader.call thread name raw).Callbacks
      (Growing loader.counters loader.resolver.artifacts)
      (Confined loader.counters loader.resolver.artifacts) s where
  pack := ⟨_, loader.packs_call thread name raw s, .refl _⟩
  instantiate image s₁ _ := by
    refine ⟨_, loader.instantiates_call thread name raw image s₁, ?_⟩
    exact MemoryContext.instantiate_growing ..
  load image s₁ context s₂ packs builds := by
    obtain ⟨parent, marker, unbuilt, made, -⟩ :=
      loader.context_of_builds thread name raw fresh packs builds
    refine ⟨_, loader.loads_call thread name raw context _, ?_, ?_⟩
    · exact (MemoryContext.load_marked _ parent (by rw [marker, marked]) unbuilt made).1
    · exact MemoryContext.close_confined ..

end Loader

end Reload
