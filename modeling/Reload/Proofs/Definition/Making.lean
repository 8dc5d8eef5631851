import Reload.Proofs.Definition.Memory

/-!
What the work of a definition in memory makes of a state. Everything that settings can pack, a host of a
sufficient level loads again, under the same name. So the work stops with the packer, or because the host
has a lower level than the images need, or makes one new artifact (`Loader.Makes`). Nothing else comes
to life by it, and nothing dies.
-/

namespace Reload

/-! ### What is packed and made of it -/

/-- The failure of a host that has a lower level than an image needs. -/
def Failure.outdatedHost (needed provided : UInt16) : Failure :=
  .instantiation ("image requires host API " ++ toString needed.toNat
    ++ " but host provides " ++ toString provided.toNat)

namespace MemoryContext

variable {settings : Settings} {name : Name} {raw image : Bytes}

/-- A host makes a context of an image of a unit only if its level suffices, and then of the whole
    unit. -/
theorem instantiate_packed (packed : settings.pack name raw = .ok image) (api : UInt16)
    (parent : Resolver) (w : World) :
    (api < settings.minHostApi ∧ instantiate api image parent w =
      (.error (.outdatedHost settings.minHostApi api), w)) ∨
    (settings.minHostApi ≤ api ∧ ∃ context w' unit,
      instantiate api image parent w = (.ok context, w') ∧ SourceUnit.decode raw = .ok unit ∧
      context.unit = name ∧ context.body = unit.body ∧ context.imageSize = image.length) := by
  obtain ⟨unit, decoded, written⟩ := Settings.encode_of_pack packed
  have spells := Image.decode_encode written
  by_cases outdated : api < settings.minHostApi
  · refine .inl ⟨outdated, ?_⟩
    simp only [instantiate, spells, if_pos outdated]
    rfl
  · refine .inr ⟨UInt16.not_lt.mp outdated, ?_⟩
    simp only [instantiate, spells, if_neg outdated, Name.ofText_text]
    exact ⟨_, _, unit, rfl, decoded, rfl, rfl, rfl⟩

end MemoryContext

/-! ### The work -/

/-- What the work of a definition in memory makes of a state: nothing if the packer refuses the unit, or
    if the host has a lower level than the image needs. Otherwise a context of the image builds an
    artifact, which is published, and is dropped. -/
inductive Loader.Makes (loader : Loader Settings UInt16) (name : Name) (raw : Bytes) (w : World) :
    Result → World → Prop where
  | refused {cause : Failure} (packs : loader.packer.pack name raw = .error cause) :
    Makes loader name raw w (.ok (.error cause)) w
  | outdated {image : Bytes} (packs : loader.packer.pack name raw = .ok image)
      (level : loader.host < loader.packer.minHostApi) :
    Makes loader name raw w
      (.ok (.error (.outdatedHost loader.packer.minHostApi loader.host))) w
  | loaded {image : Bytes} {unit : SourceUnit} {context : MemoryContext} {w₁ : World}
      (packs : loader.packer.pack name raw = .ok image)
      (level : loader.packer.minHostApi ≤ loader.host)
      (decoded : SourceUnit.decode raw = .ok unit)
      (parent : context.parent = loader.resolver) (id : context.id = ⟨w.nextContext⟩)
      (named : context.unit = name) (body : context.body = unit.body)
      (size : context.imageSize = image.length)
      (asked : w₁ = Resolver.Tree.refuse loader.counters name
        (context.retain { w with nextContext := w.nextContext + 1 })) :
    Makes loader name raw w
      (.ok (.ok (context.fresh w₁,
        ((context.build w₁).publish loader.cache name (context.fresh w₁)).1)))
      (context.close ((context.build w₁).publish loader.cache name (context.fresh w₁)).2)

namespace Loader

variable {ρ : Type} (loader : Loader Settings UInt16) (thread : ThreadId) (name : Name)
  (raw : Bytes)

private theorem context_loads {s : System ρ} {context : MemoryContext} {w : World}
    (marked : s.world.marker thread = some name) (fresh : s.world.FreshContexts) {image : Bytes}
    (made : MemoryContext.instantiate loader.host image loader.resolver s.world = (.ok context, w))
    (unit : context.unit = name) :
    (loader.call thread name raw).loads context { s with world := w } =
      some (.ok (.ok (some (context.fresh (Resolver.Tree.refuse loader.counters name w)))),
        { s with world := context.build (Resolver.Tree.refuse loader.counters name w) }) := by
  obtain ⟨parent, id, retained⟩ := MemoryContext.instantiate_eq made
  have same : w.marker = s.world.marker ∧ w.built = s.world.built := by
    rw [retained, MemoryContext.retain_eq]
    exact ⟨rfl, rfl⟩
  -- The marker that refuses the name to the context's parent is the definition's own.
  have refused : context.parent.resolve thread name w =
      (.error ⟨name⟩, Resolver.Tree.refuse loader.counters name w) := by
    rw [parent, loader.resolver_eq, Resolver.resolve_guarded, if_pos (by rw [same.1, marked])]
  have unbuilt : (Resolver.Tree.refuse loader.counters name w).built context.id = none := by
    rw [show (Resolver.Tree.refuse loader.counters name w).built = w.built from rfl, same.2, id]
    exact fresh _ (Nat.le_refl _)
  rw [loader.loads_call, MemoryContext.load_refused refused unbuilt, if_pos unit.symm]
  rfl

/-- While the thread is marked with the name, the work of a definition in memory ends. -/
theorem run_work_makes {s : System ρ} (marked : s.world.marker thread = some name)
    (fresh : s.world.FreshContexts) :
    ∃ result w, (loader.call thread name raw).work.run.run.run s =
      some (result, { s with world := w }) ∧ loader.Makes name raw s.world result w := by
  let call : Call ρ MemoryContext := loader.call thread name raw
  have packs : call.packs s = some (.ok (loader.packer.pack name raw), s) :=
    loader.packs_call thread name raw s
  rcases packed : loader.packer.pack name raw with cause | image
  · rw [packed] at packs
    exact ⟨_, _, by rw [call.work_eq, call.run_packing packs]; rfl, .refused packed⟩
  rw [packed] at packs
  have builds := loader.instantiates_call thread name raw image s
  rcases MemoryContext.instantiate_packed packed loader.host loader.resolver s.world with
    ⟨level, made⟩ | ⟨level, context, w, unit, made, decoded, named, body, size⟩
  · rw [made] at builds
    refine ⟨_, _, ?_, .outdated packed level⟩
    rw [call.work_eq, call.run_packing packs]
    exact call.run_instantiating builds
  · rw [made] at builds
    have loads := loader.context_loads thread name raw marked fresh made named
    have worked := call.run_work_of_builds packs builds loads
    obtain ⟨parent, id, retained⟩ := MemoryContext.instantiate_eq made
    exact ⟨_, _, worked,
      .loaded packed level decoded parent id named body size (congrArg _ retained)⟩

/-! ### What else it changes -/

namespace Makes

variable {loader name raw} {w w' : World} {result : Result} (makes : loader.Makes name raw w result w')
include makes

/-- The work does not panic. -/
theorem ends : ∃ ended, result.ending name = .ok ended := by
  cases makes with
  | refused => exact ⟨_, rfl⟩
  | outdated => exact ⟨_, rfl⟩
  | loaded => exact ⟨_, rfl⟩

/-- What is packed for a host of a sufficient level becomes an artifact. -/
theorem succeeds {image : Bytes} (packed : loader.packer.pack name raw = .ok image)
    (level : loader.packer.minHostApi ≤ loader.host) :
    ∃ artifact swept, result = .ok (.ok (artifact, swept)) := by
  cases makes with
  | refused packs => cases packs.symm.trans packed
  | outdated _ outdated => exact absurd level (UInt16.not_le.mpr outdated)
  | loaded => exact ⟨_, _, rfl⟩

/-- Markers and locks are left alone. -/
theorem frame : w' = { w with
    created := w'.created
    held := w'.held
    entries := w'.entries
    counters := w'.counters
    nextContext := w'.nextContext
    built := w'.built
    contexts := w'.contexts
    journal := w'.journal } := by
  cases makes with
  | refused => rfl
  | outdated => rfl
  | @loaded _ _ context _ _ _ _ _ _ _ _ _ asked =>
    rw [context.close_eq, asked, context.retain_eq]
    rfl

/-- Nothing is published in another cache. -/
theorem entries_of_ne {cache : CacheId} (other : cache ≠ loader.cache) :
    w'.entries cache = w.entries cache := by
  cases makes with
  | refused => rfl
  | outdated => rfl
  | @loaded _ _ context _ _ _ _ _ _ _ _ _ asked =>
    rw [context.close_eq, asked, context.retain_eq]
    exact replace_of_ne _ _ other

/-- Contexts that were not made yet have still built nothing. -/
theorem fresh (untouched : w.FreshContexts) : w'.FreshContexts := by
  cases makes with
  | refused => exact untouched
  | outdated => exact untouched
  | @loaded _ _ context w₁ _ _ _ _ id _ _ _ asked =>
    have next : w₁.nextContext = w.nextContext + 1 ∧ w₁.built = w.built := by
      rw [asked, context.retain_eq]
      exact ⟨rfl, rfl⟩
    have closed : Confined loader.counters []
        ((context.build w₁).publish loader.cache name (context.fresh w₁)).2 _ := context.close_confined _
    refine closed.fresh fun other unmade => ?_
    have unmade : w.nextContext + 1 ≤ other.index := next.1 ▸ unmade
    have elsewhere : other ≠ context.id := by
      rintro rfl
      rw [id] at unmade
      exact absurd unmade (Nat.not_succ_le_self _)
    refine (replace_of_ne _ _ elsewhere).trans ?_
    rw [next.2]
    exact untouched other (Nat.le_of_succ_le unmade)

/-- An artifact that was made is the one that was created. -/
theorem created {artifact : Artifact} {swept : Nat} (ends : result = .ok (.ok (artifact, swept))) :
    artifact.serial = w.created + 1 ∧ w'.created = w.created + 1 := by
  cases makes with
  | refused => cases ends
  | outdated => cases ends
  | @loaded _ _ context w₁ _ _ _ _ _ _ _ _ asked =>
    have same : w₁.created = w.created := by
      rw [asked, context.retain_eq]
      rfl
    cases ends
    refine ⟨congrArg (· + 1) same, ?_⟩
    rw [context.close_eq]
    exact congrArg (· + 1) same

theorem created_le : w.created ≤ w'.created := by
  cases makes with
  | refused => exact Nat.le_refl _
  | outdated => exact Nat.le_refl _
  | @loaded _ _ context _ _ _ _ _ _ _ _ _ asked =>
    rw [context.close_eq, asked, context.retain_eq]
    exact Nat.le_succ _

/-- What was created before is held afterwards as often as before. -/
theorem count_held {serial : Nat} (old : serial ≤ w.created) :
    w'.held.count serial = w.held.count serial := by
  cases makes with
  | refused => rfl
  | outdated => rfl
  | @loaded _ _ context w₁ _ _ _ _ _ _ _ _ asked =>
    have same : w₁.created = w.created ∧ w₁.held =
        (context.parent.artifacts.map Artifact.serial).reverse ++ w.held := by
      rw [asked, context.retain_eq]
      exact ⟨rfl, rfl⟩
    have other : w₁.created + 1 ≠ serial := by omega
    let published := ((context.build w₁).publish loader.cache name (context.fresh w₁)).2
    have before : published.held.count serial =
        (context.parent.artifacts.map Artifact.serial).count serial + w.held.count serial := by
      show ((w₁.created + 1) :: (w₁.created + 1) :: w₁.held).count serial = _
      rw [List.count_cons_of_ne other, List.count_cons_of_ne other, same.2, List.count_append,
        List.count_reverse]
    have built : published.built context.id = some (context.fresh w₁) := replace_self ..
    rcases MemoryContext.count_close built serial with count | ⟨own, -⟩
    · rw [count, before, Nat.add_sub_cancel_left]
    · exact absurd own other

/-- What was created before is as alive as before. -/
theorem alive_old {artifact : Artifact} (old : artifact.serial ≤ w.created) :
    w'.alive artifact = w.alive artifact := by
  rw [Bool.eq_iff_iff, World.alive_iff, World.alive_iff, ← List.count_pos_iff, ← List.count_pos_iff,
    makes.count_held old]

/-- The new artifact is alive, since the caller holds it. -/
theorem alive_new {artifact : Artifact} {swept : Nat} (ends : result = .ok (.ok (artifact, swept)))
    (ancestors : ∀ artifact ∈ loader.resolver.artifacts, artifact.serial ≤ w.created) :
    w'.alive artifact := by
  obtain ⟨serial, -⟩ := makes.created ends
  cases makes with
  | refused => cases ends
  | outdated => cases ends
  | @loaded _ _ context w₁ _ _ _ parent =>
    cases ends
    refine MemoryContext.alive_close (replace_self ..) ?_ ?_
    · show 2 ≤ ((w₁.created + 1) :: (w₁.created + 1) :: w₁.held).count (w₁.created + 1)
      rw [List.count_cons_self, List.count_cons_self]
      omega
    · intro held
      obtain ⟨ancestor, listed, same⟩ := List.mem_map.mp (parent ▸ held)
      have old := ancestors ancestor listed
      omega

/-- Nothing is counted but one refusal, when the context asks its parent for the name. -/
theorem counter (id : CountersId) (counter : Counter) : w'.counter id counter =
    w.counter id counter + if id = loader.counters ∧ counter = .guardedMisses ∧
      (result.ending name).artifact?.isSome then 1 else 0 := by
  cases makes with
  | refused => simp [Result.ending, Ending.artifact?]
  | outdated => simp [Result.ending, Ending.artifact?]
  | @loaded _ _ context w₁ _ _ _ _ _ _ _ _ asked =>
    have closed : (context.close ((context.build w₁).publish loader.cache name
        (context.fresh w₁)).2).counter id counter = w₁.counter id counter := by
      rw [context.close_eq]
      rfl
    have refused : w₁.counter id counter = w.counter id counter +
        if id = loader.counters ∧ counter = .guardedMisses then 1 else 0 := by
      rw [asked, context.retain_eq]
      by_cases own : id = loader.counters
      · subst own
        refine (World.counter_count _ loader.counters .guardedMisses counter 1).trans ?_
        by_cases guarded : counter = .guardedMisses <;> simp [guarded, World.counter]
      · refine (World.counter_count_of_ne _ .guardedMisses counter 1 own).trans ?_
        simp [own, World.counter]
    rw [closed, refused]
    simp [Result.ending, Ending.artifact?]

end Makes

end Loader

end Reload
