import Reload.Proofs.Definition.Making

/-!
How a definition in memory ends. It fails as its packer does, or because the host has a lower level
than the images need, and otherwise gives an artifact with the body of the unit (`define_outcome`).
-/

namespace Reload

/-! ### The outcome -/

/-- How a definition in memory ends, as its packer and the level of its host decide it. -/
structure Loader.Outcome (loader : Loader Settings UInt16) (name : Name) (raw : Bytes)
    (ending : Ending) : Prop where
  refused : ∀ cause, loader.packer.pack name raw = .error cause →
    ending = .ok (.error ⟨name, cause⟩)
  outdated : ∀ image, loader.packer.pack name raw = .ok image →
    loader.host < loader.packer.minHostApi →
    ending = .ok (.error ⟨name, .outdatedHost loader.packer.minHostApi loader.host⟩)
  loaded : ∀ image, loader.packer.pack name raw = .ok image →
    loader.packer.minHostApi ≤ loader.host →
    ∃ unit artifact, SourceUnit.decode raw = .ok unit ∧ ending = .ok (.ok artifact) ∧
      artifact.name = name ∧ artifact.imageSize = image.length ∧
      image.length = 16 + (Wire.utf8 name.text).length + unit.body.length ∧
      artifact.payload = .body unit.body

namespace Loader

section
variable {loader : Loader Settings UInt16} {name : Name} {raw : Bytes} {ending : Ending}

/-- A definition that fails fails as the packer, and blames the unit, or as the host, and does not. -/
theorem Outcome.failed (outcome : loader.Outcome name raw ending) {failure : DefinitionFailure}
    (ends : ending = .ok (.error failure)) : failure.name = name ∧
      ((loader.packer.pack name raw = .error failure.cause ∧ failure.blamesUnit = true) ∨
      ((∃ image, loader.packer.pack name raw = .ok image) ∧ failure.blamesUnit = false ∧
        failure.cause = .outdatedHost loader.packer.minHostApi loader.host)) := by
  rcases packed : loader.packer.pack name raw with cause | image
  · obtain rfl := Except.error.inj (Except.ok.inj (ends.symm.trans (outcome.refused cause packed)))
    exact ⟨rfl, .inl ⟨rfl, Settings.blamesUnit_of_pack packed⟩⟩
  · by_cases level : loader.host < loader.packer.minHostApi
    · have outdated := outcome.outdated image packed level
      obtain rfl := Except.error.inj (Except.ok.inj (ends.symm.trans outdated))
      exact ⟨rfl, .inr ⟨⟨image, rfl⟩, rfl, rfl⟩⟩
    · obtain ⟨-, artifact, -, succeeds, -⟩ :=
        outcome.loaded image packed (UInt16.not_lt.mp level)
      cases ends.symm.trans succeeds

end

variable {ρ : Type} (loader : Loader Settings UInt16) (thread : ThreadId) (name : Name)
  (raw : Bytes)

variable {loader name raw} in
/-- The work of a definition in memory ends as its packer and the level of its host decide. -/
theorem Makes.outcome {w w' : World} {result : Result} (makes : loader.Makes name raw w result w') :
    loader.Outcome name raw (Result.ending name result) := by
  cases makes with
  | @refused cause packs =>
    refine ⟨fun cause' packs' => ?_, ?_, ?_⟩
    · obtain rfl := Except.error.inj (packs.symm.trans packs')
      rfl
    · simp [packs]
    · simp [packs]
  | outdated packs level =>
    refine ⟨?_, fun _ _ _ => rfl, fun _ _ enough => ?_⟩
    · simp [packs]
    · exact absurd level (UInt16.not_lt.mpr enough)
  | @loaded image unit context w₁ packs level decoded _ _ named body size =>
    refine ⟨?_, fun _ _ outdated => ?_, fun image' packs' _ => ?_⟩
    · simp [packs]
    · exact absurd outdated (UInt16.not_lt.mpr level)
    · obtain rfl := Except.ok.inj (packs.symm.trans packs')
      obtain ⟨unit', decoded', written⟩ := Settings.encode_of_pack packs
      obtain rfl := Except.ok.inj (decoded.symm.trans decoded')
      exact ⟨unit, context.fresh w₁, decoded, rfl, named, size, Image.length_encode written,
        congrArg Payload.body body⟩

theorem run_work_outcome {s : System ρ} (marked : s.world.marker thread = some name)
    (fresh : s.world.FreshContexts) :
    ∃ result s', (loader.call thread name raw).work.run.run.run s = some (result, s') ∧
      loader.Outcome name raw (Result.ending name result) := by
  obtain ⟨result, w, worked, makes⟩ := loader.run_work_makes thread name raw marked fresh
  exact ⟨result, _, worked, makes.outcome⟩

/-- Loaders with a packer and a host that match, and any cache and ancestor. -/
inductive Matching : Loader Settings UInt16 → Prop where
  | create (settings : Settings) (w : World) : Matching (createMatching id id settings w).1
  | withCache {loader : Loader Settings UInt16} (cache : CacheId) (matching : Matching loader) :
    Matching (loader.withCache cache)
  | withAncestor {loader : Loader Settings UInt16} (ancestor : Resolver)
    (matching : Matching loader) : Matching (loader.withAncestor ancestor)

theorem Matching.level {loader : Loader Settings UInt16} (matching : loader.Matching) :
    loader.packer.minHostApi ≤ loader.host := by
  induction matching with
  | create settings w =>
    show settings.minHostApi ≤ if settings.minHostApi ≤ defaultHostApi then _ else _
    split
    · assumption
    · exact UInt16.le_refl _
  | withCache cache matching ih => exact ih
  | withAncestor ancestor matching ih => exact ih

/-- On a thread without a marker, and with the definition lock of the name free, a definition in
    memory ends. It fails as its packer, or with a failure of the host if that has a lower level than
    the images need, and otherwise gives an artifact of the whole unit. It fails for no other
    reason, and blames the unit only if the packer does. If packer and host match, it
    succeeds whenever the packer does. -/
theorem define_outcome (s : System ρ) (unmarked : s.world.marker thread = none)
    (free : ∀ lock ∈ (loader.call (ρ := ρ) thread name raw).lock? s.world, s.world.isFree lock)
    (fresh : s.world.FreshContexts) :
    ∃ ending s', (loader.inMemory.define thread name raw).run.run s = some (ending, s') ∧
      loader.Outcome name raw ending ∧
      (∀ failure, ending = .ok (.error failure) → failure.name = name ∧
        failure.cause ≠ .emptyResult ∧ (∀ missing, failure.cause ≠ .notFound missing) ∧
        (∀ invalid, failure.cause ≠ .invalidName invalid) ∧
        (∀ running, failure.cause ≠ .inFlight running) ∧
        (failure.blamesUnit ↔ ∃ cause, loader.packer.pack name raw = .error cause)) ∧
      (loader.Matching → ((∃ artifact, ending = .ok (.ok artifact)) ↔
        ∃ image, loader.packer.pack name raw = .ok image)) := by
  let call : Call ρ MemoryContext := loader.call thread name raw
  have marked : (call.entered s.world).marker thread = some name := by
    rw [call.entered_eq s.world unmarked, call.noted_eq]
    exact replace_self ..
  have fresh₁ : (call.entered s.world).FreshContexts := by
    rw [call.entered_eq s.world unmarked, call.noted_eq, call.locked_eq]
    exact fresh
  obtain ⟨result, s', worked, outcome⟩ := loader.run_work_outcome thread name raw
    (s := { s with world := call.entered s.world }) marked fresh₁
  have ran := call.run_define s unmarked free
  rw [worked] at ran
  refine ⟨_, _, ran, outcome, fun failure ends => ?_, fun matching => ⟨?_, ?_⟩⟩
  · obtain ⟨named, ⟨packed, blames⟩ | ⟨⟨image, packed⟩, blames, cause⟩⟩ := outcome.failed ends
    · have blamed : failure.cause.blamesUnit = true := blames
      refine ⟨named, ?_, ?_, ?_, ?_, fun _ => ⟨_, packed⟩, fun _ => blames⟩
      all_goals (intros; intro same; rw [same] at blamed; cases blamed)
    · refine ⟨named, ?_, ?_, ?_, ?_, fun blamed => ?_, fun ⟨_, packed'⟩ => ?_⟩
      · rw [cause]; nofun
      · rw [cause]; nofun
      · rw [cause]; nofun
      · rw [cause]; nofun
      · cases blames.symm.trans blamed
      · cases packed.symm.trans packed'
  · rintro ⟨artifact, succeeds⟩
    rcases packed : loader.packer.pack name raw with cause | image
    · cases succeeds.symm.trans (outcome.refused cause packed)
    · exact ⟨image, rfl⟩
  · rintro ⟨image, packed⟩
    obtain ⟨-, artifact, -, succeeds, -⟩ := outcome.loaded image packed matching.level
    exact ⟨artifact, succeeds⟩

/-- A definition by a loader with an ancestor that knows the name, for units of level 30, and one by
    the same loader with a host of the default level. -/
theorem define_outcome_matching :
    let unit : Artifact := ⟨1, ⟨"a", by decide⟩, 0, .nothing⟩
    let loader := (createMatching id id { minHostApi := 30, serialize := true } {}).1.withAncestor
      (.linked (Table.empty.insert unit.name unit))
    let raw : Bytes := [0x48, 0x53, 0x55, 0x31, 0, 0, 7]
    let s : System Unit := ⟨{ created := 1, held := [1] }, ()⟩
    (∃ artifact s', (loader.inMemory.define .first unit.name raw).run.run s =
        some (.ok (.ok artifact), s') ∧ artifact.name = unit.name ∧
        artifact.imageSize = 18 ∧ artifact.payload = .body [7]) ∧
      ∃ s', ({ loader with host := defaultHostApi }.inMemory.define .first unit.name raw).run.run s =
        some (.ok (.error ⟨unit.name, .outdatedHost 30 defaultHostApi⟩), s') := by
  intro unit loader raw s
  obtain ⟨image, packed⟩ : ∃ image, loader.packer.pack unit.name raw = .ok image :=
    Settings.exists_pack ⟨"", [7]⟩ rfl (by decide) nofun (by decide) (by decide)
  have matching : loader.Matching := .withAncestor _ (.create _ _)
  constructor
  · obtain ⟨_, s', ran, outcome, -⟩ :=
      define_outcome loader .first unit.name raw s rfl (fun _ _ => rfl) fun _ _ => rfl
    obtain ⟨source, artifact, decoded, rfl, named, size, length, payload⟩ :=
      outcome.loaded image packed matching.level
    have spelled : SourceUnit.decode raw = .ok ⟨"", [7]⟩ := SourceUnit.decode_encode rfl
    obtain rfl := Except.ok.inj (decoded.symm.trans spelled)
    have text : (Wire.utf8 unit.name.text).length = 1 := rfl
    rw [text] at length
    exact ⟨artifact, s', ran, named, size.trans length, payload⟩
  · obtain ⟨_, s', ran, outcome, -⟩ :=
      define_outcome { loader with host := defaultHostApi } .first unit.name raw s rfl
        (fun _ _ => rfl) fun _ _ => rfl
    obtain rfl := outcome.outdated image packed (by decide)
    exact ⟨s', ran⟩

end Loader

end Reload
