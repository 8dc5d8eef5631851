import Reload.Proofs.Definition.Effect

/-!
Definitions of different names can change places. Whether a definition is acceptable has nothing to do
with the cache, so both end in the other order as they did. A dead entry of one name that the definition
of the other sweeps is not there to be redefined, and the other way round, so only the sum of both counts
is the same. Otherwise the ends differ in the serial numbers of the new artifacts and in nothing else
that can be seen (`define_commutes`).
-/

namespace Reload

/-- A name has an entry if there is something to see. -/
theorem World.contains_eq_isSome_sight (w : World) (cache : CacheId) (name : Name) :
    w.contains cache name = (w.sight cache name).isSome := by
  rw [sight, Option.isSome_map]
  rfl

namespace Loader

/-- How a definition ends is settled by its packer and the level of its host, apart from the serial number
    of the artifact. -/
theorem Outcome.unnumbered {loader : Loader Settings UInt16} {name : Name} {raw : Bytes}
    {ended ended' : Except DefinitionFailure Artifact} (outcome : loader.Outcome name raw (.ok ended))
    (outcome' : loader.Outcome name raw (.ok ended')) :
    ended'.map Artifact.unnumbered = ended.map Artifact.unnumbered := by
  rcases packed : loader.packer.pack name raw with cause | image
  · cases outcome.refused cause packed
    cases outcome'.refused cause packed
    rfl
  by_cases level : loader.host < loader.packer.minHostApi
  · cases outcome.outdated image packed level
    cases outcome'.outdated image packed level
    rfl
  · have enough := UInt16.not_lt.mp level
    obtain ⟨unit, ⟨_, _, _, _⟩, decoded, ⟨⟩, named, size, -, payload⟩ :=
      outcome.loaded image packed enough
    obtain ⟨unit', ⟨_, _, _, _⟩, decoded', ⟨⟩, named', size', -, payload'⟩ :=
      outcome'.loaded image packed enough
    obtain rfl := Except.ok.inj (decoded.symm.trans decoded')
    simp only at named size payload named' size' payload'
    subst named size payload named' size' payload'
    rfl

/-- What the same definitions leave in two orders, from the same state. Only the new artifacts of the
    defined names differ, and those only in their serial numbers. -/
structure Interchanged (loader : Loader Settings UInt16) (start : World) (names : List Name)
    (w w' : World) : Prop where
  cached : ∀ name, w'.contains loader.cache name = w.contains loader.cache name
  size : w'.cacheSize loader.cache = w.cacheSize loader.cache
  /-- Entries are as alive, and their artifacts have the same name, image size and payload. -/
  sights : ∀ name, w'.sight loader.cache name = w.sight loader.cache name
  others : ∀ name, name ∉ names →
    (w'.entries loader.cache).get? name = (w.entries loader.cache).get? name
  /-- Which entries were redefined and which were swept may differ, but not how many are gone. -/
  removed : w'.counter loader.counters .redefinitions + w'.counter loader.counters .entriesSwept =
    w.counter loader.counters .redefinitions + w.counter loader.counters .entriesSwept
  counters : ∀ id counter,
    (id = loader.counters → counter ≠ .redefinitions ∧ counter ≠ .entriesSwept) →
    w'.counter id counter = w.counter id counter
  elsewhere : ∀ cache, cache ≠ loader.cache → w'.entries cache = w.entries cache
  alive : ∀ artifact : Artifact, artifact.serial ≤ start.created →
    w'.alive artifact = w.alive artifact
  marker : w'.marker = w.marker

theorem Leaves.interchanged {loader : Loader Settings UInt16}
    {done : List (Name × Except DefinitionFailure Artifact)} {start w w' : World}
    (one : loader.Leaves done start w) (other : loader.Leaves done start w')
    (stands : loader.Stands start) : loader.Interchanged start (done.map Prod.fst) w w' := by
  have sights : ∀ name, w'.sight loader.cache name = w.sight loader.cache name := by
    intro name
    by_cases defined : name ∈ done.map Prod.fst
    · obtain ⟨ended, listed, rfl⟩ := List.mem_map.mp defined
      rw [one.defined ended listed, other.defined ended listed]
    · rw [one.sight_of_others stands defined, other.sight_of_others stands defined]
  have cached : ∀ name, w'.contains loader.cache name = w.contains loader.cache name := fun name => by
    rw [World.contains_eq_isSome_sight, World.contains_eq_isSome_sight, sights]
  have size : w'.cacheSize loader.cache = w.cacheSize loader.cache := by
    rw [World.cacheSize, World.cacheSize, Table.size_eq_ncard, Table.size_eq_ncard]
    exact congrArg (fun p : Name → Bool => {name | p name}.ncard) (funext cached)
  have counters : ∀ counter, counter ≠ .redefinitions → counter ≠ .entriesSwept →
      w'.counter loader.counters counter = w.counter loader.counters counter := by
    intro counter redefinitions swept
    rw [one.counters counter redefinitions swept, other.counters counter redefinitions swept]
  exact {
    cached, size, sights
    others := fun name undefined => by rw [one.others name undefined, other.others name undefined]
    removed := by
      -- Both have published as much and have as much, so they have removed as much.
      have balance := other.balance.trans one.balance.symm
      have defined := counters .definitions (by simp) (by simp)
      rw [World.balance, World.balance, size, defined] at balance
      grind
    counters := by
      intro id counter foreign
      by_cases own : id = loader.counters
      · obtain ⟨redefinitions, swept⟩ := foreign own
        rw [own, counters counter redefinitions swept]
      · rw [one.foreign id own, other.foreign id own]
    elsewhere := fun cache apart => by rw [one.elsewhere cache apart, other.elsewhere cache apart]
    alive := fun artifact old => by rw [one.alive artifact old, other.alive artifact old]
    marker := other.marker.trans one.marker.symm
  }

variable {ρ : Type} (loader : Loader Settings UInt16) (thread : ThreadId)

/-- Defines one name and then another. Whoever asks keeps both artifacts. -/
def defineBoth (first : Name) (raw : Bytes) (second : Name) (raw' : Bytes) :
    Action (System ρ) (Except DefinitionFailure Artifact × Except DefinitionFailure Artifact) := do
  let a ← loader.inMemory.define thread first raw
  let b ← loader.inMemory.define thread second raw'
  return (a, b)

private theorem defineBoth_leaves (s : System ρ) {first second : Name} (different : first ≠ second)
    (raw raw' : Bytes) (unmarked : s.world.marker thread = none) (stands : loader.Stands s.world)
    (free : loader.settings.serialize → s.world.FreeLock loader.cache.locks first ∧
      s.world.FreeLock loader.cache.locks second) :
    ∃ a b s', (loader.defineBoth thread first raw second raw').run.run s = some (.ok (a, b), s') ∧
      loader.Outcome first raw (.ok a) ∧ loader.Outcome second raw' (.ok b) ∧
      loader.Leaves [(first, a.map Artifact.unnumbered), (second, b.map Artifact.unnumbered)]
        s.world s'.world := by
  obtain ⟨a, s₁, ran, outcome, leaves⟩ := loader.define_leaves thread first raw s unmarked stands
    fun serialize => (free serialize).1
  obtain ⟨b, s₂, ran', outcome', leaves'⟩ := loader.define_leaves thread second raw' s₁
    (by rw [leaves.marker, unmarked]) (leaves.stands stands)
    fun serialize => leaves.locks second (free serialize).2
  refine ⟨a, b, s₂, ?_, outcome, outcome', leaves.append leaves' stands (by simpa using different)⟩
  rw [defineBoth, Action.run_bind, ran]
  simp only [Option.bind_some]
  rw [Action.run_bind, ran']
  rfl

/-- Two definitions of different names end in either order as their packer and the level of their host
    decide, and leave the same apart from the serial numbers of their artifacts, and from which entries
    count as redefined and which as swept. -/
theorem define_commutes (s : System ρ) {first second : Name} (different : first ≠ second)
    (raw raw' : Bytes) (unmarked : s.world.marker thread = none) (stands : loader.Stands s.world)
    (free : loader.settings.serialize → s.world.FreeLock loader.cache.locks first ∧
      s.world.FreeLock loader.cache.locks second) :
    ∃ a b s₁ a' b' s₂,
      (loader.defineBoth thread first raw second raw').run.run s = some (.ok (a, b), s₁) ∧
      (loader.defineBoth thread second raw' first raw).run.run s = some (.ok (b', a'), s₂) ∧
      loader.Outcome first raw (.ok a) ∧ loader.Outcome second raw' (.ok b) ∧
      a'.map Artifact.unnumbered = a.map Artifact.unnumbered ∧
      b'.map Artifact.unnumbered = b.map Artifact.unnumbered ∧
      loader.Interchanged s.world [first, second] s₁.world s₂.world := by
  obtain ⟨a, b, s₁, ran, outcome₁, outcome₂, leaves⟩ :=
    loader.defineBoth_leaves thread s different raw raw' unmarked stands free
  obtain ⟨b', a', s₂, ran', outcome₂', outcome₁', leaves'⟩ :=
    loader.defineBoth_leaves thread s different.symm raw' raw unmarked stands fun serialize =>
      (free serialize).symm
  have same₁ := outcome₁.unnumbered outcome₁'
  have same₂ := outcome₂.unnumbered outcome₂'
  rw [same₁, same₂] at leaves'
  exact ⟨a, b, s₁, a', b', s₂, ran, ran', outcome₁, outcome₂, same₁, same₂,
    leaves.interchanged (leaves'.perm (.swap ..)) stands⟩

/-- An ancestor knows one name, and the cache has a dead entry for the other. Both can be defined. -/
theorem define_commutes_deadEntry :
    let unit : Artifact := ⟨2, ⟨"a", by decide⟩, 0, .nothing⟩
    let other : Name := ⟨"b", by decide⟩
    let raw : Bytes := [0x48, 0x53, 0x55, 0x31, 0, 0, 7]
    let s : System Unit := ⟨{ Call.deadEntry other with created := 2, held := [2] }, ()⟩
    ∃ a b s₁ a' b' s₂,
      ((linkedBehind unit).defineBoth .first unit.name raw other raw).run.run s =
        some (.ok (.ok a, .ok b), s₁) ∧
      ((linkedBehind unit).defineBoth .first other raw unit.name raw).run.run s =
        some (.ok (b', a'), s₂) ∧
      a'.map Artifact.unnumbered = .ok a.unnumbered ∧
      b'.map Artifact.unnumbered = .ok b.unnumbered ∧
      (linkedBehind unit).Interchanged s.world [unit.name, other] s₁.world s₂.world := by
  intro unit other raw s
  have free : ∀ name, s.world.FreeLock (linkedBehind unit).cache.locks name := by
    refine fun name => ⟨fun lock tabled => ?_, fun _ _ => rfl⟩
    cases tabled
  have stands : (linkedBehind unit).Stands s.world := by
    refine ⟨fun _ _ => rfl, fun name artifact entry => ?_, fun artifact held => ?_⟩
    · replace entry : (Table.empty.insert other ⟨1, other, 0, .nothing⟩).get? name = some artifact :=
        entry
      rw [Table.get?_insert] at entry
      split at entry
      · cases entry
        decide
      · cases entry
    · obtain rfl := List.mem_singleton.mp held
      decide
  have packed : ∀ name : Name, (Wire.utf8 name.text).length ≤ 65535 →
      ∃ image, (linkedBehind unit).packer.pack name raw = .ok image := fun name short =>
    Settings.exists_pack ⟨"", [7]⟩ rfl (by decide) nofun short (by decide)
  obtain ⟨image, packs⟩ := packed unit.name (by decide)
  obtain ⟨image', packs'⟩ := packed other (by decide)
  obtain ⟨_, _, s₁, a', b', s₂, ran, ran', outcome, outcome', same, same', interchanged⟩ :=
    define_commutes (linkedBehind unit) .first s (by decide) raw raw rfl stands fun _ =>
      ⟨free unit.name, free other⟩
  obtain ⟨-, a, -, ⟨⟩, -⟩ := outcome.loaded image packs (by decide)
  obtain ⟨-, b, -, ⟨⟩, -⟩ := outcome'.loaded image' packs' (by decide)
  exact ⟨a, b, s₁, a', b', s₂, ran, ran', same, same', interchanged⟩

/-- If the entry is swept first, it is not redefined, and the other way round. -/
example :
    let unit : Artifact := ⟨2, ⟨"a", by decide⟩, 0, .nothing⟩
    let other : Name := ⟨"b", by decide⟩
    let raw : Bytes := [0x48, 0x53, 0x55, 0x31, 0, 0, 7]
    let s : System Unit := ⟨{ Call.deadEntry other with created := 2, held := [2] }, ()⟩
    let removed (s : System Unit) : UInt64 × UInt64 :=
      (s.world.counter ⟨0⟩ .redefinitions, s.world.counter ⟨0⟩ .entriesSwept)
    (((linkedBehind unit).defineBoth .first unit.name raw other raw).run.run s).map
        (fun end_ => removed end_.2) = some (0, 1) ∧
      (((linkedBehind unit).defineBoth .first other raw unit.name raw).run.run s).map
        (fun end_ => removed end_.2) = some (1, 0) := by
  decide +kernel

end Loader

end Reload
