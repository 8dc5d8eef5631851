import Reload.Proofs.Concurrent.Exclusion
import Reload.Proofs.Concurrent.Freshness
import Reload.Proofs.Concurrent.Obedience

/-!
What the steps of definitions in memory do to an entry of a cache. Definitions in memory keep the locks
if their packers do, so they exclude each other if they serialize; and the entry of a name stays as long
as its artifact is alive, unless a definition of that very name removes it or publishes over it
(`keepsEntry_advance`). What is asked of the rules is `Rules.Serialize`; the widest such rules for hosts
that do nothing else are `Rules.serialized`.
-/

namespace Reload

variable {ρ : Type}

/-! ### Definitions in memory keep the locks -/

theorem Confined.keepsLocks {counters : CountersId} {artifacts : List Artifact} {w w' : World}
    (confined : Confined counters artifacts w w') : w.KeepsLocks w' :=
  .of_eq (by rw [confined.frame]) (by rw [confined.frame]) (by rw [confined.frame])

theorem MemoryContext.load_keepsLocks (context : MemoryContext) (thread : ThreadId) (name : Name)
    (w : World) : w.KeepsLocks (context.load thread name w).2 := by
  have frame := (context.parent.answered thread name w).frame
  unfold load
  rcases answer : context.parent.resolve thread name w with ⟨missing | artifact, w₁⟩
  · rw [answer] at frame
    simp only [] at frame ⊢
    split
    · unfold own
      split <;> rw [frame] <;> exact .of_eq rfl rfl rfl
    · rw [frame]
      exact .of_eq rfl rfl rfl
  · rw [answer] at frame
    simp only [] at frame ⊢
    rw [frame]
    exact .of_eq rfl rfl rfl

/-- Definitions in memory keep the locks if their packers do. -/
theorem Call.InMemoryHost.keepsLocks {call : Call ρ MemoryContext} (memory : call.InMemoryHost)
    (pack : (call.loader.packer.pack call.thread call.name call.raw).run.run.KeepsLocks) :
    call.KeepsLocks := by
  have obeys : call.Obeys World.KeepsLocks := by
    refine memory.obeys pack (fun api image w => ?_) (fun context w => ?_) fun context w => ?_
    · have growing : Growing call.loader.counters call.loader.resolver.artifacts w _ :=
        MemoryContext.instantiate_growing api image call.loader.resolver w
      exact growing.toConfined.keepsLocks
    · exact context.load_keepsLocks call.thread call.name w
    · have confined : Confined call.loader.counters [] w (context.close w) :=
        MemoryContext.close_confined context w
      exact confined.keepsLocks
  exact ⟨obeys.pack, obeys.instantiate, obeys.load, obeys.close⟩

/-- Loaders in memory make definitions that keep the locks. -/
theorem Loader.keepsLocks_call (loader : Loader Settings UInt16) (thread : ThreadId) (name : Name)
    (raw : Bytes) : (loader.call thread name raw : Call ρ MemoryContext).KeepsLocks := by
  have memory : (loader.call thread name raw : Call ρ MemoryContext).InMemoryHost :=
    ⟨loader.host, rfl⟩
  exact memory.keepsLocks (.last ⟨_, rfl⟩)

/-! ### The entry of a name -/

/-- A change that brings no artifact back to life, of those that were created after the first ones. -/
structure World.Mortal (base : Nat) (w w' : World) : Prop where
  created : w.created ≤ w'.created
  alive : ∀ artifact : Artifact, base < artifact.serial → artifact.serial ≤ w.created →
    w'.alive artifact → w.alive artifact

/-- Such a change in which the entry of a name stays as long as its artifact is alive. -/
structure World.KeepsEntry (cache : CacheId) (name : Name) (base : Nat) (w w' : World) : Prop
    extends Mortal base w w' where
  entry : ∀ artifact, w.alive artifact → (w.entries cache).get? name = some artifact →
    (w'.entries cache).get? name = some artifact

variable {cache : CacheId} {name : Name} {base : Nat}

theorem World.Mortal.of_eq {w w' : World} (created : w'.created = w.created)
    (held : w'.held = w.held) : w.Mortal base w' where
  created := Nat.le_of_eq created.symm
  alive artifact _ _ live := by
    rw [alive_iff] at live ⊢
    rwa [held] at live

theorem World.KeepsEntry.of_eq {w w' : World} (created : w'.created = w.created)
    (held : w'.held = w.held) (entries : w'.entries = w.entries) :
    w.KeepsEntry cache name base w' where
  toMortal := .of_eq created held
  entry artifact _ entry := by
    rw [entries]
    exact entry

theorem Confined.keepsEntry {counters : CountersId} {artifacts : List Artifact} {w w' : World}
    (confined : Confined counters artifacts w w')
    (anchored : ∀ artifact ∈ artifacts, base < artifact.serial → w.alive artifact) :
    w.KeepsEntry cache name base w' where
  created := confined.created
  alive artifact later created live := by
    by_cases held : artifact.serial ∈ artifacts.map Artifact.serial
    · obtain ⟨first, listed, same⟩ := List.mem_map.mp held
      have before := anchored first listed (by omega)
      rw [World.alive_iff] at before ⊢
      rwa [same] at before
    · exact confined.alive artifact created held live
  entry artifact _ entry := by
    rw [confined.frame]
    exact entry

/-- The removal of the entry of another name, or from another cache. -/
theorem World.keepsEntry_invalidate {w : World} {other : CacheId} {gone : Name}
    (elsewhere : ¬(other = cache ∧ gone = name)) :
    w.KeepsEntry cache name base (w.invalidate other gone).2 where
  toMortal := .of_eq rfl rfl
  entry artifact _ entry := by
    by_cases sameCache : cache = other
    · subst sameCache
      have different : name ≠ gone := fun same => elsewhere ⟨rfl, same.symm⟩
      simp only [invalidate, replace_self, Table.get?_erase, if_neg different]
      exact entry
    · simp only [invalidate, replace_of_ne _ _ sameCache]
      exact entry

theorem World.keepsEntry_publish {w : World} {other : CacheId} {published : Name}
    {artifact : Artifact} (elsewhere : ¬(other = cache ∧ published = name)) :
    w.KeepsEntry cache name base (w.publish other published artifact).2 where
  toMortal := .of_eq rfl rfl
  entry found live entry := by
    by_cases sameCache : cache = other
    · subst sameCache
      have different : name ≠ published := fun same => elsewhere ⟨rfl, same.symm⟩
      simp only [publish, replace_self, Table.get?_insert, if_neg different, Table.get?_filter]
      exact Option.filter_eq_some_iff.mpr ⟨entry, live⟩
    · simp only [publish, replace_of_ne _ _ sameCache]
      exact entry

/-! ### Steps -/

def Call.Into {κ : Type} (cache : CacheId) (name : Name) (call : Call ρ κ) : Prop :=
  call.loader.cache = cache ∧ call.name = name

instance {κ : Type} (call : Call ρ κ) : Decidable (call.Into cache name) :=
  inferInstanceAs (Decidable (_ ∧ _))

/-- Whether a definition is about to change the entry of its name. -/
def Place.writes {κ : Type} : Place ρ κ → Bool
  | .inside _ .forget | .inside _ (.publish ..) => true
  | _ => false

/-- A loader holds what its ancestors have, so that is alive while a definition of the loader goes on.
    Nothing need be known of the first artifacts. -/
def Running.Anchored {κ : Type} (base : Nat) (running : Running ρ κ) (w : World) : Prop :=
  ∀ artifact ∈ running.call.loader.resolver.artifacts, base < artifact.serial → w.alive artifact

/-- Rules by which definitions in memory serialize if they are into this cache. Their packers may give
    any images, or fail as they like. The locks are kept, nobody else writes to the cache, and nobody
    brings an artifact back to life. -/
structure Rules.Serialize (rules : Rules ρ MemoryContext) (cache : CacheId) (base : Nat) : Prop
    extends rules.Hosting .any where
  serialize : ∀ call w, rules.begins call w → call.loader.cache = cache →
    call.loader.settings.serialize = true
  keepLocks : rules.KeepLocks
  entries : ∀ w w', rules.outside w w' → w'.entries cache = w.entries cache
  mortal : ∀ w w', rules.outside w w' → w.Mortal base w'

/-- What may happen beside definitions that serialize into this cache: the locks are kept, the cache is
    not written to, and no artifact comes back to life. -/
structure World.Beside (cache : CacheId) (base : Nat) (w w' : World) : Prop where
  foreign : w.Foreign w'
  keepsLocks : w.KeepsLocks w'
  entries : w'.entries cache = w.entries cache
  mortal : w.Mortal base w'

/-- The rules by which definitions serialize whose hosts keep units in memory. Their packers may be any
    programs, as far as what they do beside packing may happen beside a definition anyway. -/
def Rules.serialized (cache : CacheId) (base : Nat) : Rules ρ MemoryContext where
  begins call w := call.InMemoryHost ∧
    (call.loader.packer.pack call.thread call.name call.raw).run.run.Obeys (World.Beside cache base) ∧
    (call.loader.cache = cache → call.loader.settings.serialize = true) ∧
    ∀ artifact ∈ call.loader.resolver.artifacts, artifact.serial ≤ w.created
  outside := World.Beside cache base

theorem Rules.serialize_serialized (cache : CacheId) (base : Nat) :
    (Rules.serialized cache base : Rules ρ MemoryContext).Serialize cache base where
  begins := by
    rintro call w ⟨memory, pack, -, ancestors⟩
    exact memory.hosting_of_obeys pack ancestors
  outside _ _ beside := beside.foreign
  serialize _ _ begun := begun.2.2.1
  keepLocks := by
    refine ⟨?_, fun _ _ beside => beside.keepsLocks⟩
    rintro call w ⟨memory, pack, -, -⟩
    exact memory.keepsLocks (pack.imp fun _ _ beside => beside.keepsLocks)
  entries _ _ beside := beside.entries
  mortal _ _ beside := beside.mortal

variable {rules : Rules ρ MemoryContext}

theorem Rules.Serialize.keepsEntry (rule : rules.Serialize cache base) {w w' : World}
    (allowed : rules.outside w w') : w.KeepsEntry cache name base w' where
  toMortal := rule.mortal w w' allowed
  entry artifact _ entry := by
    rw [rule.entries w w' allowed]
    exact entry

namespace Pool

variable {pool : Pool ρ MemoryContext} {index : Nat} {running : Running ρ MemoryContext}

private theorem keepsEntry_inside (rule : rules.Serialize cache base)
    (sound : pool.Sound rules.outside .any) (here : pool.calls index = some running)
    (anchored : running.Anchored base pool.world)
    {lock : Option LockId} {stage : Stage ρ MemoryContext}
    (place : running.place = .inside lock stage)
    (ready : (running.call.advanceStage lock stage).ready pool.system)
    (elsewhere : running.call.Into cache name → running.place.writes = false) :
    pool.world.KeepsEntry cache name base
      ((running.call.advanceStage lock stage).act pool.system).world := by
  have before := sound.calls index running here
  have hooked := before.hooked
  rw [place] at hooked elsewhere
  cases stage with
  | mark =>
    simp only [Call.advanceStage, World.mark]
    split <;> exact .of_eq rfl rfl rfl
  | forget => exact World.keepsEntry_invalidate fun into => by cases elsewhere into
  | note first others => cases first <;> exact .of_eq rfl rfl rfl
  | pack turn =>
    have within := sound.within here (by rw [place]; rfl)
    obtain ⟨allowed, -⟩ := Call.Hooked.turn_of_packed hooked within ready
    exact rule.keepsEntry allowed
  | instantiate turn =>
    obtain ⟨image, api, -, hooked⟩ := hooked
    have within := sound.within here (by rw [place]; rfl)
    rcases hooked.turn within ready with ⟨allowed, -⟩ | rfl
    · exact rule.keepsEntry allowed
    · have growing : Growing running.call.loader.counters _ pool.world (MemoryContext.instantiate
          api image running.call.loader.resolver pool.world).2 :=
        MemoryContext.instantiate_growing ..
      exact growing.toConfined.keepsEntry anchored
  | load context turn =>
    obtain ⟨seeded, hooked⟩ := hooked
    have within := sound.within here (by rw [place]; rfl)
    rcases hooked.turn within ready with ⟨allowed, -⟩ | rfl
    · exact rule.keepsEntry allowed
    · have marker := before.marked (by rw [place]; rfl)
      obtain ⟨unbuilt, made⟩ := before.context context (by rw [place]; rfl)
      obtain ⟨growing, -⟩ := MemoryContext.load_marked [] seeded.parent marker unbuilt made
      exact growing.toConfined.keepsEntry (by simp)
  | publish context artifact => exact World.keepsEntry_publish fun into => by cases elsewhere into
  | close context result =>
    have confined : Confined running.call.loader.counters [] pool.world
        (context.close pool.world) := MemoryContext.close_confined context pool.world
    have closes := before.memory.close context pool.system.world
    simp only [Call.advanceStage, Turn.change, closes]
    exact confined.keepsEntry (by simp)
  | unmark result => exact .of_eq rfl rfl rfl
  | report first others ending => cases first <;> exact .of_eq rfl rfl rfl

/-- The entry of a name stays as long as its artifact is alive, in every step but those of a definition
    of the name that removes it or publishes over it. -/
theorem keepsEntry_advance (rule : rules.Serialize cache base) (sound : pool.Sound rules.outside .any)
    (here : pool.calls index = some running)
    (anchored : running.Anchored base pool.world)
    {turn : Turn (System ρ) (Place ρ MemoryContext)}
    (advances : running.call.advance running.place = some turn) (ready : turn.ready pool.system)
    (elsewhere : running.call.Into cache name → running.place.writes = false) :
    pool.world.KeepsEntry cache name base (turn.act pool.system).world := by
  cases place : running.place with
  | check =>
    rw [place] at advances
    cases advances
    exact .of_eq rfl rfl rfl
  | take =>
    rw [place] at advances
    cases advances
    simp only [Pool.world]
    rw [World.lockFor_eq]
    exact .of_eq rfl rfl rfl
  | wait lock =>
    rw [place] at advances
    cases advances
    exact .of_eq rfl rfl rfl
  | inside lock stage =>
    rw [place] at advances
    cases advances
    exact keepsEntry_inside rule sound here anchored place ready elsewhere
  | unlock lock ending =>
    rw [place] at advances
    cases advances
    exact .of_eq rfl rfl rfl
  | drop lock ending =>
    rw [place] at advances
    cases advances
    exact .of_eq rfl rfl rfl
  | ended ending =>
    rw [place] at advances
    cases advances

theorem mortal_advance (rule : rules.Serialize cache base) (sound : pool.Sound rules.outside .any)
    (here : pool.calls index = some running)
    (anchored : running.Anchored base pool.world)
    {turn : Turn (System ρ) (Place ρ MemoryContext)}
    (advances : running.call.advance running.place = some turn) (ready : turn.ready pool.system) :
    pool.world.Mortal base (turn.act pool.system).world := by
  cases writes : running.place.writes with
  | false =>
    have keeps : pool.world.KeepsEntry cache running.call.name base
        (turn.act pool.system).world :=
      keepsEntry_advance rule sound here anchored advances ready fun _ => writes
    exact keeps.toMortal
  | true =>
    unfold Place.writes at writes
    split at writes
    · next lock place =>
      rw [place] at advances
      cases advances
      exact .of_eq rfl rfl
    · next lock context artifact place =>
      rw [place] at advances
      cases advances
      exact .of_eq rfl rfl
    · cases writes

end Pool

end Reload
