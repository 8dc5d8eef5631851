import Mathlib.Data.Multiset.Bind
import Reload.Proofs.Concurrent.Course
import Reload.Proofs.Definition.Memory

/-!
Who holds artifacts. References are held to artifacts, to tables of linked units, to resolvers and to
contexts; and a context that is referred to holds what it has built. Whatever is done, the strong
references to artifacts are those that come with these (`World.HeldBy`), so nothing else keeps an
artifact alive. And what has died stays dead (`World.Buries`).
-/

namespace Reload

/-! ### Tables of linked units -/

theorem Table.mem_values {κ α : Type} [DecidableEq κ] {table : Table κ α} {value : α} :
    value ∈ table.values ↔ ∃ key, table.get? key = some value := by
  unfold values
  rw [List.mem_map]
  constructor
  · rintro ⟨entry, listed, rfl⟩
    exact ⟨entry.1, mem_entries_iff.mp listed⟩
  · rintro ⟨key, found⟩
    exact ⟨(key, value), mem_entries_iff.mpr found, rfl⟩

private theorem values_of_nodup {κ α : Type} [DecidableEq κ] (key : κ) (entries : List (κ × α))
    (nodup : (entries.map Prod.fst).Nodup) : (entries.map Prod.snd : Multiset α) =
      ((entries.find? fun entry => entry.1 = key).map Prod.snd).toList +
        ((entries.filter fun entry => entry.1 ≠ key).map Prod.snd : List α) := by
  induction entries with
  | nil => rfl
  | cons entry rest ih =>
    rw [List.map_cons, List.nodup_cons] at nodup
    by_cases here : entry.1 = key
    · have others : rest.filter (fun entry => entry.1 ≠ key) = rest := by
        refine List.filter_eq_self.mpr fun other listed => decide_eq_true fun same => nodup.1 ?_
        rw [here, ← same]
        exact List.mem_map_of_mem listed
      rw [List.find?_cons_of_pos (by simpa using here), List.filter_cons_of_neg (by simpa using here),
        others]
      rfl
    · rw [List.find?_cons_of_neg (by simpa using here), List.filter_cons_of_pos (by simpa using here),
        List.map_cons, List.map_cons, ← Multiset.cons_coe, ← Multiset.cons_coe, ih nodup.2,
        Multiset.add_cons]

/-- The values of a table are those of a key and those of the others. -/
private theorem values_erase {κ α : Type} [DecidableEq κ] (table : Table κ α) (key : κ) :
    (table.values : Multiset α) = (table.get? key).toList + (table.erase key).values :=
  values_of_nodup key table.entries table.nodup

namespace Resolver.Tree

mutual

/-- The tables of units that are linked in anywhere in a tree. -/
def tables : Tree → List (Table Name Artifact)
  | linked units => [units]
  | chain links => tablesOfLinks links
  | guarded _ .none _ => []
  | guarded _ (some ancestor) _ => ancestor.tables

/-- The tables of the links of a chain, one link after the other. -/
def tablesOfLinks : List Tree → List (Table Name Artifact)
  | [] => []
  | first :: rest => first.tables ++ tablesOfLinks rest

end

mutual

/-- A tree holds what is in its tables. -/
theorem mem_artifacts (tree : Tree) {artifact : Artifact} : artifact ∈ tree.artifacts ↔
    ∃ units ∈ tree.tables, ∃ name, units.get? name = some artifact := by
  match tree with
  | .linked units =>
    rw [artifacts, tables, Table.mem_values]
    simp only [List.mem_singleton, exists_eq_left]
  | .chain links =>
    rw [artifacts, tables, List.mem_eraseDups]
    exact mem_artifactsOfLinks links
  | .guarded cache .none counters =>
    rw [artifacts, tables]
    simp only [List.not_mem_nil, false_and, exists_const]
  | .guarded cache (some ancestor) counters =>
    rw [artifacts, tables]
    exact mem_artifacts ancestor

theorem mem_artifactsOfLinks (links : List Tree) {artifact : Artifact} :
    artifact ∈ artifactsOfLinks links ↔
      ∃ units ∈ tablesOfLinks links, ∃ name, units.get? name = some artifact := by
  match links with
  | [] =>
    rw [artifactsOfLinks, tablesOfLinks]
    simp only [List.not_mem_nil, false_and, exists_const]
  | first :: rest =>
    rw [artifactsOfLinks, tablesOfLinks, List.mem_append, mem_artifacts first,
      mem_artifactsOfLinks rest]
    simp only [List.mem_append, or_and_right, exists_or]

end

end Resolver.Tree

/-! ### References -/

/-- A reference that somebody has. -/
inductive Ref where
  | artifact (artifact : Artifact)
  /-- The reference to a table that units can be linked into. Nobody else has one. -/
  | units (units : Table Name Artifact)
  /-- A reference to linked units, to a chain, to a guarded resolver, or to a loader, which has the
      resolver that it was built with. -/
  | resolver (resolver : Resolver)
  | context (context : MemoryContext)

namespace Ref

/-- The artifacts that a reference holds. -/
def artifacts : Ref → List Artifact
  | artifact one => [one]
  | units table => table.values
  | resolver asked => asked.artifacts
  | context kept => kept.parent.artifacts

/-- The tables of linked units that a reference keeps. -/
def tables : Ref → List (Table Name Artifact)
  | artifact _ => []
  | units table => [table]
  | resolver asked => asked.tree.tables
  | context kept => kept.parent.tree.tables

def serials (ref : Ref) : Multiset Nat := ref.artifacts.map Artifact.serial

/-- The context that a reference keeps. -/
def contextIds : Ref → Multiset ContextId
  | context kept => {kept.id}
  | artifact _ | units _ | resolver _ => 0

/-- The reference to an artifact that was given, if one was. -/
def given (found : Option Artifact) : Multiset Ref := found.elim 0 fun one => {.artifact one}

/-- The reference to a context that was made, if one was. -/
def made (context : Option MemoryContext) : Multiset Ref := context.elim 0 fun one => {.context one}

/-- Takes a reference away. -/
def drop : Ref → World → World
  | context kept, w => kept.close w
  | ref, w => w.releaseAll ref.artifacts

end Ref

/-- A reference holds the artifact that it refers to, or those in the tables that it keeps. -/
theorem Ref.mem_artifacts {ref : Ref} {artifact : Artifact} : artifact ∈ ref.artifacts ↔
    ref = .artifact artifact ∨
      ∃ units ∈ ref.tables, ∃ name, units.get? name = some artifact := by
  cases ref with
  | artifact one =>
    rw [artifacts, tables, List.mem_singleton, Ref.artifact.injEq, eq_comm]
    simp only [List.not_mem_nil, false_and, exists_const, or_false]
  | units table =>
    rw [artifacts, tables, Table.mem_values]
    simp only [reduceCtorEq, false_or, List.mem_singleton, exists_eq_left]
  | resolver asked =>
    rw [artifacts, tables, asked.artifacts_eq, Resolver.Tree.mem_artifacts]
    simp only [reduceCtorEq, false_or]
  | context kept =>
    rw [artifacts, tables, kept.parent.artifacts_eq, Resolver.Tree.mem_artifacts]
    simp only [reduceCtorEq, false_or]

/-- Whether these references hold all these artifacts. -/
def Holding (refs : Multiset Ref) (artifacts : List Artifact) : Prop :=
  ∀ artifact ∈ artifacts, ∃ ref ∈ refs, artifact ∈ ref.artifacts

theorem Holding.add {refs : Multiset Ref} {artifacts : List Artifact}
    (holding : Holding refs artifacts) (more : Multiset Ref) : Holding (refs + more) artifacts := by
  intro artifact listed
  obtain ⟨ref, own, has⟩ := holding artifact listed
  exact ⟨ref, Multiset.mem_add.mpr (.inl own), has⟩

private theorem serials_given (found : Option Artifact) :
    (Ref.given found).bind Ref.serials = (found.toList.map Artifact.serial : List Nat) := by
  cases found <;> rfl

private theorem contextIds_given (found : Option Artifact) :
    (Ref.given found).bind Ref.contextIds = 0 := by
  cases found <;> rfl

/-- The artifact that a context has built is held once by it. -/
def memo (artifact : Option Artifact) : Multiset Nat := artifact.elim 0 fun built => {built.serial}

/-- Those who hold an artifact: a reference to it; a table that it is linked into, as long as a
    reference keeps that; and the context that has built it, as long as somebody refers to that. -/
inductive Holder (refs : Multiset Ref) (w : World) (serial : Nat) : Prop where
  | reference {artifact : Artifact} (own : .artifact artifact ∈ refs)
      (same : artifact.serial = serial)
  | linked {ref : Ref} {units : Table Name Artifact} {name : Name} {artifact : Artifact}
      (own : ref ∈ refs) (kept : units ∈ ref.tables) (entry : units.get? name = some artifact)
      (same : artifact.serial = serial)
  | memo {context : MemoryContext} {artifact : Artifact} (own : .context context ∈ refs)
      (built : w.built context.id = some artifact) (same : artifact.serial = serial)

namespace World

/-- What contexts hold. -/
def memos (w : World) : Multiset Nat :=
  ∑ index ∈ Finset.range w.nextContext, memo (w.built ⟨index⟩)

/-- All strong references are those that come with these, and those of contexts that are kept. -/
structure HeldBy (refs : Multiset Ref) (w : World) : Prop where
  held : (w.held : Multiset Nat) = refs.bind Ref.serials + w.memos
  contexts : (w.contexts : Multiset ContextId) = refs.bind Ref.contextIds
  kept : ∀ id artifact, w.built id = some artifact → id ∈ w.contexts
  made : ∀ id ∈ w.contexts, id.index < w.nextContext

/-- Nothing that was dead is alive. -/
structure Buries (w w' : World) : Prop where
  created : w.created ≤ w'.created
  held : ∀ serial ∈ w'.held, serial ∈ w.held ∨ w.created < serial ∧ serial ≤ w'.created

/-- A change after which all is held by these references. Nothing has come back to life, and no cache
    has changed. -/
structure Handover (refs : Multiset Ref) (w w' : World) : Prop where
  heldBy : w'.HeldBy refs
  buries : w.Buries w'
  entries : w'.entries = w.entries

/-! ### What references hold is alive -/

variable {refs refs' : Multiset Ref} {w w' : World}

theorem HeldBy.mem_held (heldBy : w.HeldBy refs) {artifacts : List Artifact}
    (holding : Holding refs artifacts) {artifact : Artifact} (listed : artifact ∈ artifacts) :
    artifact.serial ∈ w.held := by
  obtain ⟨ref, own, has⟩ := holding artifact listed
  have member : artifact.serial ∈ (w.held : Multiset Nat) := by
    rw [heldBy.held, Multiset.mem_add, Multiset.mem_bind]
    exact .inl ⟨ref, own, Multiset.mem_coe.mpr (List.mem_map_of_mem has)⟩
  exact Multiset.mem_coe.mp member

theorem mem_memos {serial : Nat} : serial ∈ w.memos ↔ ∃ index < w.nextContext, ∃ artifact,
    w.built ⟨index⟩ = some artifact ∧ artifact.serial = serial := by
  unfold memos
  rw [Multiset.mem_sum]
  refine exists_congr fun index => ?_
  rw [Finset.mem_range]
  refine and_congr_right fun _ => ?_
  cases w.built ⟨index⟩ with
  | none => simp [memo]
  | some artifact => simp [memo, eq_comm]

theorem HeldBy.memo_held (heldBy : w.HeldBy refs) {id : ContextId} {artifact : Artifact}
    (built : w.built id = some artifact) : artifact.serial ∈ w.held := by
  have member : artifact.serial ∈ (w.held : Multiset Nat) := by
    rw [heldBy.held, Multiset.mem_add, mem_memos]
    exact .inr ⟨id.index, heldBy.made id (heldBy.kept id artifact built), artifact, built, rfl⟩
  exact Multiset.mem_coe.mp member

/-- An artifact is alive exactly if somebody holds it. -/
theorem HeldBy.alive_iff (heldBy : w.HeldBy refs) {artifact : Artifact} :
    w.alive artifact ↔ Holder refs w artifact.serial := by
  rw [World.alive_iff, ← Multiset.mem_coe, heldBy.held, Multiset.mem_add, Multiset.mem_bind,
    mem_memos]
  constructor
  · rintro (⟨ref, own, listed⟩ | ⟨index, -, built, found, same⟩)
    · obtain ⟨held, has, same⟩ := List.mem_map.mp (Multiset.mem_coe.mp listed)
      rcases Ref.mem_artifacts.mp has with rfl | ⟨units, within, name, entry⟩
      · exact .reference own same
      · exact .linked own within entry same
    · have listed : (⟨index⟩ : ContextId) ∈ (w.contexts : Multiset ContextId) :=
        Multiset.mem_coe.mpr (heldBy.kept _ built found)
      rw [heldBy.contexts, Multiset.mem_bind] at listed
      obtain ⟨ref, own, kept⟩ := listed
      cases ref with
      | context context =>
        rw [Multiset.mem_singleton.mp kept] at found
        exact .memo own found same
      | artifact | units | resolver => cases kept
  · rintro (⟨own, same⟩ | ⟨own, within, entry, same⟩ | @⟨context, built, own, found, same⟩)
    · exact .inl ⟨_, own, Multiset.mem_coe.mpr (same ▸ List.mem_singleton_self _)⟩
    · have has := Ref.mem_artifacts.mpr (.inr ⟨_, within, _, entry⟩)
      exact .inl ⟨_, own, Multiset.mem_coe.mpr (same ▸ List.mem_map_of_mem has)⟩
    · refine .inr ⟨context.id.index, ?_, built, found, same⟩
      exact heldBy.made _ (heldBy.kept _ built found)

/-! ### Changes -/

theorem Buries.refl (w : World) : w.Buries w := ⟨Nat.le_refl _, fun _ held => .inl held⟩

theorem Buries.of_subset (created : w'.created = w.created)
    (held : ∀ serial ∈ w'.held, serial ∈ w.held) : w.Buries w' :=
  ⟨Nat.le_of_eq created.symm, fun serial there => .inl (held serial there)⟩

theorem Buries.trans {w₁ w₂ w₃ : World} (first : w₁.Buries w₂) (second : w₂.Buries w₃) :
    w₁.Buries w₃ where
  created := Nat.le_trans first.created second.created
  held serial there := by
    rcases second.held serial there with before | ⟨later, created⟩
    · rcases first.held serial before with old | ⟨new, made⟩
      · exact .inl old
      · exact .inr ⟨new, Nat.le_trans made second.created⟩
    · exact .inr ⟨Nat.lt_of_le_of_lt first.created later, created⟩

/-- What does not change references and contexts hands nothing over. -/
theorem HeldBy.aside (heldBy : w.HeldBy refs) (held : w'.held = w.held)
    (created : w'.created = w.created) (contexts : w'.contexts = w.contexts)
    (nextContext : w'.nextContext = w.nextContext) (built : w'.built = w.built)
    (entries : w'.entries = w.entries) : w.Handover refs w' where
  heldBy := by
    have memos : w'.memos = w.memos := by simp only [World.memos, nextContext, built]
    refine ⟨?_, ?_, ?_, ?_⟩
    · rw [held, memos]; exact heldBy.held
    · rw [contexts]; exact heldBy.contexts
    · rw [contexts, built]; exact heldBy.kept
    · rw [contexts, nextContext]; exact heldBy.made
  buries := .of_subset created fun serial there => by rwa [held] at there
  entries := entries

/-- References may be exchanged for others that hold the same. -/
theorem HeldBy.exchange (heldBy : w.HeldBy refs)
    (serials : refs'.bind Ref.serials = refs.bind Ref.serials)
    (contextIds : refs'.bind Ref.contextIds = refs.bind Ref.contextIds) : w.HeldBy refs' :=
  ⟨by rw [serials]; exact heldBy.held, by rw [contextIds]; exact heldBy.contexts, heldBy.kept,
    heldBy.made⟩

/-! ### References to artifacts -/

theorem held_retainAll (w : World) (artifacts : List Artifact) :
    ((w.retainAll artifacts).held : Multiset Nat) = artifacts.map Artifact.serial + w.held := by
  rw [retainAll_eq, ← Multiset.coe_add, Multiset.coe_reverse, Multiset.coe_add]

theorem held_releaseAll (w : World) (artifacts : List Artifact) :
    ((w.releaseAll artifacts).held : Multiset Nat) = w.held - artifacts.map Artifact.serial := by
  induction artifacts generalizing w with
  | nil => exact (Multiset.sub_zero _).symm
  | cons first rest ih =>
    refine (ih (w.release first)).trans ?_
    rw [List.map_cons, ← Multiset.cons_coe, Multiset.sub_cons, Multiset.coe_erase]
    rfl

/-- One more reference that keeps no context. -/
theorem HeldBy.add (heldBy : w.HeldBy refs) {ref : Ref} (plain : ref.contextIds = 0)
    (held : (w'.held : Multiset Nat) = ref.serials + w.held) (contexts : w'.contexts = w.contexts)
    (nextContext : w'.nextContext = w.nextContext) (built : w'.built = w.built) :
    w'.HeldBy (ref ::ₘ refs) where
  held := by
    have memos : w'.memos = w.memos := by simp only [World.memos, nextContext, built]
    rw [held, heldBy.held, memos, Multiset.cons_bind, add_assoc]
  contexts := by rw [contexts, heldBy.contexts, Multiset.cons_bind, plain, zero_add]
  kept := by rw [contexts, built]; exact heldBy.kept
  made := by rw [contexts, nextContext]; exact heldBy.made

/-- Retaining what is held brings nothing back to life. -/
private theorem HeldBy.buries_retainAll (heldBy : w.HeldBy refs) {artifacts : List Artifact}
    (holding : Holding refs artifacts) {w₁ : World} (held : w₁.held = w.held)
    (created : w₁.created = w.created) : w.Buries (w₁.retainAll artifacts) := by
  refine .of_subset (by rw [retainAll_eq]; exact created) fun serial there => ?_
  rw [retainAll_eq, held] at there
  rcases List.mem_append.mp there with listed | before
  · obtain ⟨artifact, has, rfl⟩ := List.mem_map.mp (List.mem_reverse.mp listed)
    exact heldBy.mem_held holding has
  · exact before

/-- One more reference is taken to what others hold too. -/
theorem HeldBy.retain (heldBy : w.HeldBy refs) {ref : Ref} (plain : ref.contextIds = 0)
    (holding : Holding refs ref.artifacts) :
    w.Handover (ref ::ₘ refs) (w.retainAll ref.artifacts) where
  heldBy := heldBy.add plain (w.held_retainAll ref.artifacts) (by rw [retainAll_eq])
    (by rw [retainAll_eq]) (by rw [retainAll_eq])
  buries := heldBy.buries_retainAll holding rfl rfl
  entries := by rw [retainAll_eq]

private theorem buries_releaseAll (w w₁ : World) (held : w₁.held = w.held)
    (created : w₁.created = w.created) (artifacts : List Artifact) :
    w.Buries (w₁.releaseAll artifacts) := by
  refine .of_subset (by rw [releaseAll_eq]; exact created) fun serial there => ?_
  rw [← Multiset.mem_coe, held_releaseAll, held] at there
  exact Multiset.mem_coe.mp (Multiset.mem_of_le (Multiset.sub_le_self ..) there)

theorem HeldBy.release {ref : Ref} (heldBy : w.HeldBy (ref ::ₘ refs))
    (plain : ref.contextIds = 0) : w.Handover refs (w.releaseAll ref.artifacts) where
  heldBy := by
    have memos : (w.releaseAll ref.artifacts).memos = w.memos := by
      rw [releaseAll_eq]
      rfl
    refine ⟨?_, ?_, ?_, ?_⟩
    · rw [held_releaseAll, memos, heldBy.held, Multiset.cons_bind, add_assoc, Ref.serials,
        add_tsub_cancel_left]
    · rw [releaseAll_eq]
      refine heldBy.contexts.trans ?_
      rw [Multiset.cons_bind, plain, zero_add]
    · rw [releaseAll_eq]
      exact heldBy.kept
    · rw [releaseAll_eq]
      exact heldBy.made
  buries := buries_releaseAll w w rfl rfl ref.artifacts
  entries := by rw [releaseAll_eq]

theorem HeldBy.create (heldBy : w.HeldBy refs) (name : Name) (imageSize : Nat)
    (payload : Payload) :
    w.Handover (.artifact (w.create name imageSize payload).1 ::ₘ refs)
      (w.create name imageSize payload).2 where
  heldBy := heldBy.add rfl rfl rfl rfl rfl
  buries := by
    refine ⟨Nat.le_succ _, fun serial there => ?_⟩
    rcases List.mem_cons.mp there with rfl | before
    · exact .inr ⟨Nat.lt_succ_self _, Nat.le_refl _⟩
    · exact .inl before
  entries := rfl

/-- Something that is alive is given. -/
theorem HeldBy.give (heldBy : w.HeldBy refs) {artifact : Artifact}
    (live : artifact.serial ∈ w.held) (held : w'.held = artifact.serial :: w.held)
    (created : w'.created = w.created) (contexts : w'.contexts = w.contexts)
    (nextContext : w'.nextContext = w.nextContext) (built : w'.built = w.built)
    (entries : w'.entries = w.entries) : w.Handover (.artifact artifact ::ₘ refs) w' where
  heldBy := heldBy.add rfl (by rw [held]; rfl) contexts nextContext built
  buries := by
    refine .of_subset created fun serial there => ?_
    rw [held] at there
    rcases List.mem_cons.mp there with rfl | before
    · exact live
    · exact before
  entries := entries

theorem HeldBy.lookup (heldBy : w.HeldBy refs) (cache : CacheId) (name : Name) :
    w.Handover (Ref.given (w.lookup cache name).1 + refs) (w.lookup cache name).2 := by
  have found := w.lookup_eq cache name
  rw [w.lookup_world cache name]
  cases look : (w.lookup cache name).1 with
  | none =>
    have same : Ref.given none + refs = refs := zero_add _
    rw [same]
    exact heldBy.aside rfl rfl rfl rfl rfl rfl
  | some artifact =>
    rw [look] at found
    have live := (Option.filter_eq_some_iff.mp found.symm).2
    exact heldBy.give (World.alive_iff.mp live) rfl rfl rfl rfl rfl rfl

theorem HeldBy.resolve (heldBy : w.HeldBy refs) (resolver : Resolver)
    (holding : Holding refs resolver.artifacts) (thread : ThreadId) (name : Name) :
    w.Handover (Ref.given (resolver.resolve thread name w).1.toOption + refs)
      (resolver.resolve thread name w).2 := by
  have answered := resolver.answered thread name w
  have frame := answered.frame
  rcases answer : resolver.resolve thread name w with ⟨missing | artifact, w'⟩
  · have held : w'.held = w.held := by
      have refused := (answered.refused missing (by rw [answer])).2
      rwa [answer] at refused
    have same : Ref.given none + refs = refs := zero_add _
    rw [answer] at frame
    refine same.symm ▸ heldBy.aside held ?_ ?_ ?_ ?_ ?_ <;> rw [frame]
  · have held : w'.held = artifact.serial :: w.held := by
      have given := answered.held artifact (by rw [answer])
      rwa [answer] at given
    have live : artifact.serial ∈ w.held := by
      rcases answered.source artifact (by rw [answer]) with ⟨-, -, live⟩ | listed
      · exact World.alive_iff.mp live
      · exact heldBy.mem_held holding listed
    rw [answer] at frame
    refine heldBy.give live held ?_ ?_ ?_ ?_ ?_ <;> rw [frame]

/-- Linking gives one reference for another. -/
theorem HeldBy.link {units : Table Name Artifact} {artifact : Artifact}
    (heldBy : w.HeldBy (.artifact artifact ::ₘ .units units ::ₘ refs)) :
    w.HeldBy (Ref.given (Resolver.link units artifact).1 +
      (.units (Resolver.link units artifact).2 ::ₘ refs)) := by
  have values : (units.values.map Artifact.serial : Multiset Nat) =
      ((units.get? artifact.name).toList.map Artifact.serial : List Nat) +
        ((units.erase artifact.name).values.map Artifact.serial : List Nat) := by
    simpa only [Multiset.map_coe, Multiset.map_add] using
      congrArg (Multiset.map Artifact.serial) (values_erase units artifact.name)
  refine heldBy.exchange ?_ ?_
  · rw [Multiset.add_bind, Multiset.cons_bind, Multiset.cons_bind, Multiset.cons_bind, serials_given]
    show _ + ((artifact.serial ::ₘ
      ((units.erase artifact.name).values.map Artifact.serial : List Nat)) + _) =
        {artifact.serial} + ((units.values.map Artifact.serial : List Nat) + _)
    rw [values, ← Multiset.singleton_add]
    simp only [Resolver.link]
    ac_rfl
  · rw [Multiset.add_bind, Multiset.cons_bind, Multiset.cons_bind, Multiset.cons_bind,
      contextIds_given, zero_add]
    exact (zero_add _).symm

/-! ### References to contexts -/

/-- When what a context holds is replaced, so is its memo. -/
theorem memos_replace {id : ContextId} (made : id.index < w.nextContext)
    (built : Option Artifact) :
    ({ w with built := replace w.built id built } : World).memos + memo (w.built id) =
      w.memos + memo built := by
  have replaced : ∀ index : Nat, replace w.built id built ⟨index⟩ =
      replace (fun index : Nat => w.built ⟨index⟩) id.index built index := by
    intro index
    by_cases same : index = id.index
    · rw [same, replace_self]
      exact (replace_self (fun index : Nat => w.built ⟨index⟩) id.index built).symm
    · have other : (⟨index⟩ : ContextId) ≠ id := by
        rintro rfl
        exact same rfl
      rw [replace_of_ne _ _ same, replace_of_ne _ _ other]
  have exchanged := sum_replace memo (fun index : Nat => w.built ⟨index⟩)
    (Finset.mem_range.mpr made) built
  simpa only [World.memos, replaced] using exchanged

/-- One more reference to a context is taken. -/
theorem HeldBy.keep (heldBy : w.HeldBy refs) {context : MemoryContext}
    (made : context.id.index < w.nextContext) (holding : Holding refs context.parent.artifacts) :
    w.Handover (.context context ::ₘ refs) (context.retain w) where
  heldBy := by
    have memos : (context.retain w).memos = w.memos := by
      rw [MemoryContext.retain, Resolver.retain, retainAll_eq]
      rfl
    refine ⟨?_, ?_, ?_, ?_⟩
    · rw [memos, Multiset.cons_bind, add_assoc, ← heldBy.held]
      exact held_retainAll _ _
    · rw [MemoryContext.retain, Resolver.retain, retainAll_eq, Multiset.cons_bind,
        ← heldBy.contexts]
      rfl
    · rw [MemoryContext.retain, Resolver.retain, retainAll_eq]
      exact fun id artifact built => List.mem_cons_of_mem _ (heldBy.kept id artifact built)
    · rw [MemoryContext.retain, Resolver.retain, retainAll_eq]
      intro id listed
      rcases List.mem_cons.mp listed with rfl | before
      · exact made
      · exact heldBy.made id before
  buries := heldBy.buries_retainAll holding rfl rfl
  entries := by rw [MemoryContext.retain, Resolver.retain, retainAll_eq]

theorem HeldBy.instantiate (heldBy : w.HeldBy refs) (api : UInt16) (image : Bytes)
    (parent : Resolver) (holding : Holding refs parent.artifacts) :
    w.Handover (Ref.made (MemoryContext.instantiate api image parent w).1.toOption + refs)
      (MemoryContext.instantiate api image parent w).2 := by
  rcases made : MemoryContext.instantiate api image parent w with ⟨cause | context, w'⟩
  · have same : Ref.made none + refs = refs := zero_add _
    rw [MemoryContext.instantiate_error made]
    exact same.symm ▸ heldBy.aside rfl rfl rfl rfl rfl rfl
  obtain ⟨sameParent, id, rfl⟩ := MemoryContext.instantiate_eq made
  -- The next context has built nothing, so counting it hands nothing over.
  have unbuilt : w.built ⟨w.nextContext⟩ = none := by
    cases built : w.built ⟨w.nextContext⟩ with
    | none => rfl
    | some artifact =>
      exact absurd (heldBy.made _ (heldBy.kept _ artifact built)) (Nat.lt_irrefl _)
  let counted : World := { w with nextContext := w.nextContext + 1 }
  have memos : counted.memos = w.memos := by
    refine (Finset.sum_range_succ _ _).trans ?_
    show w.memos + memo (w.built ⟨w.nextContext⟩) = w.memos
    rw [unbuilt]
    exact add_zero _
  have countedBy : counted.HeldBy refs :=
    ⟨by rw [memos]; exact heldBy.held, heldBy.contexts, heldBy.kept,
      fun id listed => Nat.lt_succ_of_lt (heldBy.made id listed)⟩
  have kept : counted.Handover (.context context ::ₘ refs) (context.retain counted) :=
    countedBy.keep (by rw [id]; exact Nat.lt_succ_self _) (by rw [sameParent]; exact holding)
  have before : w.Buries counted := .of_subset rfl fun _ there => there
  exact ⟨kept.heldBy, before.trans kept.buries, kept.entries⟩

/-- A context builds its artifact, and holds it; or it has done so before. -/
theorem HeldBy.own (heldBy : w.HeldBy refs) {context : MemoryContext}
    (own : .context context ∈ refs) :
    w.Handover (.artifact (context.own w).1 ::ₘ refs) (context.own w).2 := by
  cases built : w.built context.id with
  | some artifact =>
    have again : context.own w = (artifact, w.retain artifact) := by
      simp only [MemoryContext.own, built]
    rw [again]
    exact heldBy.give (heldBy.memo_held built) rfl rfl rfl rfl rfl rfl
  | none =>
    have builds : context.own w = (context.fresh w, context.build w) := by
      simp only [MemoryContext.own, built]
      rfl
    rw [builds]
    have created := heldBy.create context.unit context.imageSize (.body context.body)
    have listed : context.id ∈ w.contexts := by
      rw [← Multiset.mem_coe, heldBy.contexts, Multiset.mem_bind]
      exact ⟨_, own, Multiset.mem_singleton_self _⟩
    have memos : (context.build w).memos = w.memos + {(context.fresh w).serial} := by
      have replaced := memos_replace (heldBy.made _ listed) (some (context.fresh w))
      rwa [built, show memo none = 0 from rfl, add_zero] at replaced
    refine ⟨⟨?_, created.heldBy.contexts, ?_, heldBy.made⟩, ?_, rfl⟩
    · have once : (((context.fresh w).serial :: w.held : List Nat) : Multiset Nat) =
          (Ref.artifact (context.fresh w) ::ₘ refs).bind Ref.serials + w.memos :=
        created.heldBy.held
      show (context.fresh w).serial ::ₘ
        (((context.fresh w).serial :: w.held : List Nat) : Multiset Nat) = _
      rw [once, memos, ← Multiset.singleton_add]
      ac_rfl
    · intro id other found
      by_cases same : id = context.id
      · exact same ▸ listed
      · exact heldBy.kept id other ((replace_of_ne _ _ same).symm.trans found)
    · refine ⟨created.buries.created, fun serial there => ?_⟩
      rcases List.mem_cons.mp there with rfl | before
      · exact .inr ⟨Nat.lt_succ_self _, Nat.le_refl _⟩
      · exact created.buries.held serial before

theorem HeldBy.load (heldBy : w.HeldBy refs) {context : MemoryContext}
    (own : .context context ∈ refs) (thread : ThreadId) (name : Name) :
    w.Handover (Ref.given (context.load thread name w).1.toOption + refs)
      (context.load thread name w).2 := by
  have holding : Holding refs context.parent.artifacts := fun artifact listed =>
    ⟨.context context, own, listed⟩
  have resolved := heldBy.resolve context.parent holding thread name
  unfold MemoryContext.load
  rcases answer : context.parent.resolve thread name w with ⟨missing | artifact, w₁⟩
  · rw [answer] at resolved
    have asked : w.Handover refs w₁ := (zero_add refs : Ref.given none + refs = refs) ▸ resolved
    by_cases same : name = context.unit
    · simp only [if_pos same]
      have owned := asked.heldBy.own own
      exact ⟨owned.heldBy, asked.buries.trans owned.buries, owned.entries.trans asked.entries⟩
    · simp only [if_neg same]
      exact resolved
  · rw [answer] at resolved
    exact resolved

/-- When a context may have lost its last reference, it lets go of what it has built. -/
private theorem letGo_handover {context : MemoryContext}
    (held : (w.held : Multiset Nat) = refs.bind Ref.serials + w.memos)
    (contexts : (w.contexts : Multiset ContextId) = refs.bind Ref.contextIds)
    (kept : ∀ id artifact, id ≠ context.id → w.built id = some artifact → id ∈ w.contexts)
    (made : ∀ id ∈ w.contexts, id.index < w.nextContext)
    (known : context.id.index < w.nextContext) : w.Handover refs (context.letGo w) := by
  unfold MemoryContext.letGo
  by_cases referred : context.id ∈ w.contexts
  · rw [if_pos referred]
    refine ⟨⟨held, contexts, fun id artifact built => ?_, made⟩, .refl w, rfl⟩
    by_cases same : id = context.id
    · exact same ▸ referred
    · exact kept id artifact same built
  rw [if_neg referred]
  cases built : w.built context.id with
  | none =>
    refine ⟨⟨held, contexts, fun id artifact there => kept id artifact ?_ there, made⟩, .refl w, rfl⟩
    rintro rfl
    rw [built] at there
    cases there
  | some artifact =>
    have replaced := memos_replace known none
    rw [built, show memo none = 0 from rfl, add_zero] at replaced
    refine ⟨⟨?_, contexts, fun id other there => ?_, made⟩,
      .of_subset rfl fun serial there => List.mem_of_mem_erase there, rfl⟩
    · refine (Multiset.coe_erase ..).symm.trans ?_
      rw [held, ← replaced, ← add_assoc, add_comm, show memo (some artifact) =
        {artifact.serial} from rfl, Multiset.singleton_add, Multiset.erase_cons_head]
      rfl
    · have there : replace w.built context.id none id = some other := there
      by_cases same : id = context.id
      · rw [same, replace_self] at there
        cases there
      · exact kept id other same ((replace_of_ne _ _ same).symm.trans there)

theorem HeldBy.close {context : MemoryContext} (heldBy : w.HeldBy (.context context ::ₘ refs)) :
    w.Handover refs (context.close w) := by
  let dropped : World := context.parent.release { w with contexts := w.contexts.erase context.id }
  have frame : dropped = { w with held := dropped.held, contexts := w.contexts.erase context.id } :=
    releaseAll_eq ..
  have left : (dropped.held : Multiset Nat) =
      (w.held : Multiset Nat) - Ref.serials (.context context) := held_releaseAll _ _
  have listed : context.id ∈ w.contexts := by
    rw [← Multiset.mem_coe, heldBy.contexts, Multiset.cons_bind]
    exact Multiset.mem_add.mpr (.inl (Multiset.mem_singleton_self _))
  have closed : dropped.Handover refs (context.letGo dropped) := by
    refine letGo_handover ?_ ?_ ?_ ?_ ?_
    · have memos : dropped.memos = w.memos := by
        rw [frame]
        rfl
      rw [left, memos, heldBy.held, Multiset.cons_bind, add_assoc, add_tsub_cancel_left]
    · rw [frame, ← Multiset.coe_erase, heldBy.contexts, Multiset.cons_bind]
      exact Multiset.erase_cons_head ..
    · rw [frame]
      exact fun id artifact other built =>
        (List.mem_erase_of_ne other).mpr (heldBy.kept id artifact built)
    · rw [frame]
      exact fun id listed => heldBy.made id (List.mem_of_mem_erase listed)
    · rw [frame]
      exact heldBy.made _ listed
  have buries : w.Buries dropped :=
    buries_releaseAll w { w with contexts := w.contexts.erase context.id } rfl rfl _
  exact ⟨closed.heldBy, buries.trans closed.buries, closed.entries.trans (by rw [frame])⟩

/-- A reference is given up. -/
theorem HeldBy.drop {ref : Ref} (heldBy : w.HeldBy (ref ::ₘ refs)) :
    w.Handover refs (ref.drop w) := by
  cases ref with
  | context context => exact heldBy.close
  | artifact | units | resolver => exact heldBy.release rfl

end World

end Reload
