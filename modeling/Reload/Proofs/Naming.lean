import Reload.Proofs.FirstHit
import Reload.Proofs.Loading

/-!
Artifacts and the names that they are asked for. An entry of a cache has a name of its own, which need
not be that of its artifact. But as long as artifacts are published under their own names only, whatever
else programs do (`Acts`), everybody who asks for a name gets an artifact of that name (`World.Named`).
-/

namespace Reload

/-! ### Resolvers -/

/-- How resolvers are put together of units, caches and each other. -/
inductive Resolver.Assembled : Resolver → Prop where
  | linked (inserted : List Artifact) : Assembled (.linked (linkAll inserted))
  | chain {links : List Resolver} (assembled : ∀ link ∈ links, Assembled link) :
    Assembled (.chain links)
  | guarded (cache : CacheId) {ancestor : Option Resolver} (counters : CountersId)
      (assembled : ∀ parent, ancestor = some parent → Assembled parent) :
    Assembled (.guarded cache ancestor counters)

/-- A source that has no unit under another name than its own, as long as caches have none. -/
def Source.Keyed : Source → Prop
  | linked units => ∀ name artifact, units.get? name = some artifact → artifact.name = name
  | cached _ _ | refused _ => True

namespace Resolver

private theorem mem_sourcesOfLinks {inFlight : Bool} {links : List Resolver} {source : Source}
    (listed : source ∈ Tree.sourcesOfLinks inFlight (links.map tree)) :
    ∃ link ∈ links, source ∈ link.tree.sources inFlight := by
  induction links with
  | nil => simp [Tree.sourcesOfLinks] at listed
  | cons first rest ih =>
    rw [List.map_cons, Tree.sourcesOfLinks, List.mem_append] at listed
    rcases listed with here | later
    · exact ⟨first, by simp, here⟩
    · obtain ⟨link, member, there⟩ := ih later
      exact ⟨link, by simp [member], there⟩

/-- No source of a resolver has a unit under another name than its own. -/
theorem keyed_of_assembled {resolver : Resolver} (assembled : resolver.Assembled) (inFlight : Bool) :
    ∀ source ∈ resolver.tree.sources inFlight, source.Keyed := by
  induction assembled with
  | linked inserted =>
    intro source listed
    simp only [linked, Tree.sources, List.mem_singleton] at listed
    subst listed
    intro name artifact found
    rw [get?_linkAll] at found
    simpa using List.find?_some found
  | chain _ ih =>
    intro source listed
    rw [chain, Tree.sources] at listed
    obtain ⟨link, member, there⟩ := mem_sourcesOfLinks listed
    exact ih link member source there
  | @guarded cache ancestor counters _ ih =>
    intro source listed
    cases inFlight with
    | true =>
      obtain rfl : source = .refused counters := by
        cases ancestor <;> simpa [guarded, Tree.sources] using listed
      trivial
    | false =>
      cases ancestor with
      | none =>
        obtain rfl : source = .cached cache counters := by simpa [guarded, Tree.sources] using listed
        trivial
      | some parent =>
        have split : source = .cached cache counters ∨ source ∈ parent.tree.sources false := by
          simpa [guarded, Tree.sources] using listed
        rcases split with rfl | later
        · trivial
        · exact ih parent rfl source later

end Resolver

/-! ### States -/

/-- The name of the unit of each context that was made. -/
abbrev Units : Type := ContextId → Option Name

/-- The names after somebody has made a context, if there is one. -/
def Units.add (units : Units) : Option MemoryContext → Units
  | none => units
  | some context => replace units context.id (some context.unit)

/-- A context that was made, with a parent that was put together. -/
structure Units.Knows (units : Units) (context : MemoryContext) : Prop where
  unit : units context.id = some context.unit
  parent : context.parent.Assembled

/-- No cache has an artifact under another name than its own, and no context has built an artifact of
    another name than that of its unit. -/
structure World.Named (units : Units) (w : World) : Prop where
  entries : ∀ cache name artifact, (w.entries cache).get? name = some artifact → artifact.name = name
  built : ∀ id artifact, w.built id = some artifact → units id = some artifact.name
  made : ∀ id name, units id = some name → id.index < w.nextContext

namespace World.Named

variable {units : Units} {w w' : World} {name : Name} {artifact : Artifact}

/-- At first there is nothing. -/
theorem start : World.Named (fun _ => none) {} where
  entries _ _ _ found := by cases found
  built _ _ built := by cases built
  made _ _ known := by cases known

theorem lookup (named : w.Named units) {cache : CacheId}
    (found : (w.lookup cache name).1 = some artifact) : artifact.name = name := by
  rw [lookup_eq] at found
  exact named.entries cache name artifact (Option.filter_eq_some_iff.mp found).1

theorem resolve (named : w.Named units) {resolver : Resolver} (assembled : resolver.Assembled)
    {thread : ThreadId} (found : (resolver.resolve thread name w).1 = .ok artifact) :
    artifact.name = name := by
  obtain ⟨firstHit, -, -, -⟩ := resolver.resolve_first_hit thread name w
  rw [firstHit.answer] at found
  split at found
  · next hit =>
    cases found
    obtain ⟨source, listed, hits⟩ := List.exists_of_findSome?_eq_some hit
    have keyed := Resolver.keyed_of_assembled assembled _ source listed
    cases source with
    | linked units => exact keyed name artifact hits
    | cached cache counters =>
      exact named.entries cache name artifact (Option.filter_eq_some_iff.mp hits).1
    | refused counters => cases hits
  · cases found

/-- What has to do with neither caches nor contexts. -/
theorem aside (named : w.Named units) (entries : w'.entries = w.entries) (built : w'.built = w.built)
    (nextContext : w'.nextContext = w.nextContext) : w'.Named units where
  entries := by rw [entries]; exact named.entries
  built := by rw [built]; exact named.built
  made := by rw [nextContext]; exact named.made

/-- One cache gets other entries. -/
private theorem replace_entries (named : w.Named units) (cache : CacheId) {table : Table Name Artifact}
    (keyed : ∀ name artifact, table.get? name = some artifact → artifact.name = name) :
    World.Named units { w with entries := replace w.entries cache table } where
  entries other name artifact found := by
    by_cases same : other = cache
    · subst same
      simp only [replace_self] at found
      exact keyed name artifact found
    · simp only [replace_of_ne _ _ same] at found
      exact named.entries other name artifact found
  built := named.built
  made := named.made

theorem publish (named : w.Named units) (cache : CacheId) (own : artifact.name = name) :
    (w.publish cache name artifact).2.Named units := by
  refine named.replace_entries cache fun other found entry => ?_
  rw [Table.get?_insert, Table.get?_filter] at entry
  split at entry
  · next same =>
    cases entry
    rw [own, same]
  · exact named.entries cache other found (Option.filter_eq_some_iff.mp entry).1

theorem invalidate (named : w.Named units) (cache : CacheId) (gone : Name) :
    (w.invalidate cache gone).2.Named units := by
  refine named.replace_entries cache fun other found entry => ?_
  rw [Table.get?_erase] at entry
  split at entry
  · cases entry
  · exact named.entries cache other found entry

theorem clear (named : w.Named units) (cache : CacheId) : (w.clear cache).Named units :=
  named.replace_entries cache fun _ _ entry => by cases entry

end World.Named

/-! ### Contexts -/

namespace MemoryContext

variable {units : Units} {context : MemoryContext} {w : World}

theorem named_instantiate (named : w.Named units) (api : UInt16) (image : Bytes) (parent : Resolver) :
    (instantiate api image parent w).2.Named
        (units.add (instantiate api image parent w).1.toOption) ∧
      ∀ id name, units id = some name →
        units.add (instantiate api image parent w).1.toOption id = some name := by
  rcases made : instantiate api image parent w with ⟨cause | context, w'⟩
  · rw [instantiate_error made]
    exact ⟨named, fun _ _ known => known⟩
  · obtain ⟨-, fresh, world⟩ := instantiate_eq made
    rw [retain_eq] at world
    have others : ∀ id name, units id = some name →
        units.add (some context) id = some name := by
      intro id name known
      have earlier := named.made id name known
      refine (replace_of_ne _ _ ?_).trans known
      rintro rfl
      simp [fresh] at earlier
    refine ⟨⟨?_, ?_, ?_⟩, others⟩
    · rw [world]
      exact named.entries
    · intro id artifact built
      rw [world] at built
      exact others id _ (named.built id artifact built)
    · intro id name known
      rw [world]
      by_cases same : id = context.id
      · simp [same, fresh]
      · have earlier := named.made id name ((replace_of_ne _ _ same).symm.trans known)
        exact Nat.lt_succ_of_lt earlier

/-- A context that was made knows itself. -/
theorem knows_instantiate (units : Units) {api : UInt16} {image : Bytes} {parent : Resolver}
    (assembled : parent.Assembled) (made : (instantiate api image parent w).1 = .ok context) :
    (units.add (some context)).Knows context ∧ context.parent = parent := by
  obtain ⟨same, -, -⟩ := instantiate_eq (Prod.ext made rfl)
  exact ⟨⟨replace_self .., same ▸ assembled⟩, same⟩

theorem named_own (named : w.Named units) (known : units context.id = some context.unit) :
    (context.own w).1.name = context.unit ∧ (context.own w).2.Named units := by
  unfold own
  cases before : w.built context.id with
  | some artifact =>
    have same := (named.built context.id artifact before).symm.trans known
    exact ⟨Option.some.inj same, named.aside rfl rfl rfl⟩
  | none =>
    refine ⟨rfl, named.entries, ?_, named.made⟩
    intro id artifact built
    by_cases same : id = context.id
    · subst same
      obtain rfl := Option.some.inj ((replace_self ..).symm.trans built)
      exact known
    · exact named.built id artifact ((replace_of_ne _ _ same).symm.trans built)

/-- Whatever a context gives has the name that it was asked for. -/
theorem named_load (named : w.Named units) (knows : units.Knows context) (thread : ThreadId)
    (name : Name) :
    (∀ artifact, (context.load thread name w).1 = .ok artifact → artifact.name = name) ∧
      (context.load thread name w).2.Named units := by
  have answered := context.parent.answered thread name w
  have heard : (context.parent.resolve thread name w).2.Named units := by
    rw [answered.frame]
    exact named.aside rfl rfl rfl
  unfold load
  rcases asked : context.parent.resolve thread name w with ⟨missing | found, w'⟩
  · rw [asked] at heard
    by_cases same : name = context.unit
    · obtain ⟨own, after⟩ := named_own heard knows.unit
      simp only [if_pos same]
      refine ⟨fun artifact given => ?_, after⟩
      obtain rfl := Except.ok.inj given
      rw [own, same]
    · simp only [if_neg same]
      exact ⟨nofun, heard⟩
  · rw [asked] at heard
    refine ⟨fun artifact given => ?_, heard⟩
    obtain rfl := Except.ok.inj given
    exact named.resolve knows.parent (congrArg Prod.fst asked)

theorem named_close (named : w.Named units) (context : MemoryContext) :
    (context.close w).Named units where
  entries := by rw [close_eq]; exact named.entries
  built id artifact built := named.built id artifact (built_of_close built)
  made := by rw [close_eq]; exact named.made

end MemoryContext

/-! ### What programs do -/

/-- One thing that a program does, or several of them. It publishes artifacts under their own names, puts
    resolvers together, and loads from contexts that were made. All that has to do with neither caches
    nor contexts may change in any way. -/
inductive Acts : Units → World → Units → World → Prop where
  | aside {units : Units} {w w' : World} (entries : w'.entries = w.entries) (built : w'.built = w.built)
      (nextContext : w'.nextContext = w.nextContext) : Acts units w units w'
  | publish {units w} (cache : CacheId) (artifact : Artifact) :
    Acts units w units (w.publish cache artifact.name artifact).2
  | invalidate {units w} (cache : CacheId) (name : Name) :
    Acts units w units (w.invalidate cache name).2
  | clear {units w} (cache : CacheId) : Acts units w units (w.clear cache)
  | instantiate {units w} (api : UInt16) (image : Bytes) {parent : Resolver}
      (assembled : parent.Assembled) :
    Acts units w (units.add (MemoryContext.instantiate api image parent w).1.toOption)
      (MemoryContext.instantiate api image parent w).2
  | load {units w} {context : MemoryContext} (knows : units.Knows context) (thread : ThreadId)
      (name : Name) : Acts units w units (context.load thread name w).2
  | close {units w} (context : MemoryContext) : Acts units w units (context.close w)
  | both {units units₁ units' : Units} {w w₁ w' : World} (first : Acts units w units₁ w₁)
      (second : Acts units₁ w₁ units' w') : Acts units w units' w'

/-- Whatever programs do, artifacts keep to their names, and contexts that were made stay known. -/
theorem Acts.named {units units' : Units} {w w' : World} (acts : Acts units w units' w')
    (named : w.Named units) :
    w'.Named units' ∧ ∀ id name, units id = some name → units' id = some name := by
  induction acts with
  | aside entries built nextContext =>
    exact ⟨named.aside entries built nextContext, fun _ _ known => known⟩
  | publish cache artifact => exact ⟨named.publish cache rfl, fun _ _ known => known⟩
  | invalidate cache name => exact ⟨named.invalidate cache name, fun _ _ known => known⟩
  | clear cache => exact ⟨named.clear cache, fun _ _ known => known⟩
  | instantiate api image _ => exact MemoryContext.named_instantiate named api image _
  | load knows thread name =>
    exact ⟨(MemoryContext.named_load named knows thread name).2, fun _ _ known => known⟩
  | close context => exact ⟨MemoryContext.named_close named context, fun _ _ known => known⟩
  | both _ _ first second =>
    obtain ⟨between, kept⟩ := first named
    obtain ⟨after, kept'⟩ := second between
    exact ⟨after, fun id name known => kept' id name (kept id name known)⟩

end Reload
