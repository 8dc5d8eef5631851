import Reload.World.Cache

/-!
Resolvers answer names with artifacts. What a resolver asks is a tree: tables of units that were
linked in up front, chains that ask their links in order, and guarded trees that ask a cache and
then an ancestor. A guarded tree refuses the name that the thread is defining, so that the context
of a new image never gets the definition that the image replaces.

One resolver may stand in many places of many trees, so a tree can be far larger than the steps that
built it. A resolver therefore carries the list of the artifacts that its tree holds, each once, and
nobody walks the tree to retain or to release them.
-/

namespace Reload

/-- What is asked for names, and in which order. -/
inductive Resolver.Tree where
  /-- Units that were linked in up front, held strongly. -/
  | linked (units : Table Name Artifact)
  /-- The links are asked in order, and the first that knows the name answers. -/
  | chain (links : List Resolver.Tree)
  /-- The cache is asked first, then the ancestor; but for the name that the thread is defining,
      neither of them. -/
  | guarded (cache : CacheId) (ancestor : Option Resolver.Tree) (counters : CountersId)

namespace Resolver.Tree

mutual

/-- The artifacts that a tree holds: all that are linked in anywhere in it. -/
def artifacts : Tree → List Artifact
  | linked units => units.values
  | chain links => (artifactsOfLinks links).eraseDups
  | guarded _ none _ => []
  | guarded _ (some ancestor) _ => ancestor.artifacts

/-- The artifacts that the links of a chain hold, one link after the other. -/
def artifactsOfLinks : List Tree → List Artifact
  | [] => []
  | first :: rest => first.artifacts ++ artifactsOfLinks rest

end

def refuse (counters : CountersId) (name : Name) (w : World) : World :=
  (w.count counters .guardedMisses 1).record (.refusedInFlight name)

mutual

/-- The artifact that answers a name on a thread, with one more strong reference for the caller.
    A name that nobody knows comes back in the refusal. -/
def resolve (thread : ThreadId) (name : Name) : Tree → World → Except NotFound Artifact × World
  | linked units, w =>
    match units.get? name with
    | some artifact => (.ok artifact, w.retain artifact)
    | none => (.error ⟨name⟩, w)
  | chain links, w => resolveLinks thread name links w
  | guarded cache none counters, w =>
    if w.marker thread = some name then (.error ⟨name⟩, refuse counters name w)
    else
      match w.lookup cache name with
      | (some artifact, w) => (.ok artifact, w.count counters .cacheHits 1)
      | (none, w) => (.error ⟨name⟩, w)
  | guarded cache (some ancestor) counters, w =>
    if w.marker thread = some name then (.error ⟨name⟩, refuse counters name w)
    else
      match w.lookup cache name with
      | (some artifact, w) => (.ok artifact, w.count counters .cacheHits 1)
      | (none, w) => ancestor.resolve thread name w

/-- The answer of the first link that knows the name. -/
def resolveLinks (thread : ThreadId) (name : Name) :
    List Tree → World → Except NotFound Artifact × World
  | [], w => (.error ⟨name⟩, w)
  | first :: rest, w =>
    match first.resolve thread name w with
    | (.ok artifact, w) => (.ok artifact, w)
    | (.error _, w) => resolveLinks thread name rest w

end

end Resolver.Tree

/-- What answers names. -/
structure Resolver where
  tree : Resolver.Tree
  /-- The artifacts that the tree holds. -/
  artifacts : List Artifact
  artifacts_eq : artifacts = tree.artifacts

namespace Resolver

/-! ### Building resolvers -/

def linked (units : Table Name Artifact) : Resolver :=
  ⟨.linked units, units.values, by rw [Tree.artifacts]⟩

/-- The linked units after one more is linked in under its own name, and the unit that it
    replaces. -/
def link (units : Table Name Artifact) (artifact : Artifact) :
    Option Artifact × Table Name Artifact :=
  (units.get? artifact.name, units.insert artifact.name artifact)

private theorem flatMap_artifacts (links : List Resolver) :
    links.flatMap artifacts = Tree.artifactsOfLinks (links.map tree) := by
  induction links with
  | nil => simp [Tree.artifactsOfLinks]
  | cons first rest ih => simp [Tree.artifactsOfLinks, ih, first.artifacts_eq]

def chain (links : List Resolver) : Resolver :=
  ⟨.chain (links.map tree), (links.flatMap artifacts).eraseDups, by
    rw [Tree.artifacts, flatMap_artifacts]⟩

/-- A chain holds what its links hold. -/
theorem mem_artifacts_chain {links : List Resolver} {artifact : Artifact} :
    artifact ∈ (chain links).artifacts ↔ ∃ link ∈ links, artifact ∈ link.artifacts := by
  simp [chain]

/-- The chain without links. -/
def none : Resolver := chain []

instance : Inhabited Resolver := ⟨none⟩

def guarded (cache : CacheId) (ancestor : Option Resolver) (counters : CountersId) : Resolver :=
  ⟨.guarded cache (ancestor.map tree) counters, (ancestor.map artifacts).getD [], by
    cases ancestor with
    | none => simp [Tree.artifacts]
    | some ancestor => simp [Tree.artifacts, ancestor.artifacts_eq]⟩

/-! ### Using resolvers -/

/-- The artifact that answers a name on a thread, with one more strong reference for the caller.
    A name that nobody knows comes back in the refusal. -/
def resolve (resolver : Resolver) (thread : ThreadId) (name : Name) (w : World) :
    Except NotFound Artifact × World :=
  resolver.tree.resolve thread name w

/-- Adds a reference to a resolver: to each artifact that it holds. -/
def retain (resolver : Resolver) (w : World) : World := w.retainAll resolver.artifacts

def release (resolver : Resolver) (w : World) : World := w.releaseAll resolver.artifacts

def describeGuarded (cacheSize : Nat) (hasAncestor : Bool) : String :=
  "NameResolver \x7b cache_entries: " ++ toString cacheSize
    ++ ", has_ancestor: " ++ toString hasAncestor ++ " \x7d"

def describeChain (length : Nat) : String :=
  "ResolverChain \x7b links: " ++ toString length ++ " \x7d"

end Resolver

end Reload
