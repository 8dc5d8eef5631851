import Reload.Proofs.Definition.Exits
import Reload.Proofs.Resolution

/-!
First hit. A tree of resolvers, however deep, answers like a list of sources that are asked one
after the other (`Tree.resolve_eq_askAll`), and the first source that has the name answers. The
list is the tree read from left to right: a chain is its links in order, and a guarded tree is its
cache and then what its ancestor asks. For the name that the thread is defining, a guarded tree is
a refusal in the list, and neither its cache nor anything below it is there at all; the sources to
its right are.
-/

namespace Reload

/-! ### The sources of a tree -/

/-- What stands in the list that a tree is read as. -/
inductive Source where
  /-- Units that were linked in up front. -/
  | linked (units : Table Name Artifact)
  /-- The cache of a guarded tree, with the counters of the tree. -/
  | cached (cache : CacheId) (counters : CountersId)
  /-- A guarded tree that refuses, with its counters. -/
  | refused (counters : CountersId)

namespace Resolver

namespace Tree

mutual

/-- The sources of a tree from left to right, for a name that the thread is defining or for
    another name. -/
def sources (inFlight : Bool) : Tree → List Source
  | linked units => [.linked units]
  | chain links => sourcesOfLinks inFlight links
  | guarded cache .none counters =>
    if inFlight then [.refused counters] else [.cached cache counters]
  | guarded cache (some ancestor) counters =>
    if inFlight then [.refused counters] else .cached cache counters :: ancestor.sources inFlight

/-- The sources of the links of a chain, one link after the other. -/
def sourcesOfLinks (inFlight : Bool) : List Tree → List Source
  | [] => []
  | first :: rest => first.sources inFlight ++ sourcesOfLinks inFlight rest

end

end Tree

/-- What a resolver asks for a name on a thread, in this order. -/
def sources (resolver : Resolver) (thread : ThreadId) (name : Name) (w : World) : List Source :=
  resolver.tree.sources (decide (w.marker thread = some name))

end Resolver

namespace Source

/-- The artifact that a source has under a name. A cache has it only while it is alive. -/
def hit? (name : Name) (w : World) : Source → Option Artifact
  | linked units => units.get? name
  | cached cache _ => ((w.entries cache).get? name).filter w.alive
  | refused _ => none

/-- The counters in which a hit of the source is counted. -/
def hitCounters? : Source → Option CountersId
  | cached _ counters => some counters
  | linked _ | refused _ => none

/-- The counters in which a refusal is counted. -/
def refusalCounters? : Source → Option CountersId
  | refused counters => some counters
  | linked _ | cached _ _ => none

/-! ### Asking one source after the other -/

/-- Asks one source. An artifact that answers gets one more strong reference. -/
def ask (name : Name) (w : World) : Source → Option Artifact × World
  | linked units =>
    match units.get? name with
    | some artifact => (some artifact, w.retain artifact)
    | none => (none, w)
  | cached cache counters =>
    match w.lookup cache name with
    | (some artifact, w) => (some artifact, w.count counters .cacheHits 1)
    | (none, w) => (none, w)
  | refused counters => (none, Resolver.Tree.refuse counters name w)

/-- Asks the sources until one answers. -/
def askAll (name : Name) : List Source → World → Except NotFound Artifact × World
  | [], w => (.error ⟨name⟩, w)
  | first :: rest, w =>
    match first.ask name w with
    | (some artifact, w) => (.ok artifact, w)
    | (none, w) => askAll name rest w

theorem askAll_append (name : Name) (first rest : List Source) (w : World) :
    askAll name (first ++ rest) w =
      match askAll name first w with
      | (.ok artifact, w) => (.ok artifact, w)
      | (.error _, w) => askAll name rest w := by
  induction first generalizing w with
  | nil => rfl
  | cons source others ih =>
    simp only [List.cons_append, askAll]
    rcases source.ask name w with ⟨_ | artifact, w'⟩
    · exact ih w'
    · rfl

/-- A source that has the artifact answers with it. -/
theorem ask_of_hit {name : Name} {w : World} {source : Source} {artifact : Artifact}
    (hit : source.hit? name w = some artifact) :
    source.ask name w = (some artifact,
      match source.hitCounters? with
      | some counters => (w.retain artifact).count counters .cacheHits 1
      | none => w.retain artifact) := by
  cases source with
  | linked units =>
    replace hit : units.get? name = some artifact := hit
    simp [ask, hit, hitCounters?]
  | cached cache counters =>
    have found : (w.lookup cache name).1 = some artifact := (w.lookup_eq cache name).trans hit
    have world := w.lookup_world cache name
    rcases look : w.lookup cache name with ⟨answer, w'⟩
    rw [look] at found world
    obtain rfl : answer = some artifact := found
    obtain rfl : w' = w.retain artifact := world
    simp [ask, look, hitCounters?]
  | refused counters => cases hit

/-- A source that does not have the name changes nothing, unless it is a refusal. -/
theorem ask_of_miss {name : Name} {w : World} {source : Source}
    (miss : source.hit? name w = none) :
    source.ask name w = (none,
      match source.refusalCounters? with
      | some counters => Resolver.Tree.refuse counters name w
      | none => w) := by
  cases source with
  | linked units =>
    replace miss : units.get? name = none := miss
    simp [ask, miss, refusalCounters?]
  | cached cache counters =>
    have found : (w.lookup cache name).1 = none := (w.lookup_eq cache name).trans miss
    have world := w.lookup_world cache name
    rcases look : w.lookup cache name with ⟨answer, w'⟩
    rw [look] at found world
    obtain rfl : answer = none := found
    obtain rfl : w' = w := world
    simp [ask, look, refusalCounters?]
  | refused counters => rfl

/-- What a source has depends on the entries and on the references. -/
theorem hit?_refuse (name : Name) (counters : CountersId) (w : World) (source : Source) :
    source.hit? name (Resolver.Tree.refuse counters name w) = source.hit? name w := by
  cases source <;> rfl

end Source

/-! ### A tree is asked like its sources -/

namespace Resolver.Tree

mutual

/-- Asking a tree is asking its sources one after the other. -/
theorem resolve_eq_askAll (thread : ThreadId) (name : Name) (tree : Tree) (w : World) :
    tree.resolve thread name w =
      Source.askAll name (tree.sources (decide (w.marker thread = some name))) w := by
  match tree with
  | .linked units =>
    unfold Tree.resolve Tree.sources
    simp only [Source.askAll, Source.ask]
    cases units.get? name <;> rfl
  | .chain links =>
    unfold Tree.resolve Tree.sources
    exact resolveLinks_eq_askAll thread name links w
  | .guarded cache .none counters =>
    unfold Tree.resolve Tree.sources
    by_cases marked : w.marker thread = some name
    · simp [marked, Source.askAll, Source.ask]
    · simp only [marked, decide_false, if_false, Bool.false_eq_true, Source.askAll, Source.ask]
      rcases w.lookup cache name with ⟨_ | artifact, w'⟩ <;> rfl
  | .guarded cache (some ancestor) counters =>
    unfold Tree.resolve Tree.sources
    by_cases marked : w.marker thread = some name
    · simp [marked, Source.askAll, Source.ask]
    · have world := w.lookup_world cache name
      have later := resolve_eq_askAll thread name ancestor w
      simp only [marked, decide_false, if_false, Bool.false_eq_true, Source.askAll, Source.ask] at later ⊢
      rcases look : w.lookup cache name with ⟨_ | artifact, w'⟩
      · rw [look] at world
        obtain rfl : w' = w := world
        exact later
      · rfl

/-- Asking the links of a chain is asking the sources of all of them. -/
theorem resolveLinks_eq_askAll (thread : ThreadId) (name : Name) (links : List Tree) (w : World) :
    resolveLinks thread name links w =
      Source.askAll name (sourcesOfLinks (decide (w.marker thread = some name)) links) w := by
  match links with
  | [] =>
    unfold resolveLinks sourcesOfLinks
    rfl
  | first :: rest =>
    unfold resolveLinks sourcesOfLinks
    rw [Source.askAll_append, ← resolve_eq_askAll thread name first w]
    have asked := Resolver.answered ⟨first, first.artifacts, rfl⟩ thread name w
    have marker := congrArg World.marker asked.frame
    change (first.resolve thread name w).2.marker = w.marker at marker
    rcases answer : first.resolve thread name w with ⟨_ | artifact, w'⟩
    · rw [answer] at marker
      rw [← marker]
      exact resolveLinks_eq_askAll thread name rest w'
    · rfl

end

end Resolver.Tree

/-! ### The first hit answers -/

namespace Source

/-- The source that answers, if any does. -/
def first? (name : Name) (w : World) (sources : List Source) : Option Source :=
  sources.find? fun source => (source.hit? name w).isSome

/-- The refusals in front of the source that answers, or all of them if none answers. -/
def refusals (name : Name) (w : World) (sources : List Source) : List CountersId :=
  (sources.takeWhile fun source => (source.hit? name w).isNone).filterMap refusalCounters?

/-- How a counter grows when these sources are asked. -/
def growth (name : Name) (w : World) (sources : List Source) (id : CountersId) : Counter → UInt64
  | .cacheHits => if (first? name w sources).bind hitCounters? = some id then 1 else 0
  | .guardedMisses => UInt64.ofNat ((refusals name w sources).count id)
  | _ => 0

/-- What it means that these sources are asked, and the first that has the name answers. -/
structure FirstHit (name : Name) (sources : List Source) (w : World)
    (outcome : Except NotFound Artifact × World) : Prop where
  /-- The first hit is the answer. Without one, the refusal has the name that was asked for. -/
  answer : outcome.1 =
    match sources.findSome? (hit? name w) with
    | some artifact => .ok artifact
    | none => .error ⟨name⟩
  /-- Besides the reference that the caller gets, only counters and the journal change. -/
  frame : outcome.2 = { w with
    held := (sources.findSome? (hit? name w)).toList.map Artifact.serial ++ w.held
    counters := outcome.2.counters, journal := outcome.2.journal }
  journal : outcome.2.journal =
    (refusals name w sources).map (fun _ => .refusedInFlight name) ++ w.journal
  counter : ∀ id counter, outcome.2.counter id counter =
    w.counter id counter + growth name w sources id counter

private theorem FirstHit.hit {name : Name} {w : World} {source : Source} {artifact : Artifact}
    (rest : List Source) (hit : source.hit? name w = some artifact) :
    FirstHit name (source :: rest) w (askAll name (source :: rest) w) := by
  have found : (source :: rest).findSome? (hit? name w) = some artifact := by simp [hit]
  have unrefused : refusals name w (source :: rest) = [] := by simp [refusals, hit]
  have here : first? name w (source :: rest) = some source := by simp [first?, hit]
  rw [askAll, ask_of_hit hit]
  cases counted : source.hitCounters? with
  | none =>
    refine ⟨by rw [found], by rw [found]; rfl, by rw [unrefused]; rfl, fun id counter => ?_⟩
    have still : growth name w (source :: rest) id counter = 0 := by
      cases counter <;> simp [growth, here, unrefused, counted]
    simp [still, World.counter, World.retain]
  | some counters =>
    refine ⟨by rw [found], by rw [found]; rfl, by rw [unrefused]; rfl, fun id counter => ?_⟩
    by_cases own : id = counters
    · subst own
      refine (World.counter_count ..).trans ?_
      cases counter <;> simp [growth, here, unrefused, counted, World.counter, World.retain]
    · refine (World.counter_count_of_ne _ _ _ _ own).trans ?_
      cases counter <;>
        simp [growth, here, unrefused, counted, World.counter, World.retain, Ne.symm own]

/-- A refusal grows by one in its own counters. -/
private theorem counter_refuse (name : Name) (counters id : CountersId) (w : World)
    (counter : Counter) :
    (Resolver.Tree.refuse counters name w).counter id counter =
      w.counter id counter + if counter = .guardedMisses ∧ id = counters then 1 else 0 := by
  by_cases own : id = counters
  · subst own
    refine (World.counter_count w id .guardedMisses counter 1).trans ?_
    by_cases misses : counter = .guardedMisses <;> simp [misses]
  · refine (World.counter_count_of_ne w _ _ _ own).trans ?_
    simp [own]

private theorem growth_refused {name : Name} {w : World} {source : Source} {rest : List Source}
    {counters : CountersId} (miss : source.hit? name w = none)
    (refused : source.refusalCounters? = some counters) (id : CountersId) (counter : Counter) :
    growth name w (source :: rest) id counter =
      (if counter = .guardedMisses ∧ id = counters then 1 else 0) +
        growth name w rest id counter := by
  have first : first? name w (source :: rest) = first? name w rest := by simp [first?, miss]
  have passed : refusals name w (source :: rest) = counters :: refusals name w rest := by
    simp [refusals, miss, refused]
  cases counter with
  | guardedMisses =>
    by_cases own : id = counters
    · simp [growth, passed, own, UInt64.ofNat_add, UInt64.add_comm]
    · simp [growth, passed, own, Ne.symm own]
  | _ => simp [growth, first]

private theorem FirstHit.miss {name : Name} {w : World} {source : Source} {rest : List Source}
    (miss : source.hit? name w = none)
    (later : ∀ w', FirstHit name rest w' (askAll name rest w')) :
    FirstHit name (source :: rest) w (askAll name (source :: rest) w) := by
  have found : (source :: rest).findSome? (hit? name w) = rest.findSome? (hit? name w) := by
    simp [miss]
  have first : first? name w (source :: rest) = first? name w rest := by simp [first?, miss]
  rw [askAll, ask_of_miss miss]
  cases refused : source.refusalCounters? with
  | none =>
    have passed : refusals name w (source :: rest) = refusals name w rest := by
      simp [refusals, miss, refused]
    have same (id : CountersId) (counter : Counter) :
        growth name w (source :: rest) id counter = growth name w rest id counter := by
      cases counter <;> simp [growth, first, passed]
    obtain ⟨answered, frame, journal, counted⟩ := later w
    exact ⟨by rw [found]; exact answered, by rw [found]; exact frame,
      by rw [passed]; exact journal, fun id counter => by rw [same]; exact counted id counter⟩
  | some counters =>
    have passed : refusals name w (source :: rest) = counters :: refusals name w rest := by
      simp [refusals, miss, refused]
    -- The refusal changes nothing that the other sources answer from.
    have hits : hit? name (Resolver.Tree.refuse counters name w) = hit? name w :=
      funext (hit?_refuse name counters w)
    obtain ⟨answered, frame, journal, counted⟩ := later (Resolver.Tree.refuse counters name w)
    simp only [hits, refusals] at answered frame journal
    refine ⟨by rw [found]; exact answered, by rw [found]; exact frame, ?_, fun id counter => ?_⟩
    · have recorded : (Resolver.Tree.refuse counters name w).journal =
          .refusedInFlight name :: w.journal := rfl
      rw [passed, journal, recorded, List.map_const', List.map_const', List.length_cons,
        List.replicate_succ', List.append_assoc]
      rfl
    · have first : first? name (Resolver.Tree.refuse counters name w) rest =
          first? name w rest := by simp only [first?, hits]
      have passed : refusals name (Resolver.Tree.refuse counters name w) rest =
          refusals name w rest := by simp only [refusals, hits]
      have same : growth name (Resolver.Tree.refuse counters name w) rest id counter =
          growth name w rest id counter := by
        unfold growth
        rw [first, passed]
      rw [counted id counter, counter_refuse, growth_refused miss refused, same,
        UInt64.add_assoc]

/-- Of sources that are asked one after the other, the first that has the name answers. -/
theorem firstHit_askAll (name : Name) (sources : List Source) (w : World) :
    FirstHit name sources w (askAll name sources w) := by
  induction sources generalizing w with
  | nil =>
    refine ⟨rfl, rfl, rfl, fun id counter => ?_⟩
    cases counter <;> simp [askAll, growth, first?, refusals]
  | cons source rest ih =>
    cases found : source.hit? name w with
    | some artifact => exact .hit rest found
    | none => exact .miss found ih

end Source

namespace Resolver

open Source (hitCounters? refusalCounters?)

/-! ### What resolvers answer -/

/-- The units that are linked in, one artifact after the other. -/
def linkAll (inserted : List Artifact) : Table Name Artifact :=
  inserted.foldl (fun units artifact => (link units artifact).2) .empty

/-- Linked units have the artifact that was linked in last under its name. -/
theorem get?_linkAll (inserted : List Artifact) (name : Name) :
    (linkAll inserted).get? name = inserted.reverse.find? fun artifact => artifact.name = name := by
  unfold linkAll
  rw [← List.foldr_reverse]
  induction inserted.reverse with
  | nil => rfl
  | cons last earlier ih =>
    rw [List.foldr_cons, link, Table.get?_insert, ih]
    by_cases named : last.name = name
    · simp [named]
    · simp [named, Ne.symm named]

mutual

/-- For the name that the thread is defining, no cache is asked; for another, nothing refuses. -/
private theorem cut_sources (inFlight : Bool) (tree : Tree) :
    ∀ source ∈ tree.sources inFlight,
      (if inFlight then source.hitCounters? else source.refusalCounters?) = .none := by
  match tree with
  | .linked units => cases inFlight <;> simp [Tree.sources, hitCounters?, refusalCounters?]
  | .chain links =>
    rw [Tree.sources]
    exact cut_sourcesOfLinks inFlight links
  | .guarded cache .none counters =>
    cases inFlight <;> simp [Tree.sources, hitCounters?, refusalCounters?]
  | .guarded cache (some ancestor) counters =>
    cases inFlight with
    | true => simp [Tree.sources, hitCounters?]
    | false => simpa [Tree.sources, refusalCounters?] using cut_sources false ancestor

private theorem cut_sourcesOfLinks (inFlight : Bool) (links : List Tree) :
    ∀ source ∈ Tree.sourcesOfLinks inFlight links,
      (if inFlight then source.hitCounters? else source.refusalCounters?) = .none := by
  match links with
  | [] => simp [Tree.sourcesOfLinks]
  | first :: rest =>
    intro source listed
    rw [Tree.sourcesOfLinks, List.mem_append] at listed
    rcases listed with here | later
    · exact cut_sources inFlight first source here
    · exact cut_sourcesOfLinks inFlight rest source later

end

/-- A resolver asks its sources from left to right, and the first that has the name answers. -/
theorem resolve_first_hit (resolver : Resolver) (thread : ThreadId) (name : Name) (w : World) :
    Source.FirstHit name (resolver.sources thread name w) w (resolver.resolve thread name w) ∧
      (w.marker thread ≠ some name →
        ∀ source ∈ resolver.sources thread name w, source.refusalCounters? = .none) ∧
      (w.marker thread = some name →
        ∀ source ∈ resolver.sources thread name w, source.hitCounters? = .none) ∧
      ∀ inserted, (linkAll inserted).get? name =
        inserted.reverse.find? fun artifact => artifact.name = name := by
  refine ⟨?_, fun other => ?_, fun marked => ?_, fun inserted => get?_linkAll inserted name⟩
  · rw [resolve, Tree.resolve_eq_askAll]
    exact Source.firstHit_askAll ..
  · simpa [sources, other] using cut_sources false resolver.tree
  · simpa [sources, marked] using cut_sources true resolver.tree

/-- A link that refuses the name that the thread is defining leaves the answer to the next link. -/
example :
    let unit : Artifact := ⟨1, ⟨"a", by decide⟩, 0, .nothing⟩
    ((chain [guarded .processWide .none ⟨0⟩, linked (linkAll [unit])]).resolve .first unit.name
      { marker := fun _ => some unit.name }).1 = .ok unit := by
  rfl

end Resolver

end Reload
