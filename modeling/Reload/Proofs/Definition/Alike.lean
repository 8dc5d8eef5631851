import Reload.Proofs.Definition.Memory

/-!
States that differ in refused definitions, and in nothing else: in the failures that were counted,
and in the warnings that were recorded. A step is blind to the difference if it gives the same answer
in both states and leaves states that differ in no more than that. Blind steps compose, and all that
happens in memory is blind.
-/

namespace Reload

/-- Whether an event is the refusal of a definition on a thread that is defining a unit. -/
def Event.isReentrance : Event → Bool
  | .refusedReentrant _ _ => true
  | _ => false

/-- The events that are not refusals of such definitions. -/
def World.remarks (w : World) : List Event := w.journal.filter fun event => !event.isReentrance

theorem World.remarks_record (w : World) (event : Event) :
    (w.record event).remarks = if event.isReentrance then w.remarks else event :: w.remarks := by
  cases event <;> rfl

/-- States that differ at most in the failures that were counted, and in the refusals that were
    recorded. -/
structure World.Alike (w w' : World) : Prop where
  frame : w' = { w with counters := w'.counters, journal := w'.journal }
  counters : ∀ id counter, counter ≠ .definitionFailures →
    w'.counter id counter = w.counter id counter
  remarks : w'.remarks = w.remarks

namespace World.Alike

variable {w w' w'' : World}

theorem refl (w : World) : w.Alike w := ⟨rfl, fun _ _ _ => rfl, rfl⟩

theorem trans (first : w.Alike w') (second : w'.Alike w'') : w.Alike w'' where
  frame := by
    rw [second.frame, first.frame]
  counters id counter other := (second.counters id counter other).trans (first.counters id counter other)
  remarks := second.remarks.trans first.remarks

/-- A failure that is counted makes no other difference. -/
theorem count_failures (w : World) (id : CountersId) (amount : UInt64) :
    w.Alike (w.count id .definitionFailures amount) where
  frame := rfl
  counters other counter different := by
    by_cases same : other = id
    · rw [same, counter_count, if_neg different]
    · exact w.counter_count_of_ne _ _ _ same
  remarks := rfl

/-- A refusal that is recorded makes no other difference. -/
theorem record_reentrance (w : World) (name running : Name) :
    w.Alike (w.record (.refusedReentrant name running)) := ⟨rfl, fun _ _ _ => rfl, rfl⟩

/-- What is neither counted nor recorded is read the same. -/
theorem read {α : Type} {f : World → α} (alike : w.Alike w')
    (same : ∀ w counters journal, f { w with counters, journal } = f w) : f w' = f w :=
  (congrArg f alike.frame).trans (same ..)

end World.Alike

/-- A step that answers the same in states that are alike, and leaves them alike. -/
structure World.Blind {α : Type} (f : World → α × World) : Prop where
  answer : ∀ {w w' : World}, w.Alike w' → (f w').1 = (f w).1
  after : ∀ {w w' : World}, w.Alike w' → (f w).2.Alike (f w').2

namespace World.Blind

variable {α β : Type} {f : World → α × World}

/-- A step that looks at neither counters nor journal, and leaves both alone. -/
theorem of_apart (apart : ∀ w counters journal,
    f { w with counters, journal } = ((f w).1, { (f w).2 with counters, journal })) : Blind f := by
  have changed : ∀ {w w' : World}, w.Alike w' →
      f w' = ((f w).1, { (f w).2 with counters := w'.counters, journal := w'.journal }) :=
    fun alike => (congrArg f alike.frame).trans (apart ..)
  have counters : ∀ w, (f w).2.counters = w.counters := fun w =>
    congrArg (·.2.counters) (apart w w.counters w.journal)
  have journal : ∀ w, (f w).2.journal = w.journal := fun w =>
    congrArg (·.2.journal) (apart w w.counters w.journal)
  refine ⟨fun alike => by rw [changed alike], fun {w w'} alike => ⟨?_, ?_, ?_⟩⟩
  · rw [changed alike]
  · intro id counter other
    simp only [World.counter, counters]
    exact alike.counters id counter other
  · simp only [remarks, journal]
    exact alike.remarks

theorem pure (value : α) : Blind fun w => (value, w) := of_apart fun _ _ _ => rfl

/-- A step whose course after another one depends on what that one answers. -/
theorem byAnswer {g : World → β × World} (first : Blind f)
    (courses : ∀ value, ∃ course : World → β × World, Blind course ∧
      ∀ w w', f w = (value, w') → g w = course w') : Blind g where
  answer {w w'} alike := by
    obtain ⟨course, blind, same⟩ := courses (f w).1
    rw [same w (f w).2 rfl, same w' (f w').2 (Prod.ext (first.answer alike) rfl)]
    exact blind.answer (first.after alike)
  after {w w'} alike := by
    obtain ⟨course, blind, same⟩ := courses (f w).1
    rw [same w (f w).2 rfl, same w' (f w').2 (Prod.ext (first.answer alike) rfl)]
    exact blind.after (first.after alike)

theorem bind {g : α → World → β × World} (first : Blind f) (second : ∀ value, Blind (g value)) :
    Blind fun w => g (f w).1 (f w).2 :=
  first.byAnswer fun value => ⟨g value, second value, fun w w' answered => by rw [answered]⟩

theorem read {g : World → α} (same : ∀ w counters journal, g { w with counters, journal } = g w) :
    Blind fun w => (g w, w) := of_apart fun w counters journal => by rw [same]

/-- A choice that depends on what is neither counted nor recorded. -/
theorem branch {p : World → Prop} [DecidablePred p] {g : World → α × World}
    (same : ∀ w counters journal, p { w with counters, journal } = p w) (first : Blind f)
    (second : Blind g) : Blind fun w => if p w then f w else g w := by
  refine (read same).byAnswer fun chosen => ?_
  by_cases holds : chosen
  · refine ⟨f, first, fun w w' answered => ?_⟩
    obtain ⟨rfl, rfl⟩ := Prod.mk.inj answered
    exact if_pos holds
  · refine ⟨g, second, fun w w' answered => ?_⟩
    obtain ⟨rfl, rfl⟩ := Prod.mk.inj answered
    exact if_neg holds

theorem count (id : CountersId) (counter : Counter) (amount : UInt64) :
    Blind fun w => ((), w.count id counter amount) where
  answer _ := rfl
  after alike := by
    refine ⟨congrArg (fun w => w.count id counter amount) alike.frame, ?_, alike.remarks⟩
    intro other counter' different
    by_cases same : other = id
    · rw [same, counter_count, counter_count, alike.counters id counter' different]
    · rw [counter_count_of_ne _ _ _ _ same, counter_count_of_ne _ _ _ _ same,
        alike.counters other counter' different]

theorem record (event : Event) : Blind fun w => ((), w.record event) where
  answer _ := rfl
  after alike := by
    refine ⟨congrArg (fun w => w.record event) alike.frame, alike.counters, ?_⟩
    rw [remarks_record, remarks_record, alike.remarks]

theorem lookup (cache : CacheId) (name : Name) : Blind fun w => w.lookup cache name := by
  refine of_apart fun w counters journal => ?_
  have same : (World.lookup { w with counters, journal } cache name).1 = (w.lookup cache name).1 := by
    rw [lookup_eq, lookup_eq]
    rfl
  refine Prod.ext same ?_
  rw [lookup_world, same, lookup_world w]
  cases (w.lookup cache name).1 <;> rfl

theorem publish (cache : CacheId) (name : Name) (artifact : Artifact) :
    Blind fun w => w.publish cache name artifact := of_apart fun _ _ _ => rfl

theorem retain (artifact : Artifact) : Blind fun w => ((), w.retain artifact) :=
  of_apart fun _ _ _ => rfl

theorem release (artifact : Artifact) : Blind fun w => ((), w.release artifact) :=
  of_apart fun _ _ _ => rfl

end World.Blind

/-! ### Resolutions -/

namespace Resolver

private theorem blind_guarded {thread : ThreadId} {name : Name} {cache : CacheId}
    {counters : CountersId} {next : World → Except NotFound Artifact × World}
    (asks : World.Blind next) :
    World.Blind fun w =>
      if w.marker thread = some name then (.error ⟨name⟩, Tree.refuse counters name w)
      else
        match w.lookup cache name with
        | (some artifact, w) => (.ok artifact, w.count counters .cacheHits 1)
        | (.none, w) => next w := by
  refine .branch (fun _ _ _ => rfl) ?_ ?_
  · exact ((World.Blind.count counters .guardedMisses 1).bind fun _ =>
      World.Blind.record (.refusedInFlight name)).bind fun _ => .pure _
  refine (World.Blind.lookup cache name).byAnswer fun found => ?_
  cases found with
  | none =>
    exact ⟨next, asks, fun w w' missed => by rw [missed]⟩
  | some artifact =>
    refine ⟨_, (World.Blind.count counters .cacheHits 1).bind fun _ => .pure (.ok artifact), ?_⟩
    exact fun w w' hit => by rw [hit]

mutual

private theorem blind_tree (thread : ThreadId) (name : Name) (tree : Tree) :
    World.Blind fun w => tree.resolve thread name w := by
  match tree with
  | .linked units =>
    simp only [Tree.resolve]
    cases units.get? name with
    | none => exact .pure _
    | some artifact => exact (World.Blind.retain artifact).bind fun _ => .pure (Except.ok artifact)
  | .chain links =>
    simp only [Tree.resolve]
    exact blind_links thread name links
  | .guarded cache .none counters =>
    simp only [Tree.resolve]
    exact blind_guarded (.pure _)
  | .guarded cache (some ancestor) counters =>
    simp only [Tree.resolve]
    exact blind_guarded (blind_tree thread name ancestor)

private theorem blind_links (thread : ThreadId) (name : Name) (links : List Tree) :
    World.Blind fun w => Tree.resolveLinks thread name links w := by
  match links with
  | [] =>
    simp only [Tree.resolveLinks]
    exact .pure _
  | first :: rest =>
    simp only [Tree.resolveLinks]
    refine (blind_tree thread name first).byAnswer fun answer => ?_
    cases answer with
    | ok artifact =>
      exact ⟨_, .pure (.ok artifact), fun w w' hit => by rw [hit]⟩
    | error missing =>
      exact ⟨_, blind_links thread name rest, fun w w' missed => by rw [missed]⟩

end

/-- No resolver looks at what was counted or recorded. -/
theorem blind_resolve (resolver : Resolver) (thread : ThreadId) (name : Name) :
    World.Blind fun w => resolver.resolve thread name w := blind_tree thread name resolver.tree

end Resolver

/-! ### Contexts in memory -/

namespace MemoryContext

variable (context : MemoryContext)

theorem blind_instantiate (api : UInt16) (image : Bytes) (parent : Resolver) :
    World.Blind fun w => instantiate api image parent w := by
  refine .of_apart fun w counters journal => ?_
  unfold instantiate
  split
  · rfl
  · split
    · rfl
    · split
      · rfl
      · simp only [retain, Resolver.retain, World.retainAll_eq]

private theorem blind_own : World.Blind fun w => context.own w := by
  have built : World.Blind fun w => (w.built context.id, w) := .read fun _ _ _ => rfl
  refine built.byAnswer fun found => ?_
  cases found with
  | none =>
    have builds : World.Blind fun w => (context.fresh w, context.build w) :=
      .of_apart fun _ _ _ => rfl
    refine ⟨_, builds, fun w w' answered => ?_⟩
    obtain ⟨unbuilt, rfl⟩ := Prod.mk.inj answered
    simp only [own, unbuilt]
    rfl
  | some artifact =>
    refine ⟨_, (World.Blind.retain artifact).bind fun _ => .pure artifact, fun w w' answered => ?_⟩
    obtain ⟨built, rfl⟩ := Prod.mk.inj answered
    simp only [own, built]

theorem blind_load (thread : ThreadId) (name : Name) :
    World.Blind fun w => context.load thread name w := by
  refine (context.parent.blind_resolve thread name).byAnswer fun answer => ?_
  cases answer with
  | ok artifact =>
    refine ⟨_, .pure (.ok artifact), fun w w' hit => ?_⟩
    unfold load
    rw [hit]
  | error missing =>
    by_cases named : name = context.unit
    · refine ⟨_, context.blind_own.bind fun artifact => .pure (.ok artifact), fun w w' missed => ?_⟩
      unfold load
      rw [missed]
      exact if_pos named
    · refine ⟨_, .pure (.error (.notFound missing)), fun w w' missed => ?_⟩
      unfold load
      rw [missed]
      exact if_neg named

theorem load_marker (thread : ThreadId) (name : Name) (w : World) :
    (context.load thread name w).2.marker = w.marker := by
  have asked := congrArg World.marker (context.parent.answered thread name w).frame
  unfold load
  rcases answer : context.parent.resolve thread name w with ⟨missing | artifact, w'⟩
  · rw [answer] at asked
    by_cases named : name = context.unit
    · simp only [named, if_true]
      refine Eq.trans ?_ asked
      unfold own
      cases w'.built context.id <;> rfl
    · simp only [named, if_false]
      exact asked
  · rw [answer] at asked
    exact asked

private theorem blind_releaseAll (artifacts : List Artifact) :
    World.Blind fun w => ((), w.releaseAll artifacts) := by
  induction artifacts with
  | nil => exact .pure ()
  | cons first rest ih =>
    exact (World.Blind.release first).bind fun _ => ih

private theorem blind_letGo : World.Blind fun w => ((), context.letGo w) := by
  refine .of_apart fun w counters journal => Prod.ext rfl ?_
  unfold letGo
  by_cases held : context.id ∈ w.contexts
  · simp only [if_pos held]
  · simp only [if_neg held]
    cases w.built context.id <;> rfl

theorem blind_close : World.Blind fun w => ((), context.close w) := by
  have dropped : World.Blind fun w : World =>
      ((), { w with contexts := w.contexts.erase context.id }) := .of_apart fun _ _ _ => rfl
  exact (dropped.bind fun _ => blind_releaseAll context.parent.artifacts).bind
    fun _ => context.blind_letGo

end MemoryContext

end Reload
