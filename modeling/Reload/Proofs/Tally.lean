import Mathlib.Algebra.BigOperators.Finprod
import Mathlib.Data.UInt
import Reload.Proofs.Definition.Memory
import Reload.Proofs.FirstHit

/-!
Counters and events tell the same. What all counters of a kind have together, with 64 bits, is compared
with what the events of the journal come to; the difference is the surplus (`World.surplus`). Nothing
that a program does besides defining changes it, and nothing of that is an event above the debug level
(`Operation.tallied`).
-/

namespace Reload

/-! ### What is compared -/

/-- What an event stands for in a counter of this kind. Hits in caches are no events. -/
def Event.weight : Counter → Event → UInt64
  | .definitions, defined .. => 1
  | .definitionFailures, refusedReentrant .. | .definitionFailures, failed .. => 1
  | .redefinitions, invalidated _ => 1
  | .guardedMisses, refusedInFlight _ => 1
  | .entriesSwept, defined _ _ swept => UInt64.ofNat swept
  | _, _ => 0

/-- Whether what is counted is also an event. -/
def Counter.recorded : Counter → Bool
  | .cacheHits => false
  | .definitions | .definitionFailures | .redefinitions | .guardedMisses | .entriesSwept => true

namespace World

/-- Finitely many counters have counted anything. -/
def Sparse (w : World) : Prop := ∀ counter, (fun id => w.counter id counter).HasFiniteSupport

/-- What all counters of a kind have counted together. -/
noncomputable def summed (w : World) (counter : Counter) : UInt64 := ∑ᶠ id, w.counter id counter

/-- What the events come to. -/
def tally (w : World) (counter : Counter) : UInt64 := (w.journal.map (Event.weight counter)).sum

/-- What was counted and is no event, less what is an event and was not counted. -/
noncomputable def surplus (w : World) (counter : Counter) : UInt64 := w.summed counter - w.tally counter

variable {w w' : World}

private theorem counter_count_eq (w : World) (id other : CountersId) (counter counted : Counter)
    (amount : UInt64) : (w.count id counted amount).counter other counter =
      w.counter other counter + if other = id ∧ counter = counted then amount else 0 := by
  by_cases own : other = id
  · subst own
    refine (w.counter_count other counted counter amount).trans ?_
    split <;> simp [*]
  · rw [w.counter_count_of_ne _ _ _ own]
    simp [own]

private theorem finite_single (id : CountersId) (amount : UInt64) (p : Prop) [Decidable p] :
    (fun other => if other = id ∧ p then amount else 0).HasFiniteSupport :=
  (Set.finite_singleton id).subset fun other nonzero => by
    by_contra different
    exact nonzero (by simp [show other ≠ id from different])

theorem Sparse.count (sparse : w.Sparse) (id : CountersId) (counted : Counter) (amount : UInt64) :
    (w.count id counted amount).Sparse := by
  intro counter
  simp only [counter_count_eq]
  exact (sparse counter).add (finite_single id amount _)

theorem summed_count (sparse : w.Sparse) (id : CountersId) (counted counter : Counter)
    (amount : UInt64) : (w.count id counted amount).summed counter =
      w.summed counter + if counter = counted then amount else 0 := by
  have added : ∑ᶠ other, (if other = id ∧ counter = counted then amount else 0) =
      if counter = counted then amount else 0 := by
    rw [finsum_eq_single _ id fun other different => if_neg fun both => different both.1]
    simp
  unfold summed
  simp only [counter_count_eq]
  rw [finsum_add_distrib (sparse counter) (finite_single id amount _), added]

end World

/-- What a note adds to the surplus. -/
def Note.worth (counter : Counter) : Note → UInt64
  | count counted amount => if counter = counted then amount else 0
  | record event => -event.weight counter

theorem Note.sparse_apply (note : Note) (id : CountersId) {w : World} (sparse : w.Sparse) :
    (note.apply id w).Sparse := by
  cases note with
  | count counted amount => exact fun counter => sparse.count id counted amount counter
  | record event => exact sparse

theorem Note.surplus_apply (note : Note) (id : CountersId) {w : World} (sparse : w.Sparse)
    (counter : Counter) : (note.apply id w).surplus counter = w.surplus counter + note.worth counter := by
  cases note with
  | count counted amount =>
    have summed := w.summed_count sparse id counted counter amount
    have tally : (w.count id counted amount).tally counter = w.tally counter := rfl
    simp only [apply, worth, World.surplus, summed, tally]
    exact add_sub_right_comm ..
  | record event =>
    have summed : (w.record event).summed counter = w.summed counter := rfl
    have tally : (w.record event).tally counter = event.weight counter + w.tally counter := by
      simp [World.tally, World.record]
    simp only [apply, worth, World.surplus, summed, tally]
    rw [sub_add_eq_sub_sub_swap, sub_eq_add_neg]

/-! ### What programs do besides defining -/

/-- One thing that a program does, or several of them. It defines nothing, and it changes counters and
    the journal only by resolving names. -/
inductive Operation : World → World → Prop where
  /-- Code that has to do with neither counters nor the journal. -/
  | aside {w w' : World} (counters : w'.counters = w.counters) (journal : w'.journal = w.journal) :
      Operation w w'
  | resolve (resolver : Resolver) (thread : ThreadId) (name : Name) (w : World) :
      Operation w (resolver.resolve thread name w).2
  | lookup (cache : CacheId) (name : Name) (w : World) : Operation w (w.lookup cache name).2
  | invalidate (cache : CacheId) (name : Name) (w : World) :
      Operation w (w.invalidate cache name).2
  | publish (cache : CacheId) (name : Name) (artifact : Artifact) (w : World) :
      Operation w (w.publish cache name artifact).2
  | clear (cache : CacheId) (w : World) : Operation w (w.clear cache)
  | create (name : Name) (imageSize : Nat) (payload : Payload) (w : World) :
      Operation w (w.create name imageSize payload).2
  | retain (artifacts : List Artifact) (w : World) : Operation w (w.retainAll artifacts)
  | release (artifacts : List Artifact) (w : World) : Operation w (w.releaseAll artifacts)
  | mark (thread : ThreadId) (name : Name) (w : World) : Operation w (w.mark thread name).2
  | unmark (thread : ThreadId) (w : World) : Operation w (w.unmark thread)
  | lockFor (set : LockSetId) (name : Name) (w : World) : Operation w (w.lockFor set name).2
  | acquire (lock : LockId) (thread : ThreadId) (w : World) : Operation w (w.acquire lock thread)
  | unlock (lock : LockId) (panicking : Bool) (w : World) : Operation w (w.unlock lock panicking)
  | dropHandle (lock : LockId) (w : World) : Operation w (w.dropHandle lock)
  | newThread (w : World) : Operation w w.newThread.2
  | newCache (w : World) : Operation w w.newCache.2
  | newLockSet (w : World) : Operation w w.newLockSet.2
  | newCounters (w : World) : Operation w w.newCounters.2
  | instantiate (api : UInt16) (image : Bytes) (parent : Resolver) (w : World) :
      Operation w (MemoryContext.instantiate api image parent w).2
  | load (context : MemoryContext) (thread : ThreadId) (name : Name) (w : World) :
      Operation w (context.load thread name w).2
  | close (context : MemoryContext) (w : World) : Operation w (context.close w)
  | both {w w₁ w' : World} (first : Operation w w₁) (second : Operation w₁ w') : Operation w w'

/-- A change that counts and records in balance, and no event above the debug level. -/
structure World.Tallied (w w' : World) : Prop where
  sparse : w.Sparse → w'.Sparse
  surplus : w.Sparse → ∀ counter : Counter, counter.recorded → w'.surplus counter = w.surplus counter
  events : ∃ events, w'.journal = events ++ w.journal ∧ ∀ event ∈ events, event.level = .debug

namespace World.Tallied

variable {w w₁ w' : World}

theorem aside (counters : w'.counters = w.counters) (journal : w'.journal = w.journal) :
    w.Tallied w' where
  sparse sparse := by simpa only [Sparse, counter, counters] using sparse
  surplus _ counter _ := by simp only [World.surplus, summed, World.counter, tally, counters, journal]
  events := ⟨[], journal, by simp⟩

theorem trans (first : w.Tallied w₁) (second : w₁.Tallied w') : w.Tallied w' where
  sparse sparse := second.sparse (first.sparse sparse)
  surplus sparse counter recorded := by
    rw [second.surplus (first.sparse sparse) counter recorded, first.surplus sparse counter recorded]
  events := by
    obtain ⟨earlier, journal, debug⟩ := first.events
    obtain ⟨later, journal', debug'⟩ := second.events
    refine ⟨later ++ earlier, by rw [journal', journal, List.append_assoc], fun event listed => ?_⟩
    rcases List.mem_append.mp listed with new | old
    · exact debug' event new
    · exact debug event old

/-- A hit in a cache is no event. -/
theorem cacheHit (w : World) (counters : CountersId) : w.Tallied (w.count counters .cacheHits 1) where
  sparse sparse := (Note.count .cacheHits 1).sparse_apply counters sparse
  surplus sparse counter recorded := by
    have worthless : (Note.count .cacheHits 1).worth counter = 0 := by
      cases counter <;> first | rfl | cases recorded
    have counted := (Note.count .cacheHits 1).surplus_apply counters sparse counter
    rwa [worthless, add_zero] at counted
  events := ⟨[], rfl, by simp⟩

/-- A refusal is counted, and it is an event. -/
theorem refuse (w : World) (counters : CountersId) (name : Name) :
    w.Tallied (Resolver.Tree.refuse counters name w) where
  sparse sparse := (Note.count .guardedMisses 1).sparse_apply counters sparse
  surplus sparse counter recorded := by
    have counted := (Note.count .guardedMisses 1).surplus_apply counters sparse counter
    have told := (Note.record (.refusedInFlight name)).surplus_apply counters
      ((Note.count .guardedMisses 1).sparse_apply counters sparse) counter
    have even : (Note.count .guardedMisses 1).worth counter +
        (Note.record (.refusedInFlight name)).worth counter = 0 := by
      cases counter <;> simp [Note.worth, Event.weight]
    rw [counted, add_assoc, even, add_zero] at told
    exact told
  events := ⟨[.refusedInFlight name], rfl, by simp [Event.level]⟩

/-- Asking a source counts a hit, or records a refusal, or does neither. -/
private theorem ask (source : Source) (name : Name) (w : World) :
    w.Tallied (source.ask name w).2 := by
  cases hit : source.hit? name w with
  | some artifact =>
    rw [Source.ask_of_hit hit]
    cases source.hitCounters? with
    | none => exact .aside rfl rfl
    | some counters =>
      have retained : w.Tallied (w.retain artifact) := .aside rfl rfl
      exact retained.trans (cacheHit _ counters)
  | none =>
    rw [Source.ask_of_miss hit]
    cases source.refusalCounters? with
    | none => exact .aside rfl rfl
    | some counters => exact .refuse w counters name

theorem resolve (resolver : Resolver) (thread : ThreadId) (name : Name) (w : World) :
    w.Tallied (resolver.resolve thread name w).2 := by
  rw [Resolver.resolve, Resolver.Tree.resolve_eq_askAll]
  induction resolver.tree.sources (decide (w.marker thread = some name)) generalizing w with
  | nil => exact .aside rfl rfl
  | cons source rest ih =>
    have first := ask source name w
    rw [Source.askAll]
    rcases answer : source.ask name w with ⟨_ | artifact, w'⟩
    · rw [answer] at first
      exact first.trans (ih w')
    · rw [answer] at first
      exact first

theorem load (context : MemoryContext) (thread : ThreadId) (name : Name) (w : World) :
    w.Tallied (context.load thread name w).2 := by
  have asked := resolve context.parent thread name w
  simp only [MemoryContext.load]
  rcases answer : context.parent.resolve thread name w with ⟨missing | artifact, w'⟩
  · rw [answer] at asked
    refine asked.trans ?_
    simp only []
    split
    · simp only [MemoryContext.own]
      split <;> exact .aside rfl rfl
    · exact .aside rfl rfl
  · rw [answer] at asked
    exact asked

theorem close (context : MemoryContext) (w : World) : w.Tallied (context.close w) := by
  have released : w.Tallied (context.parent.release
      { w with contexts := w.contexts.erase context.id }) := by
    rw [Resolver.release, World.releaseAll_eq]
    exact .aside rfl rfl
  refine released.trans ?_
  show World.Tallied _ (context.letGo _)
  unfold MemoryContext.letGo
  split
  · exact .aside rfl rfl
  · split <;> exact .aside rfl rfl

theorem instantiate (api : UInt16) (image : Bytes) (parent : Resolver) (w : World) :
    w.Tallied (MemoryContext.instantiate api image parent w).2 := by
  unfold MemoryContext.instantiate
  split
  · exact .aside rfl rfl
  split
  · exact .aside rfl rfl
  split
  · exact .aside rfl rfl
  · simp only [MemoryContext.retain, Resolver.retain, World.retainAll_eq]
    exact .aside rfl rfl

end World.Tallied

/-- Whatever a program does besides defining, it counts and records in balance, and it records no event
    above the debug level. -/
theorem Operation.tallied {w w' : World} (operation : Operation w w') : w.Tallied w' := by
  induction operation with
  | aside counters journal => exact .aside counters journal
  | resolve resolver thread name w => exact .resolve resolver thread name w
  | lookup cache name w =>
    rw [w.lookup_world]
    split <;> exact .aside rfl rfl
  | retain artifacts w =>
    rw [World.retainAll_eq]
    exact .aside rfl rfl
  | release artifacts w =>
    rw [World.releaseAll_eq]
    exact .aside rfl rfl
  | mark thread name w =>
    unfold World.mark
    split <;> exact .aside rfl rfl
  | lockFor set name w =>
    rw [World.lockFor_eq]
    exact .aside rfl rfl
  | instantiate api image parent w => exact .instantiate api image parent w
  | load context thread name w => exact .load context thread name w
  | close context w => exact .close context w
  | both first second ih ih' => exact ih.trans ih'
  | invalidate | publish | clear | create | unmark | acquire | unlock | dropHandle | newThread
    | newCache | newLockSet | newCounters => exact .aside rfl rfl

end Reload
