import Mathlib.Data.UInt
import Reload.Proofs.CacheHistory
import Reload.Proofs.Definition.Outcome
import Reload.Proofs.Definition.Whole

/-!
What definitions in memory leave when they run one after the other, told without their order
(`Loader.Leaves`). Each name that was defined has a live artifact, or no entry. The other names have what
they had, without the dead entries if anything was published. Which of its counters a loader has for an
entry that is gone depends on the order, but their sum does not (`World.balance`).
-/

namespace Reload

/-! ### What is told apart from serial numbers -/

/-- An artifact apart from its serial number: its name, the size of its image and its payload. -/
def Artifact.unnumbered (artifact : Artifact) : Artifact := { artifact with serial := 0 }

/-- What can be seen of the entry of a name, if there is one: whether its artifact is alive, and what it
    is apart from its serial number. -/
def World.sight (w : World) (cache : CacheId) (name : Name) : Option (Bool × Artifact) :=
  ((w.entries cache).get? name).map fun artifact => (w.alive artifact, artifact.unnumbered)

/-- How a definition that ended so has been counted, apart from the entries that it removed. -/
def Counter.counted {α : Type} (ended : Except DefinitionFailure α) : Counter → UInt64
  | .definitions | .guardedMisses => if ended.isOk then 1 else 0
  | .definitionFailures => if ended.isOk then 0 else 1
  | .redefinitions | .cacheHits | .entriesSwept => 0

/-- The entries of a cache that are there or that a loader has removed, less those that it has put
    there. -/
def World.balance (w : World) (cache : CacheId) (id : CountersId) : UInt64 :=
  UInt64.ofNat (w.cacheSize cache) + w.counter id .redefinitions + w.counter id .entriesSwept -
    w.counter id .definitions

/-- A key that is erased and inserted again has one entry. -/
theorem Table.size_insert_filter_erase {κ α : Type} [DecidableEq κ] (table : Table κ α) (key : κ)
    (p : α → Bool) (value : α) :
    (((table.erase key).filter p).insert key value).size +
        ((table.erase key).filter fun value => !p value).size =
      (table.erase key).size + 1 := by
  have absent : ((table.erase key).filter p).contains key = false := by
    simp [contains, get?_filter]
  have erased := ((table.erase key).filter p).size_erase_add key
  have split := (table.erase key).size_filter_add p
  rw [absent] at erased
  rw [size_insert]
  simp only [Bool.false_eq_true, if_false] at erased
  omega

/-- A definition that has ended without a panic keeps the balance. -/
theorem Call.Exit.balance {ρ κ : Type} {call : Call ρ κ} {s : System ρ} {w' : World}
    {ended : Except DefinitionFailure Artifact} (exit : call.Exit s (.ok ended) w') :
    w'.balance call.loader.cache call.loader.counters =
      s.world.balance call.loader.cache call.loader.counters := by
  have redefined := exit.counters .redefinitions rfl
  have swept := exit.counters .entriesSwept rfl
  have defined := exit.counters .definitions rfl
  have erased := (s.world.entries call.loader.cache).size_erase_add call.name
  simp only [World.balance, World.cacheSize, redefined, swept, defined, growth, World.contains,
    ← erased]
  rcases ended with failure | artifact
  · rw [exit.withdrawn (by simp)]
    simp only [UInt64.ofNat_add]
    split <;> simp <;> grind
  · have split := (s.world.entries call.loader.cache).size_insert_filter_erase call.name
      s.world.alive artifact
    rw [← (exit.published artifact rfl).1] at split
    have sum := congrArg UInt64.ofNat split
    simp only [UInt64.ofNat_add] at sum ⊢
    split <;> simp [World.deadBeside] <;> grind

namespace Loader

/-- A state in which a loader can define. What its cache and its ancestor refer to was created, and the
    ancestor's artifacts are alive, since the ancestor holds them. -/
structure Stands (loader : Loader Settings UInt16) (w : World) : Prop where
  contexts : w.FreshContexts
  entries : ∀ name artifact, (w.entries loader.cache).get? name = some artifact →
    artifact.serial ≤ w.created
  ancestors : ∀ artifact ∈ loader.resolver.artifacts,
    artifact.serial ≤ w.created ∧ w.alive artifact

theorem Stands.steady {loader : Loader Settings UInt16} {w : World} (stands : loader.Stands w) :
    w.SteadyEntries loader.cache loader.resolver.artifacts := by
  intro name artifact entry
  refine ⟨stands.entries name artifact entry, fun listed => ?_⟩
  obtain ⟨ancestor, held, same⟩ := List.mem_map.mp listed
  have live := (stands.ancestors ancestor held).2
  rwa [World.alive_iff, same, ← World.alive_iff] at live

/-- What definitions in memory that ended so leave, in whatever order they were. How they ended is told
    apart from serial numbers. -/
structure Leaves (loader : Loader Settings UInt16)
    (done : List (Name × Except DefinitionFailure Artifact)) (w w' : World) : Prop where
  created : w.created ≤ w'.created
  contexts : w.FreshContexts → w'.FreshContexts
  marker : w'.marker = w.marker
  locks : ∀ name, w.FreeLock loader.cache.locks name → w'.FreeLock loader.cache.locks name
  /-- Other caches have what they had. -/
  elsewhere : ∀ cache, cache ≠ loader.cache → w'.entries cache = w.entries cache
  /-- Nobody else has counted anything. -/
  foreign : ∀ id, id ≠ loader.counters → ∀ counter, w'.counter id counter = w.counter id counter
  /-- What was there before is as alive as before. -/
  alive : ∀ artifact : Artifact, artifact.serial ≤ w.created → w'.alive artifact = w.alive artifact
  /-- A name that was defined has a live artifact, or no entry. -/
  defined : ∀ one ∈ done,
    w'.sight loader.cache one.1 = one.2.toOption.map fun artifact => (true, artifact)
  entries : ∀ one ∈ done, ∀ artifact, (w'.entries loader.cache).get? one.1 = some artifact →
    artifact.serial ≤ w'.created
  others : ∀ name, name ∉ done.map Prod.fst → (w'.entries loader.cache).get? name =
    if done.any fun one => one.2.isOk then ((w.entries loader.cache).get? name).filter w.alive
    else (w.entries loader.cache).get? name
  counters : ∀ counter, counter ≠ .redefinitions → counter ≠ .entriesSwept →
    w'.counter loader.counters counter = w.counter loader.counters counter +
      (done.map fun one => counter.counted one.2).sum
  balance : w'.balance loader.cache loader.counters = w.balance loader.cache loader.counters

section
variable {ρ : Type} (loader : Loader Settings UInt16) (thread : ThreadId) (name : Name)
  (raw : Bytes)

/-- What the work and the way out of a definition count comes to what is counted in the end. -/
private theorem growth_eq_counted {result : Result} {name : Name}
    {ended : Except DefinitionFailure Artifact} (ends : result.ending name = .ok ended)
    {counter : Counter} (redefinitions : counter ≠ .redefinitions) (swept : counter ≠ .entriesSwept) :
    (if counter = .guardedMisses ∧ (result.ending name).artifact?.isSome then 1 else 0) +
      result.growth counter = counter.counted (ended.map Artifact.unnumbered) := by
  rcases result with panic | cause | ⟨artifact, count⟩ <;> cases ends <;> cases counter <;>
    first | contradiction | rfl

section
variable {loader thread name raw} {s : System ρ} {result : Result} {w : World}
  (unmarked : s.world.marker thread = none)
  (makes : loader.Makes name raw ((loader.call (ρ := ρ) thread name raw).entered s.world) result w)
include unmarked makes

/-- Whoever defines an artifact holds it in the end. -/
private theorem alive_of_makes {artifact : Artifact} (stands : loader.Stands s.world)
    (ends : result.ending name = .ok (.ok artifact)) (lock : Option LockId) :
    ((loader.call (ρ := ρ) thread name raw).left lock result w).alive artifact := by
  obtain ⟨swept, rfl⟩ : ∃ swept, result = .ok (.ok (artifact, swept)) := by
    rcases result with panic | cause | ⟨_, swept⟩ <;> cases ends
    exact ⟨swept, rfl⟩
  have entered := (loader.call (ρ := ρ) thread name raw).entered_quiet unmarked []
  rw [Call.left_alive]
  exact makes.alive_new rfl fun ancestor held =>
    Nat.le_trans (stands.ancestors ancestor held).1 entered.created

private theorem counter_of_makes {ended : Except DefinitionFailure Artifact}
    (ends : result.ending name = .ok ended) {counter : Counter}
    (redefinitions : counter ≠ .redefinitions) (swept : counter ≠ .entriesSwept)
    (lock : Option LockId) :
    ((loader.call (ρ := ρ) thread name raw).left lock result w).counter loader.counters counter =
      s.world.counter loader.counters counter + counter.counted (ended.map Artifact.unnumbered) := by
  let call : Call ρ MemoryContext := loader.call thread name raw
  have before : (call.entered s.world).counter loader.counters counter =
      s.world.counter loader.counters counter :=
    (call.entered_counter unmarked counter).trans
      (by rw [if_neg (fun own => redefinitions own.1), UInt64.add_zero]; rfl)
  have work := makes.counter loader.counters counter
  rw [before] at work
  simp only [true_and] at work
  refine (call.left_counter _ _ _ counter).trans ((congrArg (· + _) work).trans ?_)
  rw [UInt64.add_assoc, growth_eq_counted ends redefinitions swept]

private theorem leaves_of_makes {ended : Except DefinitionFailure Artifact} {w' : World}
    (stands : loader.Stands s.world)
    (left : w' = (loader.call (ρ := ρ) thread name raw).left
      ((loader.call (ρ := ρ) thread name raw).lock? s.world) result w)
    (ends : result.ending name = .ok ended)
    (exit : (loader.call thread name raw).Exit s (.ok ended) w')
    (alone : loader.Alone s (.ok ended) w') :
    loader.Leaves [(name, ended.map Artifact.unnumbered)] s.world w' := by
  let call : Call ρ MemoryContext := loader.call thread name raw
  have entered := call.entered_quiet unmarked []
  have own : (w'.entries loader.cache).get? name = ended.toOption :=
    (exit.get? _ name).trans ((if_pos rfl).trans (by cases ended <;> rfl))
  exact {
    created := alone.quiet.created
    contexts := alone.quiet.fresh
    marker := alone.marker
    locks := alone.locks
    elsewhere := alone.quiet.others
    foreign := by
      intro id other counter
      rw [left, call.left_counter_of_ne _ _ _ counter other, makes.counter,
        if_neg (fun own => other own.1), UInt64.add_zero,
        call.entered_counter_of_ne unmarked counter other]
    alive := by
      intro artifact old
      rw [left, call.left_alive, makes.alive_old (Nat.le_trans old entered.created),
        call.entered_alive unmarked]
    defined := by
      rintro _ (_ | ⟨_, ⟨⟩⟩)
      rw [World.sight, own]
      rcases ended with failure | artifact
      · rfl
      · have live : w'.alive artifact := left ▸ alive_of_makes unmarked makes stands ends _
        exact congrArg (fun alive => some (alive, artifact.unnumbered)) live
    entries := by
      rintro _ (_ | ⟨_, ⟨⟩⟩) artifact entry
      rw [own] at entry
      rcases ended with failure | _
      · cases entry
      · cases entry
        exact (alone.new artifact rfl).2
    others := by
      intro other different
      have elsewhere : other ≠ name := by simpa using different
      refine (exit.get? _ other).trans ((if_neg elsewhere).trans ?_)
      rcases ended with failure | artifact <;> rfl
    counters := by
      intro counter redefinitions swept
      rw [left, counter_of_makes unmarked makes ends redefinitions swept, List.map_singleton,
        List.sum_singleton]
    balance := exit.balance
  }

end

/-- On a thread without a marker, and with a free lock if it needs one, a definition in memory ends as
    its packer and the level of its host decide. -/
theorem define_leaves (s : System ρ) (unmarked : s.world.marker thread = none)
    (stands : loader.Stands s.world)
    (free : loader.settings.serialize → s.world.FreeLock loader.cache.locks name) :
    ∃ ended s', (loader.inMemory.define thread name raw).run.run s = some (.ok ended, s') ∧
      loader.Outcome name raw (.ok ended) ∧
      loader.Leaves [(name, ended.map Artifact.unnumbered)] s.world s'.world := by
  let call : Call ρ MemoryContext := loader.call thread name raw
  have ready : ∀ lock ∈ call.lock? s.world, s.world.isFree lock := by
    intro lock taken
    by_cases serialize : loader.settings.serialize
    · exact call.lock_free (free serialize) lock taken
    · rw [Call.lock?, show call.loader.settings = loader.settings from rfl, if_neg serialize] at taken
      cases taken
  obtain ⟨result, w, ran, makes⟩ :=
    loader.define_makes thread name raw s unmarked ready stands.contexts
  obtain ⟨_, _, exited, exit⟩ :=
    loader.define_exit thread name raw s unmarked ready stands.contexts stands.steady
  obtain ⟨_, _, ended, alone⟩ := loader.define_alone thread name raw s unmarked ready stands.contexts
  -- The three accounts are of one run.
  obtain ⟨rfl, rfl⟩ := Prod.mk.inj (Option.some.inj (ran.symm.trans exited))
  obtain ⟨rfl, rfl⟩ := Prod.mk.inj (Option.some.inj (ran.symm.trans ended))
  obtain ⟨ending, ends⟩ := makes.ends
  have outcome := makes.outcome
  rw [ends] at ran exit alone outcome
  exact ⟨ending, _, ran, outcome, leaves_of_makes unmarked makes stands rfl ends exit alone⟩

end

/-! ### Several definitions -/

namespace Leaves

variable {loader : Loader Settings UInt16}
  {done before later : List (Name × Except DefinitionFailure Artifact)} {w w₁ w₂ w' : World}

/-- A loader that could define still can. -/
theorem stands (leaves : loader.Leaves done w w') (stands : loader.Stands w) : loader.Stands w' where
  contexts := leaves.contexts stands.contexts
  entries name artifact entry := by
    by_cases defined : name ∈ done.map Prod.fst
    · obtain ⟨one, listed, rfl⟩ := List.mem_map.mp defined
      exact leaves.entries one listed artifact entry
    · rw [leaves.others name defined] at entry
      refine Nat.le_trans (stands.entries name artifact ?_) leaves.created
      split at entry
      · exact (Option.filter_eq_some_iff.mp entry).1
      · exact entry
  ancestors artifact held := by
    obtain ⟨old, live⟩ := stands.ancestors artifact held
    exact ⟨Nat.le_trans old leaves.created, (leaves.alive artifact old).trans live⟩

/-- A name that was not defined looks as before, if its artifact is alive or nothing was published. -/
theorem sight_of_others (leaves : loader.Leaves done w w') (stands : loader.Stands w) {name : Name}
    (undefined : name ∉ done.map Prod.fst) : w'.sight loader.cache name =
      if done.any fun one => one.2.isOk then (w.sight loader.cache name).filter (·.1)
      else w.sight loader.cache name := by
  rw [World.sight, World.sight, leaves.others name undefined]
  cases entry : (w.entries loader.cache).get? name with
  | none => split <;> rfl
  | some artifact =>
    have same := leaves.alive artifact (stands.entries name artifact entry)
    cases live : w.alive artifact <;> split <;> simp [Option.filter, same, live]

/-- Definitions of other names leave what the earlier ones have left. -/
theorem append (first : loader.Leaves before w w₁) (second : loader.Leaves later w₁ w₂)
    (stands : loader.Stands w) (apart : ∀ one ∈ before, one.1 ∉ later.map Prod.fst) :
    loader.Leaves (before ++ later) w w₂ where
  created := Nat.le_trans first.created second.created
  contexts untouched := second.contexts (first.contexts untouched)
  marker := second.marker.trans first.marker
  locks name free := second.locks name (first.locks name free)
  elsewhere cache other := (second.elsewhere cache other).trans (first.elsewhere cache other)
  foreign id other counter := (second.foreign id other counter).trans (first.foreign id other counter)
  alive artifact old :=
    (second.alive artifact (Nat.le_trans old first.created)).trans (first.alive artifact old)
  defined one listed := by
    rcases List.mem_append.mp listed with earlier | late
    · rw [second.sight_of_others (first.stands stands) (apart one earlier), first.defined one earlier]
      rcases one.2 with failure | artifact <;> split <;> rfl
    · exact second.defined one late
  entries one listed := by
    rcases List.mem_append.mp listed with earlier | late
    · exact (second.stands (first.stands stands)).entries one.1
    · exact second.entries one late
  others name undefined := by
    rw [List.map_append, List.mem_append, not_or] at undefined
    rw [second.others name undefined.2, first.others name undefined.1, List.any_append]
    cases entry : (w.entries loader.cache).get? name with
    | none => cases before.any _ <;> cases later.any _ <;> rfl
    | some artifact =>
      have same := first.alive artifact (stands.entries name artifact entry)
      cases before.any _ <;> cases later.any _ <;> cases live : w.alive artifact <;>
        simp [Option.filter, same, live]
  counters counter redefinitions swept := by
    rw [second.counters counter redefinitions swept, first.counters counter redefinitions swept,
      List.map_append, List.sum_append, UInt64.add_assoc]
  balance := second.balance.trans first.balance

/-- The order of the definitions does not show. -/
theorem perm (leaves : loader.Leaves before w w') (same : before.Perm later) :
    loader.Leaves later w w' where
  created := leaves.created
  contexts := leaves.contexts
  marker := leaves.marker
  locks := leaves.locks
  elsewhere := leaves.elsewhere
  foreign := leaves.foreign
  alive := leaves.alive
  defined one listed := leaves.defined one (same.mem_iff.mpr listed)
  entries one listed := leaves.entries one (same.mem_iff.mpr listed)
  others name undefined := by
    rw [leaves.others name (fun listed => undefined ((same.map _).mem_iff.mp listed)), same.any_eq]
  counters counter redefinitions swept := by
    have sum := (same.map fun one => counter.counted one.2).sum_eq
    rw [leaves.counters counter redefinitions swept, sum]
  balance := leaves.balance

end Leaves

end Loader

end Reload
