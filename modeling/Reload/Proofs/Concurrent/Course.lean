import Mathlib.Algebra.BigOperators.Group.Finset.Basic
import Reload.Proofs.Concurrent.Pool

/-!
What is kept beside a run. A course is a run with an account of it: a value that no step reads, and
that every step changes as it is told to (`Course`). What all definitions of a pool have together is the
sum of their shares (`total`), and a step changes one share (`total_put`).
-/

namespace Reload

theorem replace_eq_self {ι α : Type} [DecidableEq ι] {f : ι → α} {i : ι} {value : α}
    (same : f i = value) : replace f i value = f := by
  funext j
  by_cases here : j = i
  · rw [here, replace_self, same]
  · exact replace_of_ne _ _ here

/-- When one value is replaced, one summand of a sum is exchanged. -/
theorem sum_replace {ι α M : Type} [DecidableEq ι] [AddCommMonoid M] (share : α → M) (f : ι → α)
    {indices : Finset ι} {i : ι} (listed : i ∈ indices) (value : α) :
    ∑ j ∈ indices, share (replace f i value j) + share (f i) =
      ∑ j ∈ indices, share (f j) + share value := by
  have others : ∑ j ∈ indices.erase i, share (replace f i value j) =
      ∑ j ∈ indices.erase i, share (f j) :=
    Finset.sum_congr rfl fun j member =>
      congrArg share (replace_of_ne _ _ (Finset.ne_of_mem_erase member))
  rw [← Finset.add_sum_erase _ _ listed, ← Finset.add_sum_erase _ _ listed, others, replace_self]
  ac_rfl

namespace Pool

variable {ρ κ γ M : Type} {rules : Rules ρ κ}

/-! ### Courses -/

/-- The pools that steps lead to from a pool, with all steps that definitions took, the latest one
    first, and with an account that every step keeps as the relation tells. -/
inductive Course (rules : Rules ρ κ)
    (keeps : Pool ρ κ → γ → Option (Move ρ κ) → Pool ρ κ → γ → Prop)
    (start : Pool ρ κ) (first : γ) : List (Move ρ κ) → Pool ρ κ → γ → Prop where
  | start : Course rules keeps start first [] start first
  | step {trace : List (Move ρ κ)} {pool pool' : Pool ρ κ} {now now' : γ}
      {move : Option (Move ρ κ)} (before : Course rules keeps start first trace pool now)
      (next : Step rules pool move pool') (kept : keeps pool now move pool' now') :
      Course rules keeps start first (move.toList ++ trace) pool' now'

variable {keeps : Pool ρ κ → γ → Option (Move ρ κ) → Pool ρ κ → γ → Prop}

/-- A course goes on where a run has come to. -/
theorem Course.run {start : System ρ} {earlier trace : List (Move ρ κ)} {pool pool' : Pool ρ κ}
    {first now : γ} (before : Run rules start earlier pool)
    (course : Course rules keeps pool first trace pool' now) :
    Run rules start (trace ++ earlier) pool' := by
  induction course with
  | start => exact before
  | step _ next _ ih =>
    rw [List.append_assoc]
    exact ih.step next

/-- One course after the other. -/
theorem Course.append {start middle pool : Pool ρ κ} {earlier later : List (Move ρ κ)}
    {first between now : γ} (before : Course rules keeps start first earlier middle between)
    (after : Course rules keeps middle between later pool now) :
    Course rules keeps start first (later ++ earlier) pool now := by
  induction after with
  | start => exact before
  | step _ next kept ih =>
    rw [List.append_assoc]
    exact ih.step next kept

/-- A course is one by weaker rules, with what is left of its account. -/
theorem Course.map {rules' : Rules ρ κ} {δ : Type}
    {keeps' : Pool ρ κ → δ → Option (Move ρ κ) → Pool ρ κ → δ → Prop} (f : γ → δ)
    (steps : ∀ {pool move pool'}, Step rules pool move pool' → Step rules' pool move pool')
    (kept : ∀ {pool now move pool' now'}, keeps pool now move pool' now' →
      keeps' pool (f now) move pool' (f now'))
    {start pool : Pool ρ κ} {trace : List (Move ρ κ)} {first now : γ}
    (course : Course rules keeps start first trace pool now) :
    Course rules' keeps' start (f first) trace pool (f now) := by
  induction course with
  | start => exact .start
  | step _ next keeps ih => exact ih.step (steps next) (kept keeps)

/-- A run from the empty pool is a course, if its steps keep an account of what never changes. -/
theorem Run.course {start : System ρ} {trace : List (Move ρ κ)} {pool : Pool ρ κ} {now : γ}
    (run : Run rules start trace pool)
    (kept : ∀ {earlier before move after}, Run rules start earlier before →
      Step rules before move after → keeps before now move after now) :
    Course rules keeps ⟨start, fun _ => none⟩ now trace pool now := by
  induction run with
  | start => exact .start
  | step before next ih => exact .step ih next (kept before next)

/-- What the rules ask of a definition that begins holds of all definitions of a run. -/
theorem Run.begun {P : Call ρ κ → Prop} (begins : ∀ call w, rules.begins call w → P call)
    {start : System ρ} {trace : List (Move ρ κ)} {pool : Pool ρ κ}
    (run : Run rules start trace pool) :
    ∀ index running, pool.calls index = some running → P running.call := by
  induction run with
  | start =>
    intro _ _ here
    cases here
  | step _ next ih =>
    intro other found there
    cases next with
    | begin unused allowed =>
      rcases calls_put there with ⟨-, rfl⟩ | ⟨-, before⟩
      · exact begins _ _ allowed
      · exact ih other found before
    | @advance index running turn here =>
      rcases calls_put there with ⟨-, rfl⟩ | ⟨-, before⟩
      · exact ih index running here
      · exact ih other found before
    | outside => exact ih other found there

/-! ### The next step of a definition -/

/-- The next step of the definition at an index, if there is one and the state is ready for it. -/
def advanced (pool : Pool ρ κ) (index : Nat) : Option (Move ρ κ × Pool ρ κ) :=
  (pool.calls index).bind fun running =>
    (running.call.advance running.place).bind fun turn =>
      if turn.ready pool.system then
        some (⟨index, running, pool.world, (turn.act pool.system).world⟩,
          pool.put index { running with place := turn.next pool.system } (turn.act pool.system))
      else none

theorem cases_advanced {pool pool' : Pool ρ κ} {index : Nat} {move : Move ρ κ}
    (advanced : pool.advanced index = some (move, pool')) :
    ∃ running turn, pool.calls index = some running ∧
      running.call.advance running.place = some turn ∧ turn.ready pool.system ∧
      move = ⟨index, running, pool.world, (turn.act pool.system).world⟩ ∧
      pool' = pool.put index { running with place := turn.next pool.system }
        (turn.act pool.system) := by
  obtain ⟨running, here, advanced⟩ := Option.bind_eq_some_iff.mp advanced
  obtain ⟨turn, advances, advanced⟩ := Option.bind_eq_some_iff.mp advanced
  split at advanced
  · next ready =>
    obtain ⟨rfl, rfl⟩ := Prod.mk.inj (Option.some.inj advanced)
    exact ⟨running, turn, here, advances, ready, rfl, rfl⟩
  · cases advanced

theorem Step.of_advanced {pool pool' : Pool ρ κ} {index : Nat} {move : Move ρ κ}
    (advanced : pool.advanced index = some (move, pool')) : Step rules pool (some move) pool' := by
  obtain ⟨running, turn, here, advances, ready, rfl, rfl⟩ := cases_advanced advanced
  exact .advance here advances ready

/-- The next steps of the definitions at these indices, one after the other. The steps come with the
    latest one first. -/
def follow : List Nat → Pool ρ κ → Option (List (Move ρ κ) × Pool ρ κ)
  | [], pool => some ([], pool)
  | index :: later, pool => (pool.advanced index).bind fun (move, pool) =>
      (follow later pool).map fun (moves, pool) => (moves ++ [move], pool)

theorem Run.follow {start : System ρ} {schedule : List Nat} {trace moves : List (Move ρ κ)}
    {pool pool' : Pool ρ κ} (before : Run rules start trace pool)
    (followed : Pool.follow schedule pool = some (moves, pool')) :
    Run rules start (moves ++ trace) pool' := by
  induction schedule generalizing trace moves pool with
  | nil =>
    cases followed
    exact before
  | cons index later ih =>
    obtain ⟨⟨move, next⟩, advanced, followed⟩ := Option.bind_eq_some_iff.mp followed
    obtain ⟨⟨moves, last⟩, rest, ended⟩ := Option.map_eq_some_iff.mp followed
    cases ended
    rw [List.append_assoc]
    exact ih (before.step (.of_advanced advanced)) rest

/-- Definitions that are not in the schedule stay where they are. -/
theorem calls_follow {schedule : List Nat} {moves : List (Move ρ κ)} {pool pool' : Pool ρ κ}
    (followed : follow schedule pool = some (moves, pool')) {other : Nat}
    (elsewhere : other ∉ schedule) : pool'.calls other = pool.calls other := by
  induction schedule generalizing moves pool with
  | nil =>
    cases followed
    rfl
  | cons index later ih =>
    obtain ⟨⟨move, next⟩, advanced, followed⟩ := Option.bind_eq_some_iff.mp followed
    obtain ⟨⟨moves, last⟩, rest, ended⟩ := Option.map_eq_some_iff.mp followed
    cases ended
    rw [List.mem_cons, not_or] at elsewhere
    obtain ⟨running, turn, -, -, -, -, rfl⟩ := cases_advanced advanced
    rw [ih rest elsewhere.2]
    exact replace_of_ne _ _ elsewhere.1

/-- The definitions of a pool are still the same after a schedule, at other places. -/
theorem exists_place_of_follow {schedule : List Nat} {moves : List (Move ρ κ)}
    {pool pool' : Pool ρ κ} (followed : follow schedule pool = some (moves, pool')) {other : Nat}
    {call : Call ρ κ} {place : Place ρ κ} {since : Nat}
    (here : pool.calls other = some ⟨call, place, since⟩) :
    ∃ place, pool'.calls other = some ⟨call, place, since⟩ := by
  induction schedule generalizing moves pool place with
  | nil =>
    cases followed
    exact ⟨place, here⟩
  | cons index later ih =>
    obtain ⟨⟨move, next⟩, advanced, followed⟩ := Option.bind_eq_some_iff.mp followed
    obtain ⟨⟨moves, last⟩, rest, ended⟩ := Option.map_eq_some_iff.mp followed
    cases ended
    obtain ⟨running, turn, there, -, -, -, rfl⟩ := cases_advanced advanced
    by_cases same : other = index
    · subst same
      obtain rfl := Option.some.inj (here.symm.trans there)
      exact ih rest (replace_self ..)
    · exact ih rest ((replace_of_ne _ _ same).trans here)

/-- No definition is in progress. -/
def Settled (pool : Pool ρ κ) : Prop :=
  ∀ index running, pool.calls index = some running → ∃ ending, running.place = .ended ending

/-- A pool is settled if none of the definitions in a schedule that was followed goes on. -/
theorem settled_of_follow {schedule : List Nat} {trace : List (Move ρ κ)} {pool pool' : Pool ρ κ}
    (followed : pool.follow schedule = some (trace, pool'))
    (begun : ∀ index, index ∉ schedule → pool.calls index = none)
    (still : ∀ index ∈ schedule, (pool'.calls index).all fun running =>
      (running.call.advance running.place).isNone) : pool'.Settled := by
  intro index running here
  by_cases listed : index ∈ schedule
  · have stays := still index listed
    rw [here] at stays
    rcases running.call.ended_or_advances running.place with ended | ⟨turn, advances⟩
    · exact ended
    · rw [Option.all_some, advances] at stays
      cases stays
  · rw [calls_follow followed listed, begun index listed] at here
    cases here

section
variable {start pool pool' : Pool ρ κ} {first now now' : γ} {trace : List (Move ρ κ)}

theorem Course.begin (before : Course rules keeps start first trace pool now) (index : Nat)
    (call : Call ρ κ) (unused : pool.calls index = none) (allowed : rules.begins call pool.world)
    (kept : keeps pool now none (pool.put index ⟨call, .check, pool.world.created⟩ pool.system)
      now') :
    Course rules keeps start first trace
      (pool.put index ⟨call, .check, pool.world.created⟩ pool.system) now' :=
  .step before (.begin unused allowed) kept

theorem Course.outside (before : Course rules keeps start first trace pool now)
    (system : System ρ) (allowed : rules.outside pool.world system.world)
    (kept : keeps pool now none { pool with system } now') :
    Course rules keeps start first trace { pool with system } now' :=
  .step before (.outside allowed) kept

theorem Course.advance {move : Move ρ κ}
    (before : Course rules keeps start first trace pool now) (index : Nat)
    (advanced : pool.advanced index = some (move, pool'))
    (kept : keeps pool now (some move) pool' now') :
    Course rules keeps start first (move :: trace) pool' now' :=
  .step before (.of_advanced advanced) kept

end

/-! ### Sums over the definitions of a pool -/

/-- Indices that all definitions of a pool have theirs among. -/
def Covers (indices : Finset Nat) (pool : Pool ρ κ) : Prop :=
  ∀ index, (pool.calls index).isSome → index ∈ indices

theorem Covers.of_put {indices : Finset Nat} {pool : Pool ρ κ} {index : Nat}
    {running : Running ρ κ} {system : System ρ}
    (covers : (pool.put index running system).Covers indices) :
    index ∈ indices ∧ pool.Covers indices := by
  refine ⟨covers index (by rw [put_calls_self]; rfl), fun other there => covers other ?_⟩
  by_cases same : other = index
  · rw [same, put_calls_self]
    rfl
  · rw [put_calls_of_ne _ _ _ same]
    exact there

theorem Covers.put {indices : Finset Nat} {pool : Pool ρ κ} (covers : pool.Covers indices)
    (index : Nat) (running : Running ρ κ) (system : System ρ) :
    (pool.put index running system).Covers (insert index indices) := by
  intro other there
  by_cases same : other = index
  · exact Finset.mem_insert.mpr (.inl same)
  · rw [put_calls_of_ne _ _ _ same] at there
    exact Finset.mem_insert_of_mem (covers other there)

/-- A step begins one definition at most. -/
theorem Step.covered {move : Option (Move ρ κ)} {pool pool' : Pool ρ κ}
    (next : Step rules pool move pool') (covered : ∃ indices, pool.Covers indices) :
    ∃ indices, pool'.Covers indices := by
  obtain ⟨indices, covers⟩ := covered
  cases next with
  | begin => exact ⟨_, covers.put _ _ _⟩
  | advance => exact ⟨_, covers.put _ _ _⟩
  | outside => exact ⟨indices, covers⟩

/-- A run has begun finitely many definitions. -/
theorem Run.covered {start : System ρ} {trace : List (Move ρ κ)} {pool : Pool ρ κ}
    (run : Run rules start trace pool) : ∃ indices, pool.Covers indices := by
  induction run with
  | start => exact ⟨∅, nofun⟩
  | step _ next ih => exact next.covered ih

variable [AddCommMonoid M]

/-- The sum of the shares that the definitions at these indices have. -/
def total (share : Running ρ κ → M) (indices : Finset Nat) (pool : Pool ρ κ) : M :=
  ∑ index ∈ indices, ((pool.calls index).map share).getD 0

variable {share : Running ρ κ → M} {indices : Finset Nat} {pool : Pool ρ κ} {index : Nat}
  {running : Running ρ κ} {system : System ρ}

/-- A definition has its share beside what the others have, and it alone can change that. -/
theorem total_split (share : Running ρ κ → M) (listed : index ∈ indices)
    (here : pool.calls index = some running) : ∃ others,
      pool.total share indices = others + share running ∧
      ∀ running' system, (pool.put index running' system).total share indices =
        others + share running' := by
  refine ⟨∑ other ∈ indices.erase index, ((pool.calls other).map share).getD 0, ?_, ?_⟩
  · rw [total, ← Finset.sum_erase_add _ _ listed, here]
    rfl
  · intro running' system
    rw [total, ← Finset.sum_erase_add _ _ listed, put_calls_self]
    refine congrArg (· + share running') (Finset.sum_congr rfl fun other member => ?_)
    rw [put_calls_of_ne _ _ _ (Finset.ne_of_mem_erase member)]

/-- When one definition goes on, its share is exchanged. -/
theorem total_put (share : Running ρ κ → M) (listed : index ∈ indices)
    (here : pool.calls index = some running) (running' : Running ρ κ) (system : System ρ) :
    (pool.put index running' system).total share indices + share running =
      pool.total share indices + share running' := by
  obtain ⟨others, before, after⟩ := total_split share listed here
  rw [before, after]
  ac_rfl

/-- When a definition begins, its share is added. -/
theorem total_begin (listed : index ∈ indices) (unused : pool.calls index = none) :
    (pool.put index running system).total share indices =
      pool.total share indices + share running := by
  have exchanged := sum_replace (fun call => (call.map share).getD 0) pool.calls listed
    (some running)
  rw [unused] at exchanged
  exact (add_zero _).symm.trans exchanged

theorem total_eq_zero (nothing : ∀ index running, pool.calls index = some running →
    share running = 0) : pool.total share indices = 0 := by
  refine Finset.sum_eq_zero fun index _ => ?_
  cases here : pool.calls index with
  | none => rfl
  | some running => exact nothing index running here

end Pool

end Reload
