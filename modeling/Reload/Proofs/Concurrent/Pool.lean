import Reload.Proofs.Definition.Place

/-!
Definitions that run beside each other. A pool has any number of definitions, each at its place, on
one shared state. One of them takes its next step, or a new one begins, or the state changes in
another way that the rules allow. Nothing is said about threads: the definitions of one thread may be
in each other's callbacks. At each moment of a run, what a definition has still to do is what its
program has left after the steps that it took (`Run.left`), and if nothing comes in between it runs to
the end that the program has (`Run.alone`).
-/

namespace Reload

structure Running (ρ κ : Type) where
  call : Call ρ κ
  place : Place ρ κ
  /-- How many artifacts had been created when it began. -/
  since : Nat

structure Pool (ρ κ : Type) where
  system : System ρ
  calls : Nat → Option (Running ρ κ)

/-- A step that a definition took, from its place before the step. -/
structure Move (ρ κ : Type) where
  index : Nat
  running : Running ρ κ
  before : World
  after : World

/-- Which definitions may begin in a state, and what else may change a state. -/
structure Rules (ρ κ : Type) where
  begins : Call ρ κ → World → Prop
  outside : World → World → Prop

/-- What a program has left after these steps, given by the states before and after them, the latest
    one first. Others may change the state in between. -/
inductive Program.Left {ρ α : Type} (program : Program (System ρ) α) :
    List (World × World) → Program (System ρ) α → Prop where
  | begun : program.Left [] program
  | step {steps : List (World × World)} {ready : System ρ → Bool} {act : System ρ → System ρ}
      {next : System ρ → Program (System ρ) α} {s : System ρ}
      (before : program.Left steps (.step ready act next)) (isReady : ready s) :
      program.Left ((s.world, (act s).world) :: steps) (next s)

namespace Pool

variable {ρ κ : Type}

def world (pool : Pool ρ κ) : World := pool.system.world

/-- The pool after a change of the state, with another definition at an index. -/
def put (pool : Pool ρ κ) (index : Nat) (running : Running ρ κ) (system : System ρ) : Pool ρ κ :=
  ⟨system, replace pool.calls index (some running)⟩

/-- One step of a pool. -/
inductive Step (rules : Rules ρ κ) (pool : Pool ρ κ) : Option (Move ρ κ) → Pool ρ κ → Prop where
  | begin {index : Nat} {call : Call ρ κ} (unused : pool.calls index = none)
      (allowed : rules.begins call pool.world) :
      Step rules pool none (pool.put index ⟨call, .check, pool.world.created⟩ pool.system)
  | advance {index : Nat} {running : Running ρ κ} {turn : Turn (System ρ) (Place ρ κ)}
      (here : pool.calls index = some running)
      (advances : running.call.advance running.place = some turn)
      (ready : turn.ready pool.system) :
      Step rules pool (some ⟨index, running, pool.world, (turn.act pool.system).world⟩)
        (pool.put index { running with place := turn.next pool.system } (turn.act pool.system))
  | outside {system : System ρ} (allowed : rules.outside pool.world system.world) :
      Step rules pool none { pool with system }

/-- The pools that steps lead to from a state without definitions, with all steps that definitions
    took, the latest one first. -/
inductive Run (rules : Rules ρ κ) (start : System ρ) : List (Move ρ κ) → Pool ρ κ → Prop where
  | start : Run rules start [] ⟨start, fun _ => none⟩
  | step {trace : List (Move ρ κ)} {pool pool' : Pool ρ κ} {move : Option (Move ρ κ)}
      (before : Run rules start trace pool) (next : Step rules pool move pool') :
      Run rules start (move.toList ++ trace) pool'

/-! ### The definitions after a step -/

theorem put_calls_self (pool : Pool ρ κ) (index : Nat) (running : Running ρ κ)
    (system : System ρ) : (pool.put index running system).calls index = some running :=
  replace_self ..

theorem put_calls_of_ne (pool : Pool ρ κ) {index other : Nat} (running : Running ρ κ)
    (system : System ρ) (different : other ≠ index) :
    (pool.put index running system).calls other = pool.calls other :=
  replace_of_ne _ _ different

theorem calls_put {pool : Pool ρ κ} {index other : Nat} {running found : Running ρ κ}
    {system : System ρ} (here : (pool.put index running system).calls other = some found) :
    (other = index ∧ found = running) ∨ (other ≠ index ∧ pool.calls other = some found) := by
  by_cases same : other = index
  · subst same
    have put : (pool.put other running system).calls other = some running := replace_self ..
    exact .inl ⟨rfl, Option.some.inj (here.symm.trans put)⟩
  · have kept : (pool.put index running system).calls other = pool.calls other :=
      replace_of_ne _ _ same
    exact .inr ⟨same, kept ▸ here⟩

/-! ### What is left of a definition -/

/-- A definition that has taken a step is one of the pool. -/
theorem Run.moved {rules : Rules ρ κ} {start : System ρ} {trace : List (Move ρ κ)} {pool : Pool ρ κ}
    (run : Run rules start trace pool) : ∀ move ∈ trace, (pool.calls move.index).isSome := by
  induction run with
  | start => simp
  | step _ next ih =>
    have kept {index : Nat} {running : Running ρ κ} {system : System ρ} {pool : Pool ρ κ}
        {other : Nat} (there : (pool.calls other).isSome) :
        ((pool.put index running system).calls other).isSome := by
      by_cases same : other = index
      · rw [same, put_calls_self]
        rfl
      · rwa [put_calls_of_ne _ _ _ same]
    cases next with
    | begin => exact fun move listed => kept (ih move listed)
    | outside => exact ih
    | advance =>
      intro move listed
      rcases List.mem_cons.mp listed with rfl | earlier
      · rw [put_calls_self]
        rfl
      · exact kept (ih move earlier)

/-- The steps that the definition at an index took: the states before and after them, the latest one
    first. -/
def stepsOf (index : Nat) (trace : List (Move ρ κ)) : List (World × World) :=
  (trace.filter fun move => move.index = index).map fun move => (move.before, move.after)

theorem stepsOf_cons (index : Nat) (move : Move ρ κ) (trace : List (Move ρ κ)) :
    stepsOf index (move :: trace) =
      if move.index = index then (move.before, move.after) :: stepsOf index trace
      else stepsOf index trace := by
  unfold stepsOf
  by_cases own : move.index = index <;> simp [own]

/-- Whatever happens beside it, a definition goes through its program: what is left of it at its place
    is what `Loader.define` has left after the steps that the definition took. So one that has ended is
    a program that has come to that ending. -/
theorem Run.left {rules : Rules ρ κ} {start : System ρ} {trace : List (Move ρ κ)} {pool : Pool ρ κ}
    (run : Run rules start trace pool) {index : Nat} {running : Running ρ κ}
    (here : pool.calls index = some running) :
    (running.call.loader.define running.call.thread running.call.name running.call.raw).run.Left
      (stepsOf index trace) (running.call.rest running.place) := by
  induction run generalizing running with
  | start => cases here
  | @step trace pool _ _ run next ih =>
    cases next with
    | outside => exact ih here
    | begin unused allowed =>
      rcases calls_put here with ⟨rfl, rfl⟩ | ⟨-, before⟩
      · -- No definition was at this index before, so none has taken a step there.
        have untouched : stepsOf index trace = [] := by
          refine List.map_eq_nil_iff.mpr (List.filter_eq_nil_iff.mpr fun move listed same => ?_)
          have used := run.moved move listed
          rw [of_decide_eq_true same, unused] at used
          cases used
        show Program.Left _ (stepsOf index trace) _
        rw [untouched, Call.define_eq_checking]
        exact .begun
      · exact ih before
    | @advance other moving turn there advances ready =>
      show Program.Left _ (stepsOf index (_ :: trace)) _
      rw [stepsOf_cons]
      rcases calls_put here with ⟨rfl, rfl⟩ | ⟨different, before⟩
      · have left := ih there
        rw [moving.call.rest_of_advance advances] at left
        rw [if_pos rfl]
        exact left.step ready
      · rw [if_neg (Ne.symm different)]
        exact ih before

/-! ### One definition that goes on alone -/

theorem put_here {pool : Pool ρ κ} {index : Nat} {running : Running ρ κ}
    (here : pool.calls index = some running) : pool.put index running pool.system = pool := by
  have calls : replace pool.calls index (some running) = pool.calls := by
    funext other
    by_cases same : other = index
    · rw [same, replace_self, here]
    · exact replace_of_ne _ _ same
  rw [put, calls]

@[simp] theorem put_put (pool : Pool ρ κ) (index : Nat) (first second : Running ρ κ)
    (system system' : System ρ) :
    (pool.put index first system).put index second system' = pool.put index second system' := by
  have calls : replace (replace pool.calls index (some first)) index (some second) =
      replace pool.calls index (some second) := by
    funext other
    by_cases same : other = index
    · rw [same, replace_self, replace_self]
    · rw [replace_of_ne _ _ same, replace_of_ne _ _ same, replace_of_ne _ _ same]
  simp only [put, calls]

/-- When nothing comes in between, a definition in a pool runs to its end as it does alone. -/
theorem Run.alone {rules : Rules ρ κ} {start system : System ρ} {ending : Ending}
    {trace : List (Move ρ κ)} {pool : Pool ρ κ} {index : Nat} {running : Running ρ κ}
    (before : Run rules start trace pool) (here : pool.calls index = some running)
    (ends : (running.call.rest running.place).run pool.system = some (ending, system)) :
    ∃ moves, (∀ move ∈ moves, move.index = index) ∧ Run rules start (moves ++ trace)
      (pool.put index { running with place := .ended ending } system) := by
  generalize left : running.call.rest running.place = program at ends
  induction program generalizing trace pool running with
  | done value =>
    obtain ⟨rfl, rfl⟩ := Prod.mk.inj (Option.some.inj ends)
    rcases running.call.ended_or_advances running.place with ⟨ended, place⟩ | ⟨turn, advances⟩
    · rw [place] at left
      obtain rfl : ended = value := Program.done.inj left
      have same : ({ running with place := .ended ended } : Running ρ κ) = running := by
        rw [← place]
      exact ⟨[], by simp, by rw [same, put_here here]; exact before⟩
    · rw [running.call.rest_of_advance advances] at left
      cases left
  | step ready act next ih =>
    rcases running.call.ended_or_advances running.place with ⟨ended, place⟩ | ⟨turn, advances⟩
    · rw [place] at left
      cases left
    · rw [running.call.rest_of_advance advances] at left
      obtain ⟨rfl, rfl, rfl⟩ := Program.step.inj left
      simp only [Program.run] at ends
      split at ends
      · next isReady =>
        have step := before.step (.advance here advances isReady)
        obtain ⟨moves, own, after⟩ := ih pool.system step (replace_self ..) rfl ends
        rw [put_put] at after
        refine ⟨moves ++ [_], ?_, by rw [List.append_assoc]; exact after⟩
        intro move listed
        rcases List.mem_append.mp listed with later | first
        · exact own move later
        · rw [List.mem_singleton.mp first]
      · cases ends

end Pool

/-! ### Programs of steps that keep a relation -/

/-- A program whose steps relate the states before and after, until it comes to a program that is
    last. -/
inductive Program.Until {σ α : Type} (rel : σ → σ → Prop) (last : Program σ α → Prop) :
    Program σ α → Prop where
  | last {program : Program σ α} (here : last program) : Until rel last program
  | step {ready : σ → Bool} {act : σ → σ} {next : σ → Program σ α}
      (related : ∀ s, ready s → rel s (act s)) (rest : ∀ s, Until rel last (next s)) :
      Until rel last (.step ready act next)

end Reload
