import Reload.Proofs.Concurrent.Obedience
import Reload.Proofs.Concurrent.Threads
import Reload.Proofs.Tally

/-!
Counters and journal agree over whole runs. A definition counts first and records later, each in a step of
its own, so the two agree except for the notes that definitions have begun to take (`Reconciled`). And each
definition that returns has recorded one event above the debug level, which tells how it ended, after
everything else that it and its callbacks have recorded (`Running.Told`).
-/

namespace Reload

variable {ρ κ : Type}

/-- The notes that a definition has begun to take, those that are left. -/
def Place.pending : Place ρ κ → List Note
  | .inside _ (.note first others) | .inside _ (.report first others _) => first :: others
  | _ => []

theorem Place.own_of_pending {place : Place ρ κ} (takes : place.pending ≠ []) : place.own := by
  cases place with
  | check | take | wait | unlock | drop | ended => exact absurd rfl takes
  | inside lock stage => cases stage <;> first | rfl | exact absurd rfl takes

/-- What an event above the debug level tells of the answer to the definition of a name. -/
structure Event.Tells (name : Name) (answer : Except DefinitionFailure Artifact) (event : Event) :
    Prop where
  named : ("name", name.text) ∈ event.fields
  info : event.level = .info ↔ ∃ artifact, answer = .ok artifact
  artifact : ∀ artifact, answer = .ok artifact → ∃ swept, event = .defined name artifact swept
  warn : event.level = .warn ↔ ∃ running, answer = .error ⟨name, .inFlight running⟩
  error : event.level = .error ↔
    ∃ cause, answer = .error ⟨name, cause⟩ ∧ ∀ running, cause ≠ .inFlight running

/-- How much an event has swept. -/
def Event.swept : Event → Nat
  | .defined _ _ swept => swept
  | _ => 0

/-- The counters of all loaders together tell what the events of the journal tell. -/
structure World.Agrees (w : World) : Prop where
  sparse : w.Sparse
  definitions : w.summed .definitions = UInt64.ofNat (w.journal.countP fun event =>
    event.level = .info ∧ event.message = "Defined code unit")
  failures : w.summed .definitionFailures = UInt64.ofNat (w.journal.countP fun event =>
    event.level = .warn ∨ event.level = .error)
  redefinitions : w.summed .redefinitions = UInt64.ofNat (w.journal.countP fun event =>
    event.level = .debug ∧ event.message = "Invalidated cached definition")
  guardedMisses : w.summed .guardedMisses = UInt64.ofNat (w.journal.countP fun event =>
    event.level = .debug ∧
      event.message = "Refusing in-flight name, forcing load from fresh image")
  swept : w.summed .entriesSwept = UInt64.ofNat ((w.journal.filter fun event =>
    event.level = .info).map Event.swept).sum

/-! ### From surplus to events -/

namespace World

/-- Events that weigh one each are counted by counting them. -/
private theorem tally_eq_countP (w : World) (counter : Counter) (p : Event → Bool)
    (weighs : ∀ event, event.weight counter = if p event then 1 else 0) :
    w.tally counter = UInt64.ofNat (w.journal.countP p) := by
  unfold tally
  induction w.journal with
  | nil => rfl
  | cons event earlier ih =>
    rw [List.map_cons, List.sum_cons, ih, weighs, List.countP_cons]
    split <;> simp [UInt64.ofNat_add, add_comm]

private theorem tally_entriesSwept (w : World) : w.tally .entriesSwept =
    UInt64.ofNat ((w.journal.filter fun event => event.level = .info).map Event.swept).sum := by
  unfold tally
  induction w.journal with
  | nil => rfl
  | cons event earlier ih =>
    rw [List.map_cons, List.sum_cons, ih]
    cases event <;> simp [Event.weight, Event.level, Event.swept, UInt64.ofNat_add]

/-- Without a surplus, counters and events agree. -/
theorem agrees_of_surplus {w : World} (sparse : w.Sparse)
    (even : ∀ counter : Counter, counter.recorded → w.surplus counter = 0) : w.Agrees := by
  have tallied {counter : Counter} (recorded : counter.recorded) :
      w.summed counter = w.tally counter := sub_eq_zero.mp (even counter recorded)
  refine ⟨sparse, (tallied rfl).trans ?_, (tallied rfl).trans ?_, (tallied rfl).trans ?_,
    (tallied rfl).trans ?_, (tallied rfl).trans w.tally_entriesSwept⟩ <;>
    exact w.tally_eq_countP _ _ fun event => by
      cases event <;> simp [Event.weight, Event.level, Event.message]

end World

/-! ### What the steps of a definition count and record -/

namespace Call

variable (call : Call ρ κ)

private theorem pending_atReporting (lock : Option LockId) (ending : Ending) (notes : List Note) :
    (atReporting lock ending notes : Place ρ κ).pending = notes := by
  cases notes with
  | nil => cases lock <;> rfl
  | cons first others => rfl

private theorem pending_of_works {places : Option LockId → Place ρ κ} (works : Place.Works places)
    (lock : Option LockId) : (places lock).pending = [] ∧ (places lock).ending? = none := by
  obtain ⟨stage, working, inside⟩ := works
  rw [inside]
  cases stage <;> first | exact ⟨rfl, rfl⟩ | cases working

private theorem pending_atNoting (lock : Option LockId) (notes : List Note) :
    (call.atNoting lock notes).pending = notes ∧ (call.atNoting lock notes).ending? = none := by
  cases notes with
  | nil => exact pending_of_works (call.works_atPacking _) lock
  | cons first others => exact ⟨rfl, rfl⟩

/-- What a step does to counters and journal: it is one of a callback, or it takes a note, or it begins to
    take notes that are in balance. -/
inductive Writes (call : Call ρ κ) (place next : Place ρ κ) (w w' : World) : Prop where
  | callback (calls : place.callback) (silent : place.pending = []) (still : next.pending = [])
  | note {first : Note} (pending : place.pending = first :: next.pending)
      (change : w' = first.apply call.loader.counters w)
  | begin (own : place.callback = false) (silent : place.pending = [])
      (counters : w'.counters = w.counters) (journal : w'.journal = w.journal)
      (even : ∀ counter, (next.pending.map (Note.worth counter)).sum = 0)

/-- The notes on an ending are in balance. -/
private theorem even_notes (name : Name) (result : Result) (counter : Counter) :
    ((result.notes name).map (Note.worth counter)).sum = 0 := by
  rcases result with panic | cause | ⟨artifact, swept⟩
  · rfl
  · cases counter <;> cases cause <;> simp [Result.notes, Note.worth, Event.weight, Loader.failureEvent]
  · cases counter <;> simp [Result.notes, Note.worth, Event.weight]

private theorem even_forgetNotes (present : Bool) (counter : Counter) :
    ((call.forgetNotes present).map (Note.worth counter)).sum = 0 := by
  cases present
  · rfl
  · cases counter <;> simp [forgetNotes, Note.worth, Event.weight]

private theorem even_atReport (lock : Option LockId) (result : Result) (counter : Counter) :
    ((call.atReport lock result).pending.map (Note.worth counter)).sum = 0 := by
  rw [atReport, pending_atReporting]
  exact even_notes call.name result counter

private theorem writes_stage (lock : Option LockId) (stage : Stage ρ κ) (s : System ρ) :
    call.Writes (.inside lock stage) ((call.advanceStage lock stage).next s) s.world
      ((call.advanceStage lock stage).act s).world := by
  cases stage with
  | mark =>
    simp only [advanceStage, World.mark]
    cases s.world.marker call.thread with
    | none => exact .begin rfl rfl rfl rfl fun _ => rfl
    | some running => exact .begin rfl rfl rfl rfl (call.even_atReport lock _)
  | forget =>
    refine .begin rfl rfl rfl rfl fun counter => ?_
    simp only [advanceStage, (call.pending_atNoting lock _).1]
    exact call.even_forgetNotes _ counter
  | note first others =>
    refine .note ?_ rfl
    simp only [advanceStage, Turn.change, (call.pending_atNoting lock _).1]
    rfl
  | pack turn => exact .callback rfl rfl (pending_of_works (call.works_atPacking _) lock).1
  | instantiate turn =>
    exact .callback rfl rfl (pending_of_works (call.works_atInstantiating _) lock).1
  | load context turn => exact .callback rfl rfl (pending_of_works (works_atLoading context _) lock).1
  | publish context artifact => exact .begin rfl rfl rfl rfl fun _ => rfl
  | close context result => exact .callback rfl rfl rfl
  | unmark result => exact .begin rfl rfl rfl rfl (call.even_atReport lock result)
  | report first others ending =>
    refine .note ?_ rfl
    simp only [advanceStage, Turn.change, pending_atReporting]
    rfl

theorem writes_advance {place : Place ρ κ} {turn : Turn (System ρ) (Place ρ κ)}
    (advances : call.advance place = some turn) (s : System ρ) :
    call.Writes place (turn.next s) s.world (turn.act s).world := by
  cases place with
  | check =>
    cases advances
    refine .begin rfl rfl rfl rfl fun counter => ?_
    simp only []
    split
    · exact call.even_atReport none _ counter
    · split <;> rfl
  | take =>
    cases advances
    have journal := congrArg World.journal (s.world.lockFor_eq call.loader.cache.locks call.name)
    exact .begin rfl rfl (World.lockFor_counters ..) journal fun _ => rfl
  | wait | unlock | drop => cases advances; exact .begin rfl rfl rfl rfl fun _ => rfl
  | inside lock stage => cases advances; exact call.writes_stage lock stage s
  | ended => cases advances

end Call

/-! ### Balance over runs -/

/-- What the notes that a definition has begun to take will add to the surplus. -/
def Running.worth (counter : Counter) (running : Running ρ κ) : UInt64 :=
  (running.place.pending.map (Note.worth counter)).sum

namespace Pool

/-- The surplus, and what definitions will add to it, come to nothing. -/
structure Reconciled (pool : Pool ρ κ) : Prop where
  sparse : pool.world.Sparse
  even : ∀ indices, pool.Covers indices → ∀ counter : Counter, counter.recorded →
    pool.world.surplus counter + pool.total (Running.worth counter) indices = 0

variable {rules : Rules ρ κ} {start : System ρ} {trace : List (Move ρ κ)} {pool pool' : Pool ρ κ}
  {move : Option (Move ρ κ)}

/-- A definition goes on: the surplus grows by as much as is left to add less than before. -/
private theorem reconciled_put (reconciled : pool.Reconciled) {index : Nat} {running : Running ρ κ}
    {place : Place ρ κ} {system : System ρ} (here : pool.calls index = some running)
    (sparse : system.world.Sparse)
    (moved : ∀ counter : Counter, counter.recorded →
      system.world.surplus counter + Running.worth counter { running with place } =
        pool.world.surplus counter + running.worth counter) :
    (pool.put index { running with place } system).Reconciled where
  sparse := sparse
  even indices covers counter recorded := by
    obtain ⟨listed, before⟩ := covers.of_put
    obtain ⟨others, total, after⟩ := total_split (Running.worth counter) listed here
    have even := reconciled.even indices before counter recorded
    have moved := moved counter recorded
    rw [total] at even
    rw [after]
    calc system.world.surplus counter + (others + Running.worth counter { running with place })
        = others + (system.world.surplus counter + Running.worth counter { running with place }) := by
          ac_rfl
      _ = others + (pool.world.surplus counter + running.worth counter) := by rw [moved]
      _ = pool.world.surplus counter + (others + running.worth counter) := by ac_rfl
      _ = 0 := even

/-- What is done besides defining changes no surplus. -/
private theorem reconciled_aside (reconciled : pool.Reconciled) {system : System ρ}
    (tallied : pool.world.Tallied system.world) : ({ pool with system } : Pool ρ κ).Reconciled where
  sparse := tallied.sparse reconciled.sparse
  even indices covers counter recorded := by
    have even := reconciled.even indices covers counter recorded
    rwa [← tallied.surplus reconciled.sparse counter recorded] at even

private theorem reconciled_step (reconciled : pool.Reconciled) (next : Step rules pool move pool')
    (outside : ∀ w w', rules.outside w w' → Operation w w')
    (callbacks : ∀ taken, move = some taken → taken.running.place.callback →
      Operation taken.before taken.after) : pool'.Reconciled := by
  cases next with
  | @begin index call unused allowed =>
    refine ⟨reconciled.sparse, fun indices covers counter recorded => ?_⟩
    obtain ⟨listed, before⟩ := covers.of_put
    rw [total_begin listed unused, show Running.worth counter ⟨call, .check, _⟩ = 0 from rfl, add_zero]
    exact reconciled.even indices before counter recorded
  | outside allowed => exact reconciled_aside reconciled (outside _ _ allowed).tallied
  | @advance index running turn here advances ready =>
    cases running.call.writes_advance advances pool.system with
    | callback calls silent still =>
      have tallied := (callbacks _ rfl calls).tallied
      refine reconciled_put reconciled here (tallied.sparse reconciled.sparse) fun counter recorded => ?_
      simp only [Running.worth, silent, still]
      rw [← tallied.surplus reconciled.sparse counter recorded]
    | @note first pending change =>
      refine reconciled_put reconciled here ?_ fun counter recorded => ?_
      · rw [change]
        exact first.sparse_apply _ reconciled.sparse
      · have grown := first.surplus_apply running.call.loader.counters reconciled.sparse counter
        simp only [Running.worth, pending, List.map_cons, List.sum_cons]
        rw [change, ← add_assoc]
        exact congrArg (· + _) grown
    | begin own silent counters journal even =>
      have tallied : pool.world.Tallied (turn.act pool.system).world := .aside counters journal
      refine reconciled_put reconciled here (tallied.sparse reconciled.sparse) fun counter recorded => ?_
      simp only [Running.worth, silent, even]
      rw [tallied.surplus reconciled.sparse counter recorded]
      rfl

theorem Run.reconciled (outside : ∀ w w', rules.outside w w' → Operation w w')
    (zero : ∀ id, start.world.counters id = {}) (blank : start.world.journal = [])
    (run : Run rules start trace pool)
    (callbacks : ∀ move ∈ trace, move.running.place.callback → Operation move.before move.after) :
    pool.Reconciled := by
  induction run with
  | start =>
    have nothing (id : CountersId) (counter : Counter) : start.world.counter id counter = 0 := by
      rw [World.counter, zero]
      cases counter <;> rfl
    refine ⟨fun counter => ?_, fun indices _ counter _ => ?_⟩
    · simp only [world, nothing]
      exact Set.finite_empty.subset (by simp [Function.support])
    · rw [total_eq_zero (by simp), add_zero]
      simp [world, World.surplus, World.summed, World.tally, nothing, blank]
  | step _ next ih =>
    refine reconciled_step (ih fun move listed => callbacks move (List.mem_append_right _ listed)) next
      outside fun taken same => callbacks taken ?_
    simp [same]

/-- When no definition has begun to take notes and not taken all, counters and journal agree. -/
theorem Reconciled.agrees (reconciled : pool.Reconciled) (covered : ∃ indices, pool.Covers indices)
    (noted : ∀ index running, pool.calls index = some running → running.place.pending = []) :
    pool.world.Agrees := by
  obtain ⟨indices, covers⟩ := covered
  refine World.agrees_of_surplus reconciled.sparse fun counter recorded => ?_
  have even := reconciled.even indices covers counter recorded
  rwa [total_eq_zero fun index running here => by
    rw [Running.worth, noted index running here]; rfl, add_zero] at even

end Pool

/-! ### What one definition records -/

/-- The events that a step adds to the journal. -/
def Move.emitted (move : Move ρ κ) : List Event :=
  move.after.journal.take (move.after.journal.length - move.before.journal.length)

theorem Move.emitted_eq {move : Move ρ κ} {events : List Event}
    (journal : move.after.journal = events ++ move.before.journal) : move.emitted = events := by
  rw [emitted, journal]
  simp

/-- If a definition has begun to take notes, they are of the debug level, or the last one is the only
    event and tells how the definition ends. -/
def Place.Speaks (call : Call ρ κ) : Place ρ κ → Prop
  | .inside _ (.note first others) =>
    ∀ event, .record event ∈ first :: others → event.level = .debug
  | .inside _ (.report first others ending) => ∃ answer event counts, ending = .ok answer ∧
    first :: others = counts ++ [.record event] ∧ (∀ note ∈ counts, ∀ told, note ≠ .record told) ∧
    event.Tells call.name answer
  | _ => True

private theorem tells_defined (name : Name) (artifact : Artifact) (swept : Nat) :
    (Event.defined name artifact swept).Tells name (.ok artifact) where
  named := by simp [Event.fields]
  info := by simp [Event.level]
  artifact := by simp
  warn := by simp [Event.level]
  error := by simp [Event.level]

private theorem tells_failure (name : Name) (cause : Failure) :
    (Loader.failureEvent name cause).Tells name (.error ⟨name, cause⟩) where
  named := by cases cause <;> simp [Loader.failureEvent, Event.fields]
  info := by cases cause <;> simp [Loader.failureEvent, Event.level]
  artifact := by simp
  warn := by cases cause <;> simp [Loader.failureEvent, Event.level]
  error := by cases cause <;> simp [Loader.failureEvent, Event.level]

namespace Call

variable (call : Call ρ κ)

/-- What a step records: it is one of a callback, or it records nothing, or an event of the debug level, or
    the event that tells how the definition ends; afterwards the definition only leaves. -/
inductive Utters (call : Call ρ κ) (place next : Place ρ κ) (w w' : World) : Prop where
  | callback (calls : place.callback) (going : next.ending? = none)
  | silent (own : place.callback = false) (before : place.ending? = none)
      (journal : w'.journal = w.journal)
      (panics : ∀ ending, next.ending? = some ending → ∃ panic, ending = .error panic)
  | aside (own : place.callback = false) {event : Event} (before : place.ending? = none)
      (level : event.level = .debug) (journal : w'.journal = event :: w.journal)
      (going : next.ending? = none)
  | speak (own : place.callback = false) {event : Event} {answer : Except DefinitionFailure Artifact}
      (before : place.ending? = none) (tells : event.Tells call.name answer)
      (journal : w'.journal = event :: w.journal) (ends : next.ending? = some (.ok answer))
  | leaving (own : place.callback = false) (journal : w'.journal = w.journal)
      (ended : place.ending?.isSome) (same : next.ending? = place.ending?)

private theorem ending?_atLeaving (ending : Ending) (lock : Option LockId) :
    (atLeaving ending lock : Place ρ κ).ending? = some ending := by
  cases lock <;> rfl

private theorem speaks_of_works {places : Option LockId → Place ρ κ} (works : Place.Works places)
    (lock : Option LockId) : (places lock).Speaks call := by
  obtain ⟨stage, working, inside⟩ := works
  rw [inside]
  cases stage <;> trivial

private theorem speaks_atNoting (lock : Option LockId) {notes : List Note}
    (debug : ∀ event, .record event ∈ notes → event.level = .debug) :
    (call.atNoting lock notes).Speaks call := by
  cases notes with
  | nil => exact call.speaks_of_works (call.works_atPacking _) lock
  | cons first others => exact debug

private theorem speaks_atReport (lock : Option LockId) (result : Result) :
    (call.atReport lock result).Speaks call ∧ ∀ ending,
      (call.atReport lock result).ending? = some ending → ∃ panic, ending = .error panic := by
  rcases result with panic | cause | ⟨artifact, swept⟩
  · refine ⟨by cases lock <;> trivial, fun ending ends => ⟨panic, ?_⟩⟩
    exact Option.some.inj (ends.symm.trans (ending?_atLeaving _ lock))
  · refine ⟨⟨_, _, [.count .definitionFailures 1], rfl, rfl, by simp, tells_failure ..⟩, ?_⟩
    intro ending ends
    cases ends
  · refine ⟨⟨_, _, [.count .definitions 1, .count .entriesSwept (UInt64.ofNat swept)], rfl, rfl,
      by simp, tells_defined ..⟩, ?_⟩
    intro ending ends
    cases ends

/-- The notes that tell how a definition ends are counts, and then the event. -/
private theorem utters_report {lock : Option LockId} {first : Note} {others : List Note}
    {ending : Ending} (speaks : (Place.inside lock (.report first others ending)).Speaks call)
    (w : World) :
    (atReporting lock ending others).Speaks call ∧
      call.Utters (.inside lock (.report first others ending)) (atReporting lock ending others) w
        (first.apply call.loader.counters w) := by
  obtain ⟨answer, event, counts, rfl, notes, plain, tells⟩ := speaks
  cases counts with
  | nil =>
    obtain ⟨rfl, rfl⟩ := List.cons.inj notes
    exact ⟨by cases lock <;> trivial, .speak rfl rfl tells rfl (ending?_atLeaving _ lock)⟩
  | cons count counts =>
    obtain ⟨rfl, rfl⟩ := List.cons.inj notes
    have rest : (atReporting lock (.ok answer) (counts ++ [.record event])).Speaks call ∧
        (atReporting lock (.ok answer) (counts ++ [.record event]) : Place ρ κ).ending? = none := by
      have later : ∀ note ∈ counts, ∀ told, note ≠ .record told := fun note listed =>
        plain note (List.mem_cons_of_mem _ listed)
      cases counts with
      | nil => exact ⟨⟨answer, event, [], rfl, rfl, later, tells⟩, rfl⟩
      | cons next others => exact ⟨⟨answer, event, next :: others, rfl, rfl, later, tells⟩, rfl⟩
    refine ⟨rest.1, ?_⟩
    cases first with
    | count counter amount => exact .silent rfl rfl rfl (by simp [rest.2])
    | record told => exact absurd rfl (plain _ (by simp) told)

private theorem utters_stage {lock : Option LockId} {stage : Stage ρ κ}
    (speaks : (Place.inside lock stage).Speaks call) (s : System ρ) :
    ((call.advanceStage lock stage).next s).Speaks call ∧
      call.Utters (.inside lock stage) ((call.advanceStage lock stage).next s) s.world
        ((call.advanceStage lock stage).act s).world := by
  cases stage with
  | mark =>
    simp only [advanceStage, World.mark]
    cases s.world.marker call.thread with
    | none => exact ⟨trivial, .silent rfl rfl rfl (by simp [Place.ending?])⟩
    | some running =>
      obtain ⟨tells, panics⟩ := call.speaks_atReport lock (.ok (.error (.inFlight running)))
      exact ⟨tells, .silent rfl rfl rfl panics⟩
  | forget =>
    refine ⟨call.speaks_atNoting lock fun event listed => ?_, .silent rfl rfl rfl ?_⟩
    · unfold forgetNotes at listed
      split at listed
      · simp at listed
        rw [listed]
        rfl
      · cases listed
    · simp only [advanceStage, (call.pending_atNoting lock _).2]
      simp
  | note first others =>
    refine ⟨call.speaks_atNoting lock fun event listed =>
      speaks event (List.mem_cons_of_mem _ listed), ?_⟩
    have going := (call.pending_atNoting lock others).2
    cases first with
    | count counter amount => exact .silent rfl rfl rfl (by simp [advanceStage, Turn.change, going])
    | record event => exact .aside rfl rfl (speaks event (by simp)) rfl going
  | pack turn =>
    have works := call.works_atPacking (turn.next s)
    exact ⟨call.speaks_of_works works lock, .callback rfl (pending_of_works works lock).2⟩
  | instantiate turn =>
    have works := call.works_atInstantiating (turn.next s)
    exact ⟨call.speaks_of_works works lock, .callback rfl (pending_of_works works lock).2⟩
  | load context turn =>
    have works := works_atLoading context (turn.next s)
    exact ⟨call.speaks_of_works works lock, .callback rfl (pending_of_works works lock).2⟩
  | publish context artifact =>
    exact ⟨trivial, .silent rfl rfl rfl (by simp [advanceStage, Place.ending?])⟩
  | close context result => exact ⟨trivial, .callback rfl rfl⟩
  | unmark result =>
    obtain ⟨tells, panics⟩ := call.speaks_atReport lock result
    exact ⟨tells, .silent rfl rfl rfl panics⟩
  | report first others ending => exact call.utters_report speaks s.world

theorem utters_advance {place : Place ρ κ} {turn : Turn (System ρ) (Place ρ κ)}
    (speaks : place.Speaks call) (advances : call.advance place = some turn) (s : System ρ) :
    (turn.next s).Speaks call ∧ call.Utters place (turn.next s) s.world (turn.act s).world := by
  cases place with
  | check =>
    cases advances
    simp only []
    cases s.world.marker call.thread with
    | some running =>
      obtain ⟨tells, panics⟩ := call.speaks_atReport none (.ok (.error (.inFlight running)))
      exact ⟨tells, .silent rfl rfl rfl panics⟩
    | none =>
      simp only []
      split <;> exact ⟨trivial, .silent rfl rfl rfl (by simp [Place.ending?])⟩
  | take =>
    cases advances
    have journal := congrArg World.journal (s.world.lockFor_eq call.loader.cache.locks call.name)
    exact ⟨trivial, .silent rfl rfl journal (by simp [Place.ending?])⟩
  | wait lock =>
    cases advances
    exact ⟨trivial, .silent rfl rfl rfl (by simp [Place.ending?])⟩
  | inside lock stage => cases advances; exact call.utters_stage speaks s
  | unlock | drop => cases advances; exact ⟨trivial, .leaving rfl rfl rfl rfl⟩
  | ended => cases advances

end Call

/-- The definition, and its callbacks, have recorded no event above the debug level. -/
def Silent (trace : List (Move ρ κ)) (index : Nat) : Prop :=
  ∀ move ∈ trace, move.index = index → ∀ event ∈ move.emitted, event.level = .debug

/-- The definition has recorded one event above the debug level, which tells its answer. Neither it nor its
    callbacks have recorded anything since. -/
def Spoken (trace : List (Move ρ κ)) (index : Nat) (name : Name)
    (answer : Except DefinitionFailure Artifact) : Prop :=
  ∃ later move earlier event, trace = later ++ move :: earlier ∧ move.index = index ∧ move.own ∧
    move.emitted = [event] ∧ event.Tells name answer ∧ Silent earlier index ∧
    ∀ other ∈ later, other.index = index → other.emitted = []

theorem Silent.cons {trace : List (Move ρ κ)} {index : Nat} (silent : Silent trace index)
    {move : Move ρ κ}
    (debug : move.index = index → ∀ event ∈ move.emitted, event.level = .debug) :
    Silent (move :: trace) index := by
  intro other listed own
  rcases List.mem_cons.mp listed with rfl | earlier
  · exact debug own
  · exact silent other earlier own

theorem Spoken.cons {trace : List (Move ρ κ)} {index : Nat} {name : Name}
    {answer : Except DefinitionFailure Artifact} (spoken : Spoken trace index name answer)
    {move : Move ρ κ} (silent : move.index = index → move.emitted = []) :
    Spoken (move :: trace) index name answer := by
  obtain ⟨later, spoke, earlier, event, rfl, own, moved, emitted, tells, silent, since⟩ := spoken
  refine ⟨move :: later, spoke, earlier, event, rfl, own, moved, emitted, tells, silent, ?_⟩
  intro other listed mine
  rcases List.mem_cons.mp listed with rfl | before
  · exact silent mine
  · exact since other before mine

/-- What a definition has recorded so far. -/
structure Running.Told (trace : List (Move ρ κ)) (index : Nat) (running : Running ρ κ) : Prop where
  speaks : running.place.Speaks running.call
  going : running.place.ending? = none → Silent trace index
  panicked : ∀ panic, running.place.ending? = some (.error panic) → Silent trace index
  returned : ∀ answer, running.place.ending? = some (.ok answer) →
    Spoken trace index running.call.name answer

/-- The steps of others leave alone what a definition has recorded. -/
private theorem told_cons {trace : List (Move ρ κ)} {index : Nat} {running : Running ρ κ}
    (told : running.Told trace index) {move : Move ρ κ} (other : move.index ≠ index) :
    running.Told (move :: trace) index where
  speaks := told.speaks
  going going := (told.going going).cons fun own => absurd own other
  panicked panic ends := (told.panicked panic ends).cons fun own => absurd own other
  returned answer ends := (told.returned answer ends).cons fun own => absurd own other

/-- A step of the definition itself, or of one of its callbacks. -/
private theorem told_advance {trace : List (Move ρ κ)} {index : Nat} {running : Running ρ κ}
    (told : running.Told trace index) {turn : Turn (System ρ) (Place ρ κ)}
    (advances : running.call.advance running.place = some turn) {s : System ρ}
    (callbacks : running.place.callback → s.world.Tallied (turn.act s).world) :
    Running.Told (⟨index, running, s.world, (turn.act s).world⟩ :: trace) index
      { running with place := turn.next s } := by
  obtain ⟨speaks, utters⟩ := running.call.utters_advance told.speaks advances s
  let move : Move ρ κ := ⟨index, running, s.world, (turn.act s).world⟩
  cases utters with
  | callback calls going =>
    obtain ⟨events, journal, debug⟩ := (callbacks calls).events
    have emitted : move.emitted = events := Move.emitted_eq journal
    have before : running.place.ending? = none := by
      cases place : running.place <;> first | rfl | (rw [place] at calls; cases calls)
    have silent : Silent (move :: trace) index := (told.going before).cons fun _ => by
      rw [emitted]
      exact debug
    exact ⟨speaks, fun _ => silent, fun _ _ => silent, fun answer ends => by simp [going] at ends⟩
  | silent own before journal panics =>
    have emitted : move.emitted = [] := Move.emitted_eq journal
    have silent : Silent (move :: trace) index := (told.going before).cons fun _ => by simp [emitted]
    refine ⟨speaks, fun _ => silent, fun _ _ => silent, fun answer ends => ?_⟩
    obtain ⟨panic, same⟩ := panics _ ends
    cases same
  | @aside own event before level journal going =>
    have emitted : move.emitted = [event] := Move.emitted_eq journal
    have silent : Silent (move :: trace) index := (told.going before).cons fun _ => by
      simpa [emitted] using level
    exact ⟨speaks, fun _ => silent, fun _ _ => silent, fun answer ends => by simp [going] at ends⟩
  | @speak own event answer before tells journal ends =>
    have emitted : move.emitted = [event] := Move.emitted_eq journal
    refine ⟨speaks, fun going => by simp [ends] at going, fun panic ends' => by simp [ends] at ends', ?_⟩
    intro answer' ends'
    obtain rfl : answer = answer' := by simpa [ends] using ends'
    have moved : move.own := by simp [move, Move.own, own]
    exact ⟨[], move, trace, event, rfl, rfl, moved, emitted, tells, told.going before, by simp⟩
  | leaving own journal ended same =>
    have emitted : move.emitted = [] := Move.emitted_eq journal
    refine ⟨speaks, fun going => ?_, fun panic ends => ?_, fun answer ends => ?_⟩
    · rw [← same, going] at ended
      cases ended
    · refine (told.panicked panic (same.symm.trans ends)).cons fun _ => ?_
      show ∀ event ∈ move.emitted, event.level = .debug
      simp [emitted]
    · exact (told.returned answer (same.symm.trans ends)).cons fun _ => emitted

/-- Rules by which everything besides definitions is an operation: what callbacks do, and what happens
    outside. -/
structure Rules.Operate (rules : Rules ρ κ) : Prop where
  begins : ∀ call w, rules.begins call w → call.Obeys Operation
  outside : ∀ w w', rules.outside w w' → Operation w w'

/-- A state in which nothing has been defined or resolved. -/
structure World.Unused (w : World) : Prop where
  counters : ∀ id, w.counters id = {}
  journal : w.journal = []
  markers : ∀ thread, w.marker thread = none

namespace Pool

variable {rules : Rules ρ κ} {start : System ρ} {trace : List (Move ρ κ)} {pool : Pool ρ κ}

private theorem Run.recorded (run : Run rules start trace pool)
    (callbacks : ∀ move ∈ trace, move.running.place.callback → move.before.Tallied move.after) :
    ∀ move ∈ trace, move.after.journal = move.emitted ++ move.before.journal := by
  have adds {move : Move ρ κ} (events : List Event)
      (journal : move.after.journal = events ++ move.before.journal) :
      move.after.journal = move.emitted ++ move.before.journal := by
    rw [Move.emitted_eq journal, journal]
  induction run with
  | start => simp
  | step _ next ih =>
    have earlier := ih fun move listed => callbacks move (List.mem_append_right _ listed)
    cases next with
    | begin => exact earlier
    | outside => exact earlier
    | @advance index running turn here advances ready =>
      intro move listed
      rcases List.mem_cons.mp listed with rfl | before
      · cases running.call.writes_advance advances _ with
        | callback calls =>
          obtain ⟨events, journal, -⟩ := (callbacks _ (List.mem_cons_self ..) calls).events
          exact adds events journal
        | @note first pending change =>
          have journal := congrArg World.journal change
          cases first with
          | count counter amount => exact adds [] journal
          | record event => exact adds [event] journal
        | begin own silent counters journal => exact adds [] journal
      · exact earlier move before

private theorem Run.told (run : Run rules start trace pool)
    (callbacks : ∀ move ∈ trace, move.running.place.callback → move.before.Tallied move.after) :
    ∀ index running, pool.calls index = some running → running.Told trace index := by
  induction run with
  | start =>
    intro index running here
    cases here
  | step before next ih =>
    have told := ih fun move listed => callbacks move (List.mem_append_right _ listed)
    cases next with
    | @begin begun call unused allowed =>
      intro index running here
      rcases calls_put here with ⟨rfl, rfl⟩ | ⟨-, there⟩
      · have fresh : Silent _ index := fun move listed own => by
          have used := before.moved move listed
          rw [own, unused] at used
          cases used
        exact ⟨trivial, fun _ => fresh, fun _ _ => fresh, by simp [Place.ending?]⟩
      · exact told index running there
    | outside allowed => exact told
    | @advance moved running turn here advances ready =>
      intro index found there
      rcases calls_put there with ⟨rfl, rfl⟩ | ⟨different, there⟩
      · exact told_advance (told index running here) advances
          fun calls => callbacks _ (List.mem_cons_self ..) calls
      · exact told_cons (told index found there) fun same => different same.symm

/-- What a run tells by its counters and its journal. -/
structure Accounted (trace : List (Move ρ κ)) (pool : Pool ρ κ) : Prop where
  /-- Nothing is removed from the journal. -/
  recorded : ∀ move ∈ trace, move.after.journal = move.emitted ++ move.before.journal
  /-- Whenever no definition is in the middle of taking notes, counters and journal agree. -/
  agrees : (∀ index running, pool.calls index = some running → running.place.pending = []) →
    pool.world.Agrees
  /-- A definition that has returned has recorded one event above the debug level, which tells its
      answer, and nothing since. -/
  returned : ∀ index running answer, pool.calls index = some running →
    running.place = .ended (.ok answer) → Spoken trace index running.call.name answer
  panicked : ∀ index running panic, pool.calls index = some running →
    running.place = .ended (.error panic) → Silent trace index

/-- Whatever is defined and resolved beside each other and inside callbacks, counters and journal agree, and
    each definition that returns has told its answer once, when those that its callbacks have begun have
    ended. Nothing else is an event above the debug level. -/
theorem journal_agrees_with_counters :
    (∀ {ρ κ : Type} {rules : Rules ρ κ} {start : System ρ} {trace : List (Move ρ κ)}
      {pool : Pool ρ κ}, rules.Operate → start.world.Unused → Run rules start trace pool →
      Accounted trace pool) ∧
    (∀ {ρ κ : Type} {rules : Rules ρ κ} {start : System ρ} {trace : List (Move ρ κ)}
      {pool : Pool ρ κ} {scopes : Scopes}, start.world.Unused →
      Course rules Threaded ⟨start, fun _ => none⟩ (fun _ => none) trace pool scopes →
      ∀ index running, pool.calls index = some running → running.place.pending ≠ [] →
      ∀ other theirs, pool.calls other = some theirs →
        theirs.call.thread = running.call.thread → other ≠ index →
        (∃ ending, theirs.place = .ended ending) ∨ theirs.place.callback) ∧
    ∀ {w w' : World}, Operation w w' →
      ∃ events, w'.journal = events ++ w.journal ∧ ∀ event ∈ events, event.level = .debug := by
  refine ⟨fun operate unused run => ?_, fun unused course => ?_,
    fun operation => operation.tallied.events⟩
  · obtain ⟨-, callbacks⟩ := run.obeys operate.begins
    have tallied := fun move listed calls => (callbacks move listed calls).tallied
    have told := run.told tallied
    have reconciled := run.reconciled operate.outside unused.counters unused.journal callbacks
    refine ⟨run.recorded tallied, reconciled.agrees run.covered, fun index running answer here ended => ?_,
      fun index running panic here ended => ?_⟩
    · exact (told index running here).returned answer (by rw [ended]; rfl)
    · exact (told index running here).panicked panic (by rw [ended]; rfl)
  · intro index running here takes other theirs there thread different
    exact (course.sequenced unused.markers).others here (Place.own_of_pending takes) there thread
      different

private theorem returned_of_artifact {running : Running ρ κ}
    (still : (running.call.advance running.place).isNone)
    (answers : running.place.ending?.any fun ending => ending.artifact?.isSome) :
    ∃ artifact, running.place = .ended (.ok (.ok artifact)) := by
  rcases running.call.ended_or_advances running.place with ⟨ending, place⟩ | ⟨turn, advances⟩
  · rw [place] at answers
    rcases ending with panic | failure | artifact
    · cases answers
    · cases answers
    · exact ⟨artifact, place⟩
  · simp [advances] at still

private theorem failed_of_artifact {running : Running ρ κ}
    (still : (running.call.advance running.place).isNone)
    (answers : running.place.ending?.any fun ending =>
      ending.artifact?.isNone ∧ !ending.panicked) :
    ∃ failure, running.place = .ended (.ok (.error failure)) := by
  rcases running.call.ended_or_advances running.place with ⟨ending, place⟩ | ⟨turn, advances⟩
  · rw [place] at answers
    rcases ending with panic | failure | artifact
    · simp [Place.ending?, Ending.artifact?, Ending.panicked] at answers
    · exact ⟨failure, place⟩
    · simp [Place.ending?, Ending.artifact?] at answers
  · simp [advances] at still

/-- A definition in whose callback another one is refused; a failing one that has begun to take notes; and
    a resolution. -/
theorem journal_agrees_with_counters_nested :
    let unit : Artifact := ⟨1, ⟨"a", by decide⟩, 0, .nothing⟩
    let loader := Loader.linkedBehind unit
    let rules : Rules Unit MemoryContext := ⟨fun call _ => call.Obeys Operation, Operation⟩
    (∃ trace pool, Run rules ⟨{}, ()⟩ trace pool ∧ pool.world.Agrees ∧
      (∃ artifact, Spoken trace 0 unit.name (.ok artifact)) ∧
      ∃ failure, Spoken trace 1 ⟨"b", by decide⟩ (.error failure)) ∧
    (∃ trace pool running, Course rules Threaded ⟨⟨{}, ()⟩, fun _ => none⟩ (fun _ => none) trace pool
      (fun _ => none) ∧ pool.calls 0 = some running ∧ running.place.pending ≠ [] ∧
      ∀ other theirs, pool.calls other = some theirs →
        theirs.call.thread = running.call.thread → other ≠ 0 →
        (∃ ending, theirs.place = .ended ending) ∨ theirs.place.callback) ∧
    ∃ events, (loader.resolve .first unit.name {}).2.journal = events ++ [] ∧
      ∀ event ∈ events, event.level = .debug := by
  intro unit loader rules
  have unused : World.Unused {} := ⟨fun _ => rfl, rfl, fun _ => rfl⟩
  have obeys (name : Name) (raw : Bytes) :
      (loader.call .first name raw : Call Unit MemoryContext).Obeys Operation :=
    Loader.obeys_call .instantiate .load .close loader .first name raw
  let s : System Unit := ⟨{}, ()⟩
  let blank : Pool Unit MemoryContext := ⟨s, fun _ => none⟩
  refine ⟨?_, ?_, journal_agrees_with_counters.2.2 (.resolve loader.resolver .first unit.name {})⟩
  · let outer : Call Unit MemoryContext :=
      loader.call .first unit.name [0x48, 0x53, 0x55, 0x31, 0, 0, 7]
    let nested : Call Unit MemoryContext := loader.call .first ⟨"b", by decide⟩ []
    let one := blank.put 0 ⟨outer, .check, 0⟩ s
    let both (pool : Pool Unit MemoryContext) : Pool Unit MemoryContext :=
      pool.put 1 ⟨nested, .check, pool.world.created⟩ pool.system
    -- The outer definition gets into its host, where the nested one is refused, and goes on.
    have ends : (one.follow (List.replicate 5 0)).any (fun middle =>
        (middle.2.calls 1).isNone ∧
        ((both middle.2).follow ([1, 1, 1] ++ List.replicate 10 0)).any fun ended =>
          ((ended.2.calls 0).any fun running =>
            running.call.name = unit.name ∧ (running.call.advance running.place).isNone ∧
            running.place.ending?.any fun ending => ending.artifact?.isSome) ∧
          (ended.2.calls 1).any fun running =>
            running.call.name = nested.name ∧ (running.call.advance running.place).isNone ∧
            running.place.ending?.any fun ending =>
              ending.artifact?.isNone ∧ !ending.panicked) = true := by decide +kernel
    obtain ⟨⟨earlier, middle⟩, first, facts⟩ := (Option.any_eq_true _ _).mp ends
    obtain ⟨free, facts⟩ := of_decide_eq_true facts
    obtain ⟨⟨later, pool⟩, followed, facts⟩ := (Option.any_eq_true _ _).mp facts
    obtain ⟨outerEnds, nestedEnds⟩ := of_decide_eq_true facts
    obtain ⟨running, here, facts⟩ := (Option.any_eq_true _ _).mp outerEnds
    obtain ⟨named, still, answers⟩ := of_decide_eq_true facts
    obtain ⟨theirs, there, facts⟩ := (Option.any_eq_true _ _).mp nestedEnds
    obtain ⟨named', still', answers'⟩ := of_decide_eq_true facts
    obtain ⟨artifact, place⟩ := returned_of_artifact still answers
    obtain ⟨failure, place'⟩ := failed_of_artifact still' answers'
    have run : Run rules s (later ++ earlier) pool := by
      have begun : Run rules s [] one := .step .start (.begin rfl (obeys _ _))
      have entered : Run rules s earlier (both middle) := by
        have run := begun.follow first
        rw [List.append_nil] at run
        exact .step run (.begin (Option.isNone_iff_eq_none.mp free) (obeys _ _))
      exact entered.follow followed
    have accounted := journal_agrees_with_counters.1 ⟨fun _ _ => id, fun _ _ => id⟩ unused run
    have outerTold := accounted.returned 0 running _ here place
    have nestedTold := accounted.returned 1 theirs _ there place'
    rw [named] at outerTold
    rw [named'] at nestedTold
    refine ⟨_, pool, run, accounted.agrees fun index found at_ => ?_, ⟨artifact, outerTold⟩,
      ⟨failure, nestedTold⟩⟩
    have others : index = 0 ∨ index = 1 := by
      by_contra elsewhere
      rw [not_or] at elsewhere
      rw [calls_follow followed (by simp [elsewhere]), put_calls_of_ne _ _ _ elsewhere.2,
        calls_follow first (by simp [elsewhere]), put_calls_of_ne _ _ _ elsewhere.1] at at_
      cases at_
    rcases others with rfl | rfl
    · obtain rfl := Option.some.inj (at_.symm.trans here)
      rw [place]
      rfl
    · obtain rfl := Option.some.inj (at_.symm.trans there)
      rw [place']
      rfl
  · let failing : Call Unit MemoryContext := loader.call .first unit.name []
    let one := blank.put 0 ⟨failing, .check, 0⟩ s
    have ends : (one.follow (List.replicate 6 0)).any (fun ended =>
        (∀ move ∈ ended.1, move.own) ∧
        (ended.2.calls 0).any fun running => !running.place.pending.isEmpty) = true := by
      decide +kernel
    obtain ⟨⟨trace, pool⟩, followed, facts⟩ := (Option.any_eq_true _ _).mp ends
    obtain ⟨own, facts⟩ := of_decide_eq_true facts
    obtain ⟨running, here, takes⟩ := (Option.any_eq_true _ _).mp facts
    have takes : running.place.pending ≠ [] := by simpa using takes
    have course : Course rules Threaded blank (fun _ => none) trace pool (fun _ => none) :=
      .follow_one (obeys _ _) followed own
    exact ⟨_, pool, running, course, here, takes,
      journal_agrees_with_counters.2.1 unused course 0 running here takes⟩

end Pool

end Reload
