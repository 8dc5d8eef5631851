import Reload.Proofs.Concurrent.Exclusion
import Reload.Proofs.Concurrent.Markers
import Reload.Proofs.Definition.Working

/-!
Threads. A pool lets its definitions go on in any order; here they belong to threads, and a thread does
one thing at a time (`Threaded`). A definition that is inside one of its callbacks leaves its thread to
the callback, which may define again; at all other steps the thread is its own. So a definition that
has found its thread without a marker is the only one of the thread that is in progress until it has
set the marker (`Sequenced`), and the holders of the definition locks are the definitions that are past
them (`Held`).
-/

namespace Reload

variable {ρ κ : Type}

namespace World

theorem holder_acquire (w : World) (lock other : LockId) (thread : ThreadId) :
    ((w.acquire lock thread).lock other).holder =
      if other = lock then some thread else (w.lock other).holder := by
  by_cases same : other = lock
  · simp [acquire, same]
  · simp [acquire, same, replace_of_ne]

theorem holder_unlock (w : World) (lock other : LockId) (panicking : Bool) :
    ((w.unlock lock panicking).lock other).holder =
      if other = lock then none else (w.lock other).holder := by
  by_cases same : other = lock
  · simp [unlock, same]
  · simp [unlock, same, replace_of_ne]

/-- Nobody is defining anything: no thread has a marker, and no lock has a holder. -/
structure Idle (w : World) : Prop where
  unmarked : ∀ thread, w.marker thread = none
  free : ∀ lock, (w.lock lock).holder = none

end World

namespace Place

/-- Whether the next step is one of the definition itself. -/
def own : Place ρ κ → Bool
  | .ended _ => false
  | place => !place.callback

/-- Whether the definition has found its thread without a marker, and has not set it yet. -/
def unset : Place ρ κ → Bool
  | .take | .wait _ | .inside _ .mark => true
  | _ => false

theorem own_of_unset {place : Place ρ κ} (unset : place.unset) : place.own := by
  cases place with
  | check | unlock | drop | ended => cases unset
  | take | wait => rfl
  | inside lock stage => cases stage <;> first | rfl | cases unset

/-- Callbacks run under the marker. -/
theorem marked_of_callback {place : Place ρ κ} (calls : place.callback) : place.marked := by
  cases place with
  | check | take | wait | unlock | drop | ended => cases calls
  | inside lock stage => cases stage <;> first | rfl | cases calls

/-- A definition whose next step is neither its own nor one of a callback has ended. -/
theorem ended_of_idle {place : Place ρ κ} (calls : place.callback = false)
    (idle : place.own = false) : ∃ ending, place = .ended ending := by
  cases place with
  | ended ending => exact ⟨ending, rfl⟩
  | check | take | wait | inside | unlock | drop => simp [own, calls] at idle

end Place

/-! ### What the steps of a definition do to the locks -/

namespace Call

variable (call : Call ρ κ)

theorem held?_atReporting (lock : Option LockId) (ending : Ending) (notes : List Note) :
    (atReporting lock ending notes : Place ρ κ).held? = lock := by
  cases notes with
  | nil => cases lock <;> rfl
  | cons first others => rfl

theorem unset_atReporting (lock : Option LockId) (ending : Ending) (notes : List Note) :
    (atReporting lock ending notes : Place ρ κ).unset = false := by
  cases notes with
  | nil => cases lock <;> rfl
  | cons first others => rfl

/-- A place past the marker, as far as it matters to other threads. -/
private structure Past (lock : Option LockId) (place : Place ρ κ) : Prop where
  held : place.held? = lock
  unset : place.unset = false

private theorem Past.atReporting (lock : Option LockId) (ending : Ending) (notes : List Note) :
    Past lock (atReporting lock ending notes : Place ρ κ) :=
  ⟨held?_atReporting .., unset_atReporting ..⟩

private theorem Past.of_works {places : Option LockId → Place ρ κ} (works : Place.Works places)
    (lock : Option LockId) : Past lock (places lock) := by
  obtain ⟨stage, working, inside⟩ := works
  rw [inside]
  exact ⟨rfl, by cases stage <;> first | rfl | cases working⟩

private theorem Past.atNoting (lock : Option LockId) (notes : List Note) :
    Past lock (call.atNoting lock notes) := by
  cases notes with
  | nil => exact .of_works (call.works_atPacking _) lock
  | cons first others => exact ⟨rfl, rfl⟩

/-- What a step does to definition locks: it takes one that is free, or frees the one that the definition
    holds, or leaves them alone if it is not one of a callback. -/
inductive Locks (call : Call ρ κ) (place next : Place ρ κ) (w w' : World) : Prop where
  | acquire {lock : LockId} (here : place = .wait lock) (goes : next = .inside (some lock) .mark)
      (free : w.isFree lock) (change : w' = w.acquire lock call.thread)
  | unlock {lock : LockId} {ending : Ending} (here : place = .unlock lock ending)
      (goes : next = .drop lock ending) (change : w' = w.unlock lock ending.panicked)
  | aside (held : next.held? = place.held?) (locks : place.callback = false → w'.lock = w.lock)

private theorem past_stage (lock : Option LockId) (stage : Stage ρ κ) (s : System ρ) :
    Past lock ((call.advanceStage lock stage).next s) := by
  cases stage with
  | mark =>
    simp only [advanceStage]
    split
    · exact .atReporting lock _ _
    · exact ⟨rfl, rfl⟩
  | forget => exact .atNoting call lock _
  | note first others => exact .atNoting call lock others
  | pack turn => exact .of_works (call.works_atPacking _) lock
  | instantiate turn => exact .of_works (call.works_atInstantiating _) lock
  | load context turn => exact .of_works (works_atLoading context _) lock
  | publish context artifact => exact ⟨rfl, rfl⟩
  | close context result => exact ⟨rfl, rfl⟩
  | unmark result => exact .atReporting lock _ _
  | report first others ending => exact .atReporting lock ending others

private theorem lock_stage (lock : Option LockId) (stage : Stage ρ κ) (s : System ρ)
    (own : (Place.inside lock stage).callback = false) :
    ((call.advanceStage lock stage).act s).world.lock = s.world.lock := by
  cases stage with
  | mark =>
    simp only [advanceStage, World.mark]
    split <;> rfl
  | forget | publish | unmark => rfl
  | note first others => cases first <;> rfl
  | report first others ending => cases first <;> rfl
  | pack | instantiate | load | close => cases own

theorem locks_advance {place : Place ρ κ} {turn : Turn (System ρ) (Place ρ κ)}
    (advances : call.advance place = some turn) {s : System ρ} (ready : turn.ready s) :
    call.Locks place (turn.next s) s.world (turn.act s).world := by
  cases place with
  | check =>
    cases advances
    refine .aside ?_ fun _ => rfl
    simp only []
    split
    · exact held?_atReporting ..
    · split <;> rfl
  | take => cases advances; exact .aside rfl fun _ => World.lockFor_lock ..
  | wait lock => cases advances; exact .acquire rfl rfl ready rfl
  | inside lock stage =>
    cases advances
    exact .aside (call.past_stage lock stage s).held (call.lock_stage lock stage s)
  | unlock lock ending => cases advances; exact .unlock rfl rfl rfl
  | drop lock ending => cases advances; exact .aside rfl fun _ => rfl
  | ended ending => cases advances

/-- A definition whose marker is not set yet has just found none, or has found none before. Setting it
    changes nothing of that. -/
theorem unset_advance {place : Place ρ κ} {turn : Turn (System ρ) (Place ρ κ)}
    (advances : call.advance place = some turn) {s : System ρ} (unset : (turn.next s).unset) :
    (turn.act s).world.marker = s.world.marker ∧
      (place.unset ∨ place = .check ∧ s.world.marker call.thread = none) := by
  cases place with
  | check =>
    cases advances
    refine ⟨rfl, .inr ⟨rfl, ?_⟩⟩
    cases unmarked : s.world.marker call.thread with
    | none => rfl
    | some running =>
      simp only [unmarked] at unset
      rw [atReport, unset_atReporting] at unset
      cases unset
  | take => cases advances; exact ⟨World.lockFor_marker .., .inl rfl⟩
  | wait lock => cases advances; exact ⟨rfl, .inl rfl⟩
  | inside lock stage =>
    cases advances
    rw [(call.past_stage lock stage s).unset] at unset
    cases unset
  | unlock lock ending => cases advances; cases unset
  | drop lock ending => cases advances; cases unset
  | ended ending => cases advances

/-- A definition waits for nothing at its own steps, unless it waits for a lock. -/
theorem ready_of_own {place : Place ρ κ} {turn : Turn (System ρ) (Place ρ κ)}
    (advances : call.advance place = some turn) (own : place.callback = false)
    (going : ∀ lock, place ≠ .wait lock) (s : System ρ) : turn.ready s := by
  cases place with
  | check | take | unlock | drop => cases advances; rfl
  | wait lock => exact absurd rfl (going lock)
  | inside lock stage =>
    cases advances
    cases stage with
    | pack | instantiate | load | close => cases own
    | mark | forget | note | publish | unmark | report => rfl
  | ended => cases advances

end Call

/-! ### Threads do one thing at a time -/

/-- Whether the step is one of a definition itself, and not one of a callback. -/
def Move.own (move : Move ρ κ) : Bool := !move.running.place.callback

namespace Pool

/-- Nothing happens on the thread. -/
structure Still (pool : Pool ρ κ) (thread : ThreadId) (pool' : Pool ρ κ) : Prop where
  marker : pool'.world.marker thread = pool.world.marker thread
  calls : ∀ index running, running.call.thread = thread →
    (pool'.calls index = some running ↔ pool.calls index = some running)

/-- A step that fits in with the threads of the definitions. -/
structure Threaded (pool : Pool ρ κ) (scopes : Scopes) (move : Option (Move ρ κ)) (pool' : Pool ρ κ)
    (scopes' : Scopes) : Prop where
  disciplined : pool.Disciplined scopes move pool' scopes'
  /-- Only definitions take and free locks, and their callbacks do not. -/
  locks : move.any Move.own = false →
    ∀ lock, (pool'.world.lock lock).holder = (pool.world.lock lock).holder
  /-- Until a definition has taken its own next step, nothing else happens on its thread. -/
  sequential : ∀ index running, pool.calls index = some running → running.place.own →
    (∀ taken, move = some taken → taken.index ≠ index) → pool.Still running.call.thread pool'

variable {rules : Rules ρ κ} {start pool pool' : Pool ρ κ} {scopes scopes' first now : Scopes}
  {move : Option (Move ρ κ)} {trace : List (Move ρ κ)}

theorem Course.disciplined (course : Course rules Threaded start first trace pool now) :
    Course rules Disciplined start first trace pool now :=
  course.map id id Threaded.disciplined

/-- A step is about one definition at most. -/
theorem Step.others (next : Step rules pool move pool') :
    ∃ index, (∀ taken, move = some taken → taken.index = index) ∧
      ∀ other, other ≠ index → pool'.calls other = pool.calls other := by
  cases next with
  | @begin index call unused allowed =>
    exact ⟨index, by simp, fun _ different => put_calls_of_ne _ _ _ different⟩
  | @advance index running turn here advances ready =>
    exact ⟨index, by simp +contextual, fun _ different => put_calls_of_ne _ _ _ different⟩
  | outside allowed => exact ⟨0, by simp, fun _ _ => rfl⟩

/-- What holds of the definitions of one thread. -/
structure Sequenced (pool : Pool ρ κ) : Prop where
  /-- One at most is about to take a step of its own. -/
  one : ∀ {index other running theirs}, pool.calls index = some running →
    pool.calls other = some theirs → running.place.own → theirs.place.own →
    running.call.thread = theirs.call.thread → index = other
  /-- One that has found no marker, and has not set it, is the only one in progress. -/
  alone : ∀ {index running}, pool.calls index = some running → running.place.unset →
    pool.world.marker running.call.thread = none ∧
    ∀ other theirs, pool.calls other = some theirs → theirs.call.thread = running.call.thread →
      other ≠ index → ∃ ending, theirs.place = .ended ending

private theorem one_step (sequenced : pool.Sequenced) (next : Step rules pool move pool')
    (kept : pool.Threaded scopes move pool' scopes') {index other : Nat}
    {running theirs : Running ρ κ} (here : pool'.calls index = some running)
    (there : pool'.calls other = some theirs) (own : running.place.own)
    (own' : theirs.place.own) (thread : running.call.thread = theirs.call.thread) :
    index = other := by
  by_contra different
  obtain ⟨mover, moves, others⟩ := next.others
  -- One of the two was where it is before the step, so the step was not one of the other's.
  by_cases moved : index = mover
  · have apart : other ≠ mover := fun same => different (moved.trans same.symm)
    rw [others other apart] at there
    have still := kept.sequential other theirs there own' fun taken by_ same =>
      apart (same.symm.trans (moves taken by_))
    exact different (sequenced.one ((still.calls index running thread).mp here) there own own' thread)
  · rw [others index moved] at here
    have still := kept.sequential index running here own fun taken by_ same =>
      moved (same.symm.trans (moves taken by_))
    exact different (sequenced.one here ((still.calls other theirs thread.symm).mp there) own own'
      thread)

/-- A definition that stays unset while something else happens stays alone. -/
private theorem alone_still (sequenced : pool.Sequenced) {index : Nat} {running : Running ρ κ}
    (here : pool.calls index = some running) (unset : running.place.unset)
    (still : pool.Still running.call.thread pool') :
    pool'.world.marker running.call.thread = none ∧
    ∀ other theirs, pool'.calls other = some theirs → theirs.call.thread = running.call.thread →
      other ≠ index → ∃ ending, theirs.place = .ended ending := by
  obtain ⟨unmarked, ended⟩ := sequenced.alone here unset
  refine ⟨still.marker.trans unmarked, fun other theirs there thread different => ?_⟩
  exact ended other theirs ((still.calls other theirs thread).mp there) thread different

/-- While a definition is about to take a step of its own, the others of its thread have ended, or are in
    the callbacks that it runs inside. -/
theorem Sequenced.others (sequenced : pool.Sequenced) {index : Nat} {running : Running ρ κ}
    (here : pool.calls index = some running) (own : running.place.own) {other : Nat}
    {theirs : Running ρ κ} (there : pool.calls other = some theirs)
    (thread : theirs.call.thread = running.call.thread) (different : other ≠ index) :
    (∃ ending, theirs.place = .ended ending) ∨ theirs.place.callback := by
  cases calls : theirs.place.callback with
  | true => exact .inr rfl
  | false =>
    refine .inl (Place.ended_of_idle calls ?_)
    by_contra busy
    exact different (sequenced.one there here (by simpa using busy) own thread)

/-- On a thread without a marker, no definition but one that is about to take a step of its own is in
    progress. -/
private theorem ended_of_unmarked (sequenced : pool.Sequenced)
    (matching : Matching pool.world.marker (pool.live scopes)) {index : Nat}
    {running : Running ρ κ} (here : pool.calls index = some running) (own : running.place.own)
    (unmarked : pool.world.marker running.call.thread = none) {other : Nat}
    {theirs : Running ρ κ} (there : pool.calls other = some theirs)
    (thread : theirs.call.thread = running.call.thread) (different : other ≠ index) :
    ∃ ending, theirs.place = .ended ending := by
  refine (sequenced.others here own there thread different).resolve_right fun calls => ?_
  have live : pool.live scopes (.inr other) = some (theirs.call.thread, theirs.call.name) := by
    simp [live, there, Running.scope?, Place.marked_of_callback calls]
  rw [thread] at live
  rw [matching.marker.mpr ⟨_, live⟩] at unmarked
  cases unmarked

private theorem alone_advance (sequenced : pool.Sequenced)
    (matching : Matching pool.world.marker (pool.live scopes)) {index : Nat}
    {running : Running ρ κ} {turn : Turn (System ρ) (Place ρ κ)}
    (here : pool.calls index = some running)
    (advances : running.call.advance running.place = some turn)
    (unset : (turn.next pool.system).unset) :
    (turn.act pool.system).world.marker running.call.thread = none ∧
    ∀ other theirs, pool.calls other = some theirs → theirs.call.thread = running.call.thread →
      other ≠ index → ∃ ending, theirs.place = .ended ending := by
  obtain ⟨marker, before⟩ := running.call.unset_advance advances unset
  rw [marker]
  rcases before with before | ⟨check, unmarked⟩
  · exact sequenced.alone here before
  · have own : running.place.own := by rw [check]; rfl
    exact ⟨unmarked, fun other theirs there thread different =>
      ended_of_unmarked sequenced matching here own unmarked there thread different⟩

theorem Sequenced.step (sequenced : pool.Sequenced)
    (matching : Matching pool.world.marker (pool.live scopes)) (next : Step rules pool move pool')
    (kept : pool.Threaded scopes move pool' scopes') : pool'.Sequenced where
  one := one_step sequenced next kept
  alone {index running} here unset := by
    -- A definition that is not the one that moved was there before.
    have stayed (before : pool.calls index = some running)
        (elsewhere : ∀ taken, move = some taken → taken.index ≠ index) :=
      alone_still sequenced before unset
        (kept.sequential index running before (Place.own_of_unset unset) elsewhere)
    cases next with
    | begin unused allowed =>
      rcases calls_put here with ⟨-, rfl⟩ | ⟨-, before⟩
      · cases unset
      · exact stayed before (by simp)
    | outside allowed => exact stayed here (by simp)
    | @advance mover moved turn there advances ready =>
      rcases calls_put here with ⟨rfl, rfl⟩ | ⟨different, before⟩
      · obtain ⟨unmarked, ended⟩ := alone_advance sequenced matching there advances unset
        refine ⟨unmarked, fun other theirs found thread apart => ended other theirs ?_ thread apart⟩
        exact (put_calls_of_ne _ _ _ apart).symm.trans found
      · exact stayed before (by simpa using different.symm)

/-! ### Who holds the locks -/

/-- The holders of locks are the definitions that are past them. -/
structure Held (pool : Pool ρ κ) : Prop where
  holder : ∀ {lock index running}, pool.calls index = some running →
    running.place.held? = some lock →
    (pool.world.lock lock).holder = some running.call.thread
  holds : ∀ {lock thread}, (pool.world.lock lock).holder = some thread →
    ∃ index, pool.Holds lock index
  alone : ∀ {lock index other}, pool.Holds lock index → pool.Holds lock other → index = other

/-- A step that leaves the holders as they are, and the locks of each definition. -/
private theorem Held.transfer (held : pool.Held)
    (holders : ∀ lock, (pool'.world.lock lock).holder = (pool.world.lock lock).holder)
    (back : ∀ index running, pool'.calls index = some running → running.place.held?.isSome →
      ∃ before, pool.calls index = some before ∧ before.call.thread = running.call.thread ∧
        before.place.held? = running.place.held?)
    (forth : ∀ lock index, pool.Holds lock index → pool'.Holds lock index) : pool'.Held := by
  have holds_back {lock : LockId} {index : Nat} (holds : pool'.Holds lock index) :
      pool.Holds lock index := by
    obtain ⟨running, here, has⟩ := holds
    obtain ⟨before, there, -, same⟩ := back index running here (by rw [has]; rfl)
    exact ⟨before, there, same.trans has⟩
  refine ⟨fun {lock index running} here has => ?_, fun {lock thread} taken => ?_,
    fun mine theirs => held.alone (holds_back mine) (holds_back theirs)⟩
  · obtain ⟨before, there, thread, same⟩ := back index running here (by rw [has]; rfl)
    rw [holders, held.holder there (same.trans has), thread]
  · rw [holders] at taken
    obtain ⟨index, holds⟩ := held.holds taken
    exact ⟨index, forth lock index holds⟩

theorem holds_put_of_ne {index other : Nat} {running : Running ρ κ} {system : System ρ}
    {lock : LockId} (holds : pool.Holds lock other) (different : other ≠ index) :
    (pool.put index running system).Holds lock other := by
  obtain ⟨theirs, there, has⟩ := holds
  exact ⟨theirs, (put_calls_of_ne _ _ _ different).trans there, has⟩

/-- A definition goes on and keeps its lock, if it has one. -/
private theorem held_aside (held : pool.Held) {index : Nat} {running : Running ρ κ}
    {place : Place ρ κ} {system : System ρ} (here : pool.calls index = some running)
    (same : place.held? = running.place.held?)
    (holders : ∀ lock, (system.world.lock lock).holder = (pool.world.lock lock).holder) :
    (pool.put index { running with place } system).Held := by
  refine held.transfer holders (fun other found there _ => ?_) fun lock other holds => ?_
  · rcases calls_put there with ⟨rfl, rfl⟩ | ⟨-, before⟩
    · exact ⟨running, here, rfl, same.symm⟩
    · exact ⟨found, before, rfl, rfl⟩
  · by_cases moved : other = index
    · subst moved
      obtain ⟨mine, there, has⟩ := holds
      obtain rfl := Option.some.inj (there.symm.trans here)
      exact ⟨_, put_calls_self .., same.trans has⟩
    · exact holds_put_of_ne holds moved

/-- Nobody holds a free lock, so whoever takes it holds it alone. -/
private theorem held_acquire (held : pool.Held) {index : Nat} {running : Running ρ κ}
    {lock : LockId} {system : System ρ} (here : pool.calls index = some running)
    (waits : running.place = .wait lock) (free : pool.world.isFree lock)
    (change : system.world = pool.world.acquire lock running.call.thread) :
    (pool.put index { running with place := .inside (some lock) .mark } system).Held := by
  have unheld (other : Nat) : ¬pool.Holds lock other := by
    rintro ⟨theirs, there, has⟩
    rw [World.isFree, held.holder there has] at free
    cases free
  have taken : (system.world.lock lock).holder = some running.call.thread := by
    rw [change, World.holder_acquire, if_pos rfl]
  have others {other : LockId} (different : other ≠ lock) :
      (system.world.lock other).holder = (pool.world.lock other).holder := by
    rw [change, World.holder_acquire, if_neg different]
  refine ⟨fun {other index' found} there has => ?_, fun {other thread} busy => ?_,
    fun {other first second} mine theirs => ?_⟩
  · rcases calls_put there with ⟨rfl, rfl⟩ | ⟨-, before⟩
    · obtain rfl := Option.some.inj has
      exact taken
    · have different : other ≠ lock := by
        rintro rfl
        exact unheld index' ⟨found, before, has⟩
      exact (others different).trans (held.holder before has)
  · by_cases same : other = lock
    · subst same
      exact ⟨index, _, put_calls_self .., rfl⟩
    · obtain ⟨holder, holds⟩ := held.holds ((others same).symm.trans busy)
      refine ⟨holder, holds_put_of_ne holds ?_⟩
      rintro rfl
      obtain ⟨mine, there, has⟩ := holds
      obtain rfl := Option.some.inj (there.symm.trans here)
      rw [waits] at has
      cases has
  · rcases holds_put mine with ⟨rfl, has⟩ | ⟨-, before⟩ <;>
      rcases holds_put theirs with ⟨rfl, has'⟩ | ⟨-, before'⟩
    · rfl
    · exact absurd (Option.some.inj has ▸ before') (unheld second)
    · exact absurd (Option.some.inj has' ▸ before) (unheld first)
    · exact held.alone before before'

private theorem held_unlock (held : pool.Held) {index : Nat} {running : Running ρ κ}
    {lock : LockId} {ending : Ending} {system : System ρ}
    (here : pool.calls index = some running) (unlocks : running.place = .unlock lock ending)
    (change : system.world = pool.world.unlock lock ending.panicked) :
    (pool.put index { running with place := .drop lock ending } system).Held := by
  have own : pool.Holds lock index := ⟨running, here, by rw [unlocks]; rfl⟩
  have freed : (system.world.lock lock).holder = none := by
    rw [change, World.holder_unlock, if_pos rfl]
  have others {other : LockId} (different : other ≠ lock) :
      (system.world.lock other).holder = (pool.world.lock other).holder := by
    rw [change, World.holder_unlock, if_neg different]
  have before {other : LockId} {found : Nat}
      (holds : (pool.put index { running with place := .drop lock ending } system).Holds other
        found) : found ≠ index ∧ pool.Holds other found := by
    rcases holds_put holds with ⟨-, has⟩ | before
    · cases has
    · exact before
  refine ⟨fun {other found theirs} there has => ?_, fun {other thread} busy => ?_,
    fun mine theirs => held.alone (before mine).2 (before theirs).2⟩
  · obtain ⟨different, holds⟩ := before ⟨theirs, there, has⟩
    have elsewhere : other ≠ lock := by
      rintro rfl
      exact different (held.alone holds own)
    rw [put_calls_of_ne _ _ _ different] at there
    exact (others elsewhere).trans (held.holder there has)
  · have elsewhere : other ≠ lock := by
      rintro rfl
      rw [world, put, freed] at busy
      cases busy
    obtain ⟨holder, holds⟩ := held.holds ((others elsewhere).symm.trans busy)
    refine ⟨holder, holds_put_of_ne holds ?_⟩
    rintro rfl
    obtain ⟨mine, there, has⟩ := holds
    obtain rfl := Option.some.inj (there.symm.trans here)
    rw [unlocks] at has
    exact elsewhere (Option.some.inj has).symm

theorem Held.step (held : pool.Held) (next : Step rules pool move pool')
    (kept : move.any Move.own = false →
      ∀ lock, (pool'.world.lock lock).holder = (pool.world.lock lock).holder) : pool'.Held := by
  cases next with
  | @begin index call unused allowed =>
    refine held.transfer (fun _ => rfl) (fun other found there has => ?_) fun lock other holds => ?_
    · rcases calls_put there with ⟨-, rfl⟩ | ⟨-, before⟩
      · cases has
      · exact ⟨found, before, rfl, rfl⟩
    · refine holds_put_of_ne holds ?_
      rintro rfl
      obtain ⟨_, there, -⟩ := holds
      rw [unused] at there
      cases there
  | outside allowed =>
    exact held.transfer (kept rfl) (fun _ running here _ => ⟨running, here, rfl, rfl⟩)
      fun _ _ holds => holds
  | @advance index running turn here advances ready =>
    cases running.call.locks_advance advances ready with
    | acquire waits goes free change =>
      rw [goes]
      exact held_acquire held here waits free change
    | unlock unlocks goes change =>
      rw [goes]
      exact held_unlock held here unlocks change
    | aside same locks =>
      refine held_aside held here same fun lock => ?_
      cases calls : running.place.callback with
      | true => exact kept (by simp [Move.own, calls]) lock
      | false => rw [locks calls]; rfl

/-! ### Courses -/

theorem Course.sequenced {start : System ρ} (unmarked : ∀ thread, start.world.marker thread = none)
    (course : Course rules Threaded ⟨start, fun _ => none⟩ (fun _ => none) trace pool scopes) :
    pool.Sequenced := by
  induction course with
  | start => exact ⟨by simp, by simp⟩
  | step before next kept ih => exact ih.step (before.disciplined.matching unmarked) next kept

theorem held_empty {start : System ρ} (free : ∀ lock, (start.world.lock lock).holder = none) :
    (⟨start, fun _ => none⟩ : Pool ρ κ).Held := by
  refine ⟨by simp, fun {lock thread} busy => ?_, ?_⟩
  · rw [world, free] at busy
    cases busy
  · rintro lock index other ⟨_, here, -⟩
    cases here

theorem Course.held {start : System ρ} (free : ∀ lock, (start.world.lock lock).holder = none)
    (course : Course rules Threaded ⟨start, fun _ => none⟩ (fun _ => none) trace pool scopes) :
    pool.Held := by
  induction course with
  | start => exact held_empty free
  | step _ next kept ih => exact ih.step next kept.locks

/-! ### Threads that define one unit each -/

/-- No two definitions are on one thread. -/
def Solo (pool : Pool ρ κ) : Prop :=
  ∀ index other running theirs, pool.calls index = some running →
    pool.calls other = some theirs → running.call.thread = theirs.call.thread → index = other

theorem Solo.put (solo : pool.Solo) {index : Nat} {running : Running ρ κ}
    (fresh : ∀ other theirs, pool.calls other = some theirs →
      theirs.call.thread = running.call.thread → other = index) (system : System ρ) :
    (pool.put index running system).Solo := by
  intro first second mine theirs here there thread
  rcases calls_put here with ⟨rfl, rfl⟩ | ⟨-, before⟩ <;>
    rcases calls_put there with ⟨rfl, rfl⟩ | ⟨-, before'⟩
  · rfl
  · exact (fresh second theirs before' thread.symm).symm
  · exact fresh first mine before thread
  · exact solo first second mine theirs before before' thread

/-- A thread without definitions may begin one. -/
theorem Course.begin_solo (before : Course rules Threaded start first trace pool now)
    (index : Nat) (call : Call ρ κ) (unused : pool.calls index = none)
    (allowed : rules.begins call pool.world)
    (fresh : ∀ other theirs, pool.calls other = some theirs →
      theirs.call.thread ≠ call.thread) :
    Course rules Threaded start first trace
      (pool.put index ⟨call, .check, pool.world.created⟩ pool.system) now := by
  refine before.begin index call unused allowed ⟨.aside rfl, fun _ _ => rfl, ?_⟩
  refine fun other theirs there _ _ => ⟨rfl, fun found running thread => ?_⟩
  by_cases same : found = index
  · subst same
    rw [put_calls_self, unused]
    refine iff_of_false ?_ nofun
    rintro ⟨⟩
    exact fresh other theirs there thread.symm
  · rw [put_calls_of_ne _ _ _ same]

/-- The pool after a definition has taken a turn. -/
abbrev after (pool : Pool ρ κ) (index : Nat) (running : Running ρ κ)
    (turn : Turn (System ρ) (Place ρ κ)) : Pool ρ κ :=
  pool.put index { running with place := turn.next pool.system } (turn.act pool.system)

/-- The move of a definition that takes a turn. -/
abbrev taking (pool : Pool ρ κ) (index : Nat) (running : Running ρ κ)
    (turn : Turn (System ρ) (Place ρ κ)) : Move ρ κ :=
  ⟨index, running, pool.world, (turn.act pool.system).world⟩

/-- A step of a definition itself fits in, if no other one on its thread is about to take such a step. -/
theorem Threaded.advance {index : Nat} {running : Running ρ κ} {turn : Turn (System ρ) (Place ρ κ)}
    (here : pool.calls index = some running)
    (advances : running.call.advance running.place = some turn)
    (calls : running.place.callback = false)
    (alone : ∀ other theirs, pool.calls other = some theirs → theirs.place.own → other ≠ index →
      theirs.call.thread ≠ running.call.thread) :
    pool.Threaded scopes (some (pool.taking index running turn)) (pool.after index running turn)
      scopes := by
  refine ⟨by simp [Disciplined, calls], fun idle => by simp [Move.own, calls] at idle, ?_⟩
  intro other theirs there own elsewhere
  have different : other ≠ index := fun same => elsewhere _ rfl same.symm
  have thread := alone other theirs there own different
  refine ⟨?_, fun found mine same => ?_⟩
  · cases running.call.marks_advance advances pool.system with
    | callback calls' => simp [calls] at calls'
    | enter _ _ _ _ marker => exact (congrFun marker _).trans (replace_of_ne _ _ thread)
    | leave _ _ _ marker => exact (congrFun marker _).trans (replace_of_ne _ _ thread)
    | aside _ _ marker => exact congrFun marker _
  · by_cases moved : found = index
    · subst moved
      rw [put_calls_self, here]
      refine iff_of_false ?_ ?_ <;>
        · rintro ⟨⟩
          exact thread same.symm
    · rw [put_calls_of_ne _ _ _ moved]

/-- Definitions on threads of their own, one own step after the other. -/
theorem Course.follow_solo {schedule : List Nat} {moves : List (Move ρ κ)}
    (before : Course rules Threaded start first trace pool now) (solo : pool.Solo)
    (followed : pool.follow schedule = some (moves, pool')) (own : ∀ taken ∈ moves, taken.own) :
    Course rules Threaded start first (moves ++ trace) pool' now := by
  induction schedule generalizing trace moves pool with
  | nil =>
    cases followed
    exact before
  | cons index later ih =>
    obtain ⟨⟨taken, next⟩, advanced, followed⟩ := Option.bind_eq_some_iff.mp followed
    obtain ⟨⟨moves, last⟩, rest, ended⟩ := Option.map_eq_some_iff.mp followed
    cases ended
    obtain ⟨running, turn, here, advances, -, rfl, rfl⟩ := cases_advanced advanced
    have calls : running.place.callback = false := by
      simpa [Move.own] using own _ (List.mem_append_right moves (List.mem_singleton_self _))
    have step := before.advance index advanced (.advance here advances calls
      fun other theirs there _ different thread =>
        different (solo other index theirs running there here thread))
    rw [List.append_assoc]
    refine ih step (solo.put (fun other theirs there thread => ?_) _) rest fun other listed =>
      own other (List.mem_append_left _ listed)
    exact solo other index theirs running there here thread

/-- A definition on its own, one own step after the other. -/
theorem Course.follow_one {start : System ρ} {call : Call ρ κ} (allowed : rules.begins call start.world)
    {schedule : List Nat} {moves : List (Move ρ κ)}
    (followed : (put ⟨start, fun _ => none⟩ 0 ⟨call, .check, start.world.created⟩ start).follow
      schedule = some (moves, pool)) (own : ∀ taken ∈ moves, taken.own) :
    Course rules Threaded ⟨start, fun _ => none⟩ (fun _ => none) moves pool fun _ => none := by
  have solo : (put ⟨start, fun _ => none⟩ 0 ⟨call, .check, start.world.created⟩ start).Solo :=
    Solo.put (by simp [Solo]) (by simp) _
  have begun : Course rules Threaded ⟨start, fun _ => none⟩ (fun _ => none) []
      (put ⟨start, fun _ => none⟩ 0 ⟨call, .check, start.world.created⟩ start) fun _ => none :=
    Course.start.begin_solo 0 call rfl allowed (by simp)
  rw [← List.append_nil moves]
  exact begun.follow_solo solo followed own

end Pool

end Reload
