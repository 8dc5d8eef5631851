import Reload.Proofs.Concurrent.Contention

/-!
The settings of a loader cannot be seen where definitions do not contend. Of its settings a loader reads
only whether to serialize, and then a definition takes a lock before it sets its marker, and frees it
after its report. Apart from that it takes the same steps (`Call.Lockless.stage`), and it never waits for
the lock unless another thread is defining the same name (`isFree_of_uncontended`). So a pool mirrors any
other with the same definitions under other settings, and nothing that can be seen tells them apart
(`settings_invisible`).
-/

namespace Reload

variable {ρ κ : Type}

/-! ### What can be seen -/

/-- A place as far as it can be seen. A definition that is about to take its lock is about to set its
    marker, and one that has yet to free it has ended. -/
def Place.erased : Place ρ κ → Place ρ κ
  | .check => .check
  | .take | .wait _ => .inside none .mark
  | .inside _ stage => .inside none stage
  | .unlock _ ending | .drop _ ending | .ended ending => .ended ending

/-- Whether the definition is neither about to take a lock nor about to free one. -/
def Place.steady : Place ρ κ → Bool
  | .check | .inside .. | .ended _ => true
  | .take | .wait _ | .unlock .. | .drop .. => false

namespace Place

variable {place theirs : Place ρ κ}

@[simp] theorem callback_erased (place : Place ρ κ) : place.erased.callback = place.callback := by
  cases place with
  | check | take | wait | unlock | drop | ended => rfl
  | inside lock stage => cases stage <;> rfl

theorem eq_check_of_erased (same : theirs.erased = check.erased) : theirs = .check := by
  cases theirs with
  | check => rfl
  | take | wait | inside | unlock | drop | ended => cases same

theorem eq_inside_of_erased {lock : Option LockId} {stage : Stage ρ κ}
    (same : theirs.erased = (inside lock stage).erased) (steady : theirs.steady) :
    ∃ lock', theirs = .inside lock' stage := by
  cases theirs with
  | inside lock' stage' => cases same; exact ⟨lock', rfl⟩
  | take | wait => cases steady
  | check | unlock | drop | ended => cases same

/-- A definition that looks as if it had ended has ended, unless it has a lock to free. -/
theorem busy_of_erased (same : theirs.erased = place.erased) (steady : theirs.steady)
    (busy : theirs.busy) : place.busy := by
  cases place with
  | check | take | wait | inside | unlock | drop => rfl
  | ended =>
    cases theirs with
    | ended => cases busy
    | unlock | drop => cases steady
    | check | take | wait | inside => cases same

theorem own_of_erased (same : theirs.erased = place.erased) (steady : theirs.steady)
    (own : theirs.own) : place.own := by
  have calls : theirs.callback = false := by
    cases theirs with
    | inside lock stage => simpa [Place.own] using own
    | check | take | wait | unlock | drop | ended => rfl
  refine own_of_busy (busy_of_erased same steady ?_) ?_
  · cases theirs with
    | ended => cases own
    | check | take | wait | inside | unlock | drop => rfl
  · rw [← callback_erased, ← same, callback_erased, calls]

end Place

def Running.erased (running : Running ρ κ) : Running ρ κ :=
  ⟨running.call.configured {}, running.place.erased, running.since⟩

namespace Pool

/-- What can be seen of a pool: the state without its locks, and the definitions without their locks and
    the settings of their loaders. -/
def erased (pool : Pool ρ κ) : Pool ρ κ :=
  ⟨pool.system.under {}, fun index => (pool.calls index).map Running.erased⟩

variable {pool : Pool ρ κ} {index : Nat} {running : Running ρ κ} {system : System ρ}

theorem erased_put (pool : Pool ρ κ) (index : Nat) (running : Running ρ κ) (system : System ρ) :
    (pool.put index running system).erased =
      pool.erased.put index running.erased (system.under {}) := by
  have calls : (fun other => (replace pool.calls index (some running) other).map Running.erased) =
      replace (fun other => (pool.calls other).map Running.erased) index (some running.erased) := by
    funext other
    by_cases same : other = index
    · rw [same, replace_self, replace_self, Option.map_some]
    · rw [replace_of_ne _ _ same, replace_of_ne _ _ same]
  simp only [erased, put, calls]

/-- A step that is only about locks cannot be seen. -/
theorem erased_put_of_eq (here : pool.calls index = some running) {place : Place ρ κ}
    (same : place.erased = running.place.erased) (locks : system.under {} = pool.system.under {}) :
    (pool.put index { running with place } system).erased = pool.erased := by
  have seen : pool.erased.calls index = some running.erased :=
    congrArg (Option.map Running.erased) here
  have unchanged : ({ running with place } : Running ρ κ).erased = running.erased := by
    rw [Running.erased, same]
    rfl
  rw [erased_put, locks, unchanged]
  exact put_here seen

/-- All that could be seen of a run so far, the latest first, with something else seen now. -/
noncomputable def seen (history : List (Pool ρ κ)) (now : Pool ρ κ) : List (Pool ρ κ) :=
  open Classical in if history.head? = some now then history else now :: history

theorem seen_of_head {history : List (Pool ρ κ)} {now : Pool ρ κ}
    (head : history.head? = some now) : seen history now = history := if_pos head

@[simp] theorem head_seen (history : List (Pool ρ κ)) (now : Pool ρ κ) :
    (seen history now).head? = some now := by
  unfold seen
  split
  · assumption
  · rfl

end Pool

/-! ### Orderly steps -/

namespace Pool

variable {rules : Rules ρ κ} {pool pool' : Pool ρ κ} {now now' : Scopes × List (Pool ρ κ)}
  {move : Option (Move ρ κ)} {index : Nat} {running : Running ρ κ} {start : System ρ}

/-- A step of threads that do not contend, with an account of the scopes that were begun by hand and of
    all that could be seen. -/
structure Orderly (pool : Pool ρ κ) (now : Scopes × List (Pool ρ κ)) (move : Option (Move ρ κ))
    (pool' : Pool ρ κ) (now' : Scopes × List (Pool ρ κ)) : Prop where
  threaded : pool.Threaded now.1 move pool' now'.1
  uncontended : pool'.Uncontended
  history : now'.2 = seen now.2 pool'.erased

/-- Orderly steps lead to the pool, from a state without definitions and without scopes. -/
def Arrives (rules : Rules ρ κ) (start : System ρ) (pool : Pool ρ κ)
    (now : Scopes × List (Pool ρ κ)) : Prop :=
  ∃ trace, Course rules Orderly ⟨start, fun _ => none⟩
    (fun _ => none, [erased ⟨start, fun _ => none⟩]) trace pool now

namespace Arrives

theorem step (arrives : Arrives rules start pool now) (next : Step rules pool move pool')
    (kept : pool.Orderly now move pool' now') : Arrives rules start pool' now' := by
  obtain ⟨trace, course⟩ := arrives
  exact ⟨_, course.step next kept⟩

theorem run (arrives : Arrives rules start pool now) : ∃ trace, Run rules start trace pool := by
  obtain ⟨trace, course⟩ := arrives
  exact ⟨_, course.run .start⟩

theorem sequenced (arrives : Arrives rules start pool now)
    (unmarked : ∀ thread, start.world.marker thread = none) : pool.Sequenced := by
  obtain ⟨trace, course⟩ := arrives
  have threads : Course rules Threaded ⟨start, fun _ => none⟩ (fun _ => none) trace pool now.1 :=
    course.map Prod.fst id Orderly.threaded
  exact threads.sequenced unmarked

theorem uncontended (arrives : Arrives rules start pool now) : pool.Uncontended := by
  obtain ⟨trace, course⟩ := arrives
  cases course with
  | start => exact fun _ _ _ _ here => by cases here
  | step _ _ kept => exact kept.uncontended

/-- The latest entry of the history is what can be seen of the pool. -/
theorem head (arrives : Arrives rules start pool now) : now.2.head? = some pool.erased := by
  obtain ⟨trace, course⟩ := arrives
  cases course with
  | start => rfl
  | step _ _ kept => rw [kept.history, head_seen]

/-- A step of a definition itself fits in with the threads. -/
theorem threaded_own (arrives : Arrives rules start pool now)
    (unmarked : ∀ thread, start.world.marker thread = none)
    (here : pool.calls index = some running) {turn : Turn (System ρ) (Place ρ κ)}
    (advances : running.call.advance running.place = some turn)
    (calls : running.place.callback = false) :
    pool.Threaded now.1 (some (pool.taking index running turn)) (pool.after index running turn)
      now.1 := by
  refine .advance here advances calls fun other theirs there own different thread => ?_
  exact different ((arrives.sequenced unmarked).one there here own
    (Place.own_of_busy (Place.busy_of_advance advances) calls) thread)

/-- A step of a definition itself that cannot be seen. -/
theorem unseen (arrives : Arrives rules start pool now)
    (unmarked : ∀ thread, start.world.marker thread = none)
    (here : pool.calls index = some running) {turn : Turn (System ρ) (Place ρ κ)}
    (advances : running.call.advance running.place = some turn) (ready : turn.ready pool.system)
    (calls : running.place.callback = false)
    (same : (turn.next pool.system).erased = running.place.erased)
    (locks : (turn.act pool.system).under {} = pool.system.under {}) :
    Arrives rules start (pool.after index running turn) now := by
  refine arrives.step (.advance here advances ready)
    ⟨arrives.threaded_own unmarked here advances calls,
      arrives.uncontended.put here (Place.busy_of_advance advances) _ _, ?_⟩
  rw [erased_put_of_eq here same locks, seen_of_head arrives.head]

/-- A definition that does not contend takes its lock at once. -/
theorem enter (arrives : Arrives rules.lockless start pool now) (idle : start.world.Idle)
    (keyed : start.world.lockState.Keyed) (here : pool.calls index = some running)
    (takes : running.place = .take) :
    ∃ lock system, Arrives rules.lockless start
      (pool.put index { running with place := .inside (some lock) .mark } system) now := by
  obtain ⟨call, place, since⟩ := running
  obtain rfl : place = .take := takes
  have waiting := arrives.unseen idle.unmarked here rfl rfl rfl rfl
    (congrArg (fun world => { pool.system with world }) (World.under_lockFor ..))
  have there := put_calls_self pool index
    ⟨call, .wait (pool.world.lockFor call.loader.cache.locks call.name).1, since⟩
    ⟨(pool.world.lockFor call.loader.cache.locks call.name).2, pool.system.client⟩
  obtain ⟨trace, run⟩ := waiting.run
  have free := isFree_of_uncontended (run.locked rules.keepLocks_lockless)
    (run.lockless idle.free keyed) (waiting.sequenced idle.unmarked) waiting.uncontended there rfl
  have entered := waiting.unseen idle.unmarked there rfl free rfl rfl rfl
  rw [after, after, put_put] at entered
  exact ⟨_, _, entered⟩

/-- A definition that is about to leave leaves. -/
theorem leave (arrives : Arrives rules start pool now)
    (unmarked : ∀ thread, start.world.marker thread = none)
    (here : pool.calls index = some running) {ending : Ending} {lock : Option LockId}
    (leaves : running.place = Call.atLeaving ending lock) :
    ∃ system, Arrives rules start (pool.put index { running with place := .ended ending } system)
      now := by
  obtain ⟨call, place, since⟩ := running
  obtain rfl : place = Call.atLeaving ending lock := leaves
  cases lock with
  | none =>
    have unchanged : pool.put index ⟨call, .ended ending, since⟩ pool.system = pool := put_here here
    exact ⟨pool.system, unchanged.symm ▸ arrives⟩
  | some lock =>
    have unlocked := arrives.unseen unmarked here rfl rfl rfl rfl rfl
    have dropped := unlocked.unseen unmarked (put_calls_self ..) rfl rfl rfl rfl rfl
    rw [after, after, put_put] at dropped
    exact ⟨_, dropped⟩

theorem of_lockless (arrives : Arrives rules.lockless start pool now) :
    Arrives rules start pool now := by
  obtain ⟨trace, course⟩ := arrives
  refine ⟨trace, course.map id (fun next => ?_) id⟩
  cases next with
  | begin unused allowed => exact .begin unused allowed.1
  | advance here advances ready => exact .advance here advances ready
  | outside allowed => exact .outside allowed.1

end Arrives

/-! ### Pools that differ in locks and settings -/

variable {mirror mirror' : Pool ρ κ} {scopes scopes' : Scopes} {settings : Nat → Settings}

theorem erased_calls (same : mirror.erased = pool.erased) (index : Nat) :
    (mirror.calls index).map Running.erased = (pool.calls index).map Running.erased :=
  congrFun (congrArg Pool.calls same) index

theorem system_of_erased (same : mirror.erased = pool.erased) :
    mirror.system = pool.system.under mirror.world.lockState :=
  congrArg (fun system => system.under mirror.world.lockState) (congrArg Pool.system same)

theorem marker_of_erased (same : mirror.erased = pool.erased) :
    mirror.world.marker = pool.world.marker :=
  congrArg (fun pool => pool.system.world.marker) same

/-- A definition of a pool that looks the same is the same one with some settings, at a place that looks
    the same. -/
theorem twin (same : mirror.erased = pool.erased) (here : pool.calls index = some running) :
    ∃ settings place, mirror.calls index =
      some ⟨running.call.configured settings, place, running.since⟩ ∧
      place.erased = running.place.erased := by
  have calls := erased_calls same index
  rw [here] at calls
  obtain ⟨⟨call, place, since⟩, there, erased⟩ := Option.map_eq_some_iff.mp calls
  obtain ⟨calls, places, begun⟩ := Running.mk.inj erased
  have twinned : call = running.call.configured call.loader.settings :=
    (congrArg (Call.configured call.loader.settings) calls :)
  refine ⟨call.loader.settings, place, there.trans ?_, places⟩
  rw [← twinned, show since = running.since from begun]

/-- The other pool has the same definitions with these settings, and none that is about to take a lock or
    to free one. -/
structure Mirrors (settings : Nat → Settings) (pool mirror : Pool ρ κ) : Prop where
  erased : mirror.erased = pool.erased
  steady : ∀ index running, mirror.calls index = some running → running.place.steady
  configured : ∀ index running, mirror.calls index = some running →
    running.call.loader.settings = settings index

namespace Mirrors

/-- A definition with its settings begins, or goes on. -/
theorem put (mirrors : Mirrors settings pool mirror) {theirs : Running ρ κ} {system : System ρ}
    (same : (mirror.put index theirs system).erased = pool'.erased) (steady : theirs.place.steady)
    (configured : theirs.call.loader.settings = settings index) :
    Mirrors settings pool' (mirror.put index theirs system) := by
  refine ⟨same, fun other found here => ?_, fun other found here => ?_⟩
  · rcases calls_put here with ⟨-, rfl⟩ | ⟨-, before⟩
    · exact steady
    · exact mirrors.steady other found before
  · rcases calls_put here with ⟨rfl, rfl⟩ | ⟨-, before⟩
    · exact configured
    · exact mirrors.configured other found before

theorem uncontended (mirrors : Mirrors settings pool mirror) (uncontended : pool.Uncontended) :
    mirror.Uncontended := by
  intro one other running theirs here there busy busy' cache name
  obtain ⟨_, _, mine, same⟩ := twin mirrors.erased.symm here
  obtain ⟨_, _, another, same'⟩ := twin mirrors.erased.symm there
  have alike := uncontended one other _ _ mine another
    (Place.busy_of_erased same.symm (mirrors.steady one running here) busy)
    (Place.busy_of_erased same'.symm (mirrors.steady other theirs there) busy')
  exact alike cache name

end Mirrors

/-- What happens on no thread of a pool happens on none of one that looks the same. -/
private theorem Still.of_erased (before : mirror.erased = pool.erased)
    (after : mirror'.erased = pool'.erased)
    (moved : ∀ index, pool'.calls index = pool.calls index →
      mirror'.calls index = mirror.calls index)
    {thread : ThreadId} (still : pool.Still thread pool') : mirror.Still thread mirror' := by
  refine ⟨?_, fun index running same => ⟨fun here => ?_, fun here => ?_⟩⟩
  · rw [marker_of_erased after, marker_of_erased before, still.marker]
  · obtain ⟨_, _, twinned, -⟩ := twin after.symm here
    have stayed := (still.calls index _ (by exact same)).mp twinned
    rw [← moved index (twinned.trans stayed.symm)]
    exact here
  · obtain ⟨_, _, twinned, -⟩ := twin before.symm here
    have stayed := (still.calls index _ (by exact same)).mpr twinned
    rw [moved index (stayed.trans twinned.symm)]
    exact here

/-- A step that is none of a definition itself fits in with the threads of a pool that looks the same. -/
private theorem Mirrors.threaded (mirrors : Mirrors settings pool mirror)
    (threaded : pool.Threaded scopes move pool' scopes') (move' : Option (Move ρ κ))
    (same : move'.map Move.index = move.map Move.index) (idle : move.any Move.own = false)
    (idle' : move'.any Move.own = false) (after : mirror'.erased = pool'.erased)
    (moved : ∀ index, pool'.calls index = pool.calls index →
      mirror'.calls index = mirror.calls index)
    (locks : mirror'.world.lockState = mirror.world.lockState) :
    mirror.Threaded scopes move' mirror' scopes' := by
  refine ⟨?_, fun _ lock => congrArg (fun locks => (locks.lock lock).holder) locks,
    fun index running here own elsewhere => ?_⟩
  · have change : scopes.Change pool.world pool'.world scopes' :=
      Eq.mp (if_neg (ne_true_of_eq_false idle)) threaded.disciplined
    exact Eq.mpr (if_neg (ne_true_of_eq_false idle'))
      (change.of_marker (marker_of_erased mirrors.erased) (marker_of_erased after))
  · obtain ⟨_, _, twinned, looks⟩ := twin mirrors.erased.symm here
    have still := threaded.sequential index _ twinned
      (Place.own_of_erased looks.symm (mirrors.steady index running here) own) ?_
    · exact Still.of_erased mirrors.erased after moved still
    · rintro taken rfl
      obtain ⟨taken', moves, index'⟩ := Option.map_eq_some_iff.mp same
      rw [← index']
      exact elsewhere taken' moves

end Pool

/-! ### Turns that are mirrored -/

namespace Place.Beside

variable {lock lock' : Option LockId} {place theirs : Place ρ κ}

theorem erased (beside : place.Beside lock lock' theirs) : theirs.erased = place.erased := by
  cases beside with
  | inside stage => rfl
  | leaving ending => cases lock <;> cases lock' <;> rfl

theorem steady_or_leaving (beside : place.Beside lock lock' theirs) :
    theirs.steady ∨ ∃ ending, theirs = Call.atLeaving ending lock' := by
  cases beside with
  | inside stage => exact .inl rfl
  | leaving ending => exact .inr ⟨ending, rfl⟩

theorem eq_inside {stage : Stage ρ κ}
    (beside : (Place.inside lock stage).Beside lock lock' theirs) :
    theirs = .inside lock' stage := by
  generalize same : Place.inside lock stage = place at beside
  cases beside with
  | inside stage' => cases same; rfl
  | leaving ending => cases lock <;> cases same

end Place.Beside

namespace Call

variable {call : Call ρ κ} {settings : Settings}

/-- The turn that a mirror takes for one that can be seen. -/
private structure Mirrored (place place' : Place ρ κ) (turn turn' : Turn (System ρ) (Place ρ κ))
    (s s' : System ρ) : Prop where
  ready : turn.ready s → turn'.ready s'
  act : turn'.act s' = (turn.act s).under s'.world.lockState
  erased : (turn'.next s').erased = (turn.next s).erased
  goes : (turn'.next s').steady ∨ turn'.next s' = .take ∨
    ∃ ending lock, turn'.next s' = atLeaving ending lock
  stays : place'.callback → turn.next s = place → turn'.next s' = place'
  locks : place'.callback → (turn'.act s').world.lockState = s'.world.lockState

/-- A definition that finds no marker is about to set its own, or to take its lock before. -/
private theorem steady_or_take (serialize : Bool) :
    (if serialize then .take else .inside none .mark : Place ρ κ).erased = .inside none .mark ∧
      ((if serialize then .take else .inside none .mark : Place ρ κ).steady ∨
        (if serialize then .take else .inside none .mark : Place ρ κ) = .take) := by
  cases serialize with
  | true => exact ⟨rfl, .inr rfl⟩
  | false => exact ⟨rfl, .inl rfl⟩

/-- A definition finds the same marker under any locks. -/
private theorem mirrored_check {turn turn' : Turn (System ρ) (Place ρ κ)}
    (advances : call.advance .check = some turn)
    (advances' : (call.configured settings).advance .check = some turn') (s : System ρ)
    (locks : LockState) : Mirrored .check .check turn turn' s (s.under locks) := by
  obtain rfl := Option.some.inj advances
  obtain rfl := Option.some.inj advances'
  have same : (s.under locks).world.marker call.thread = s.world.marker call.thread := rfl
  refine ⟨fun _ => rfl, rfl, ?_, ?_, (fun calls => by cases calls), (fun calls => by cases calls)⟩ <;>
    simp only [configured, Loader.configured, same] <;> cases s.world.marker call.thread
  · exact (steady_or_take _).1.trans (steady_or_take _).1.symm
  · rfl
  · exact (steady_or_take settings.serialize).2.imp_right .inl
  · exact .inl rfl

private theorem Lockless.mirrored (lockless : call.Lockless) {lock lock' : Option LockId}
    {stage : Stage ρ κ} (here : (Place.inside lock' stage).Runs Program.Lockless) (s : System ρ)
    (locks : LockState) : Mirrored (.inside lock stage) (.inside lock' stage)
      (call.advanceStage lock stage) ((call.configured settings).advanceStage lock' stage) s
      (s.under locks) := by
  have beside := lockless.stage (here.past lock) lock' settings
  have goes := beside.goes s locks
  refine ⟨fun ready => (beside.waits s locks).trans ready, beside.changes s locks, goes.erased, ?_,
    fun _ stays => ?_, fun _ => (lockless.configured settings).lockState_stage here _⟩
  · rcases goes.steady_or_leaving with steady | ⟨ending, leaves⟩
    · exact .inl steady
    · exact .inr (.inr ⟨ending, lock', leaves⟩)
  · rw [stays] at goes
    exact goes.eq_inside

end Call

/-! ### Steps that are mirrored -/

/-- Rules by which only definitions are about locks, and which do not ask for the locks and settings that
    there are. -/
structure Rules.Configurable (rules : Rules ρ κ) : Prop where
  lockless : ∀ call w, rules.begins call w → call.Lockless
  begins : ∀ call w settings locks, rules.begins call w →
    rules.begins (call.configured settings) (w.under locks)
  outside : ∀ w w' locks, rules.outside w w' → rules.outside (w.under locks) (w'.under locks)

namespace Pool

variable {rules : Rules ρ κ} {settings : Nat → Settings} {pool pool' mirror : Pool ρ κ}
  {scopes : Scopes} {now now' : Scopes × List (Pool ρ κ)} {move : Option (Move ρ κ)} {index : Nat}
  {running : Running ρ κ} {start : System ρ}

/-- Orderly steps with the same account lead to a pool with these settings that mirrors the pool. -/
def Mirrored (rules : Rules ρ κ) (settings : Nat → Settings) (start : System ρ) (pool : Pool ρ κ)
    (now : Scopes × List (Pool ρ κ)) : Prop :=
  ∃ mirror, Arrives rules.lockless start mirror now ∧ Mirrors settings pool mirror

private theorem mirrored_begin (configurable : rules.Configurable) {call : Call ρ κ}
    (unused : pool.calls index = none) (allowed : rules.begins call pool.world)
    (kept : pool.Orderly now none
      (pool.put index ⟨call, .check, pool.world.created⟩ pool.system) now')
    (mirrored : Mirrored rules settings start pool now) :
    Mirrored rules settings start
      (pool.put index ⟨call, .check, pool.world.created⟩ pool.system) now' := by
  obtain ⟨mirror, arrives, mirrors⟩ := mirrored
  have system := system_of_erased mirrors.erased
  have unused' : mirror.calls index = none := by
    have calls := erased_calls mirrors.erased index
    rw [unused] at calls
    exact Option.map_eq_none_iff.mp calls
  have allowed' : rules.begins (call.configured (settings index)) mirror.world := by
    rw [world, system]
    exact configurable.begins call _ _ _ allowed
  have created : mirror.world.created = pool.world.created :=
    congrArg (fun system => system.world.created) system
  have after : (mirror.put index ⟨call.configured (settings index), .check, mirror.world.created⟩
      mirror.system).erased =
        (pool.put index ⟨call, .check, pool.world.created⟩ pool.system).erased := by
    rw [erased_put, erased_put, mirrors.erased, created, system]
    rfl
  have mirrors' := mirrors.put after rfl rfl
  refine ⟨_, arrives.step (.begin unused' ⟨allowed', ?_⟩) ⟨?_, ?_, after ▸ kept.history⟩, mirrors'⟩
  · exact (configurable.lockless call _ allowed).configured _
  · refine mirrors.threaded kept.threaded none rfl rfl rfl after (fun other stayed => ?_) rfl
    by_cases same : other = index
    · subst same
      rw [put_calls_self, unused] at stayed
      cases stayed
    · rw [put_calls_of_ne _ _ _ same]
  · exact mirrors'.uncontended kept.uncontended

private theorem mirrored_outside (configurable : rules.Configurable) {system : System ρ}
    (allowed : rules.outside pool.world system.world)
    (kept : pool.Orderly now none { pool with system } now')
    (mirrored : Mirrored rules settings start pool now) :
    Mirrored rules settings start { pool with system } now' := by
  obtain ⟨mirror, arrives, mirrors⟩ := mirrored
  have after : ({ mirror with system := system.under mirror.world.lockState } : Pool ρ κ).erased =
      ({ pool with system } : Pool ρ κ).erased :=
    congrArg (Pool.mk (system.under {})) (congrArg Pool.calls mirrors.erased)
  have mirrors' : Mirrors settings { pool with system }
      { mirror with system := system.under mirror.world.lockState } :=
    ⟨after, mirrors.steady, mirrors.configured⟩
  have allowed' : rules.outside mirror.world (system.world.under mirror.world.lockState) := by
    have world : mirror.world = pool.world.under mirror.world.lockState :=
      congrArg System.world (system_of_erased mirrors.erased)
    rw [world]
    exact configurable.outside _ _ _ allowed
  have next : Step rules.lockless mirror none
      { mirror with system := system.under mirror.world.lockState } := .outside ⟨allowed', rfl⟩
  have threaded := mirrors.threaded kept.threaded none rfl rfl rfl after (fun _ _ => rfl) rfl
  exact ⟨_, arrives.step next ⟨threaded, mirrors'.uncontended kept.uncontended,
    after ▸ kept.history⟩, mirrors'⟩

/-- A step that cannot be seen need not be taken. -/
private theorem mirrored_unseen (head : now.2.head? = some pool.erased) {moved : Move ρ κ}
    (own : moved.own) (same : pool'.erased = pool.erased)
    (kept : pool.Orderly now (some moved) pool' now')
    (mirrored : Mirrored rules settings start pool now) :
    Mirrored rules settings start pool' now' := by
  obtain ⟨mirror, arrives, mirrors⟩ := mirrored
  have scopes : now'.1 = now.1 := Eq.mp (if_pos own) kept.threaded.disciplined
  have history : now'.2 = now.2 := by rw [kept.history, same, seen_of_head head]
  rw [show now' = now from Prod.ext scopes history]
  exact ⟨mirror, arrives, mirrors.erased.trans same.symm, mirrors.steady, mirrors.configured⟩

/-- A definition that is about to take its lock, or to free it, does so at once. -/
private theorem Mirrors.settle (idle : start.world.Idle) (keyed : start.world.lockState.Keyed)
    (mirrors : Mirrors settings pool mirror) {theirs : Running ρ κ} {system : System ρ}
    (arrives : Arrives rules.lockless start (mirror.put index theirs system) now')
    (configured : theirs.call.loader.settings = settings index)
    (head : now'.2.head? = some pool'.erased)
    (goes : theirs.place.steady ∨ theirs.place = .take ∨
      ∃ ending lock, theirs.place = Call.atLeaving ending lock) :
    Mirrored rules settings start pool' now' := by
  -- Whatever is left to do cannot be seen.
  have same {last : Pool ρ κ} (arrives : Arrives rules.lockless start last now') :
      last.erased = pool'.erased := Option.some.inj (arrives.head.symm.trans head)
  have here := put_calls_self mirror index theirs system
  rcases goes with steady | takes | ⟨ending, lock, leaves⟩
  · exact ⟨_, arrives, mirrors.put (same arrives) steady configured⟩
  · obtain ⟨lock, system, entered⟩ := arrives.enter idle keyed here takes
    rw [put_put] at entered
    exact ⟨_, entered, mirrors.put (same entered) rfl configured⟩
  · obtain ⟨system, left⟩ := arrives.leave idle.unmarked here leaves
    rw [put_put] at left
    exact ⟨_, left, mirrors.put (same left) rfl configured⟩

section
variable {turn turn' : Turn (System ρ) (Place ρ κ)} {own : Settings} {place : Place ρ κ}

/-- What two turns that mirror each other lead to looks the same. -/
private theorem Mirrors.after (mirrors : Mirrors settings pool mirror)
    (mirrored : Call.Mirrored running.place place turn turn' pool.system mirror.system) :
    (mirror.after index ⟨running.call.configured own, place, running.since⟩ turn').erased =
      (pool.after index running turn).erased := by
  rw [erased_put, erased_put, mirrors.erased, mirrored.act]
  exact congrArg (fun place => pool.erased.put index ⟨running.call.configured {}, place,
    running.since⟩ ((turn.act pool.system).under {})) mirrored.erased

/-- A step that mirrors one of a callback fits in like that one, and one of a definition itself does
    anyway. -/
private theorem Mirrors.threaded_advance (unmarked : ∀ thread, start.world.marker thread = none)
    (here : pool.calls index = some running)
    (threaded : pool.Threaded now.1 (some (pool.taking index running turn))
      (pool.after index running turn) scopes)
    (arrives : Arrives rules start mirror now) (mirrors : Mirrors settings pool mirror)
    (there : mirror.calls index = some ⟨running.call.configured own, place, running.since⟩)
    (looks : place.erased = running.place.erased)
    (advances : (running.call.configured own).advance place = some turn')
    (mirrored : Call.Mirrored running.place place turn turn' pool.system mirror.system) :
    mirror.Threaded now.1
      (some (mirror.taking index ⟨running.call.configured own, place, running.since⟩ turn'))
      (mirror.after index ⟨running.call.configured own, place, running.since⟩ turn') scopes := by
  have callback : place.callback = running.place.callback := by
    rw [← Place.callback_erased, looks, Place.callback_erased]
  cases calls : place.callback with
  | false =>
    have unchanged : scopes = now.1 := by
      have own : running.place.callback = false := callback.symm.trans calls
      simpa [Disciplined, own] using threaded.disciplined
    rw [unchanged]
    exact arrives.threaded_own unmarked there advances calls
  | true =>
    refine mirrors.threaded threaded _ rfl (by simp [Move.own, ← callback, calls])
      (by simp [Move.own, calls]) (mirrors.after mirrored) (fun other stayed => ?_)
      (mirrored.locks calls)
    by_cases same : other = index
    · subst same
      rw [put_calls_self, here] at stayed
      have stays := mirrored.stays calls (congrArg Running.place (Option.some.inj stayed))
      rw [put_calls_self, there, stays]
    · rw [put_calls_of_ne _ _ _ same]

/-- A step that can be seen is taken as well. On the way to a lock, or from it, more are. -/
private theorem mirrored_advance (idle : start.world.Idle) (keyed : start.world.lockState.Keyed)
    (here : pool.calls index = some running) (ready : turn.ready pool.system)
    (kept : pool.Orderly now (some (pool.taking index running turn)) (pool.after index running turn)
      now')
    (arrives : Arrives rules.lockless start mirror now) (mirrors : Mirrors settings pool mirror)
    (there : mirror.calls index = some ⟨running.call.configured own, place, running.since⟩)
    (looks : place.erased = running.place.erased)
    (advances : (running.call.configured own).advance place = some turn')
    (mirrored : Call.Mirrored running.place place turn turn' pool.system mirror.system) :
    Mirrored rules settings start (pool.after index running turn) now' := by
  have threaded := mirrors.threaded_advance idle.unmarked here kept.threaded arrives there looks
    advances mirrored
  have uncontended := arrives.uncontended.put there (Place.busy_of_advance advances)
    (turn'.next mirror.system) (turn'.act mirror.system)
  have went := arrives.step (.advance there advances (mirrored.ready ready))
    ⟨threaded, uncontended, mirrors.after mirrored ▸ kept.history⟩
  have configured := mirrors.configured index _ there
  refine mirrors.settle idle keyed went configured ?_ mirrored.goes
  rw [kept.history, head_seen]

end

private theorem mirrored_step (configurable : rules.Configurable) (idle : start.world.Idle)
    (keyed : start.world.lockState.Keyed) (arrives : Arrives rules start pool now)
    (next : Step rules pool move pool') (kept : pool.Orderly now move pool' now')
    (mirrored : Mirrored rules settings start pool now) :
    Mirrored rules settings start pool' now' := by
  cases next with
  | begin unused allowed => exact mirrored_begin configurable unused allowed kept mirrored
  | outside allowed => exact mirrored_outside configurable allowed kept mirrored
  | @advance index running turn here advances ready =>
    have unseen (own : running.place.callback = false)
        (same : (turn.next pool.system).erased = running.place.erased)
        (locks : (turn.act pool.system).under {} = pool.system.under {}) :
        Mirrored rules settings start _ now' :=
      mirrored_unseen arrives.head (by simp [Move.own, own]) (erased_put_of_eq here same locks)
        kept mirrored
    obtain ⟨call, place, since⟩ := running
    cases place with
    | take =>
      cases advances
      exact unseen rfl rfl
        (congrArg (fun world => { pool.system with world }) (World.under_lockFor ..))
    | wait | unlock | drop => cases advances; exact unseen rfl rfl rfl
    | ended => cases advances
    | check =>
      obtain ⟨mirror, arrives, mirrors⟩ := mirrored
      obtain ⟨own, place, there, looks⟩ := twin mirrors.erased here
      obtain rfl := Place.eq_check_of_erased looks
      refine mirrored_advance idle keyed here ready kept arrives mirrors there looks rfl ?_
      rw [system_of_erased mirrors.erased]
      exact Call.mirrored_check advances rfl _ _
    | inside lock stage =>
      obtain ⟨mirror, arrives, mirrors⟩ := mirrored
      obtain ⟨own, place, there, looks⟩ := twin mirrors.erased here
      obtain ⟨lock', rfl⟩ := Place.eq_inside_of_erased looks (mirrors.steady index _ there)
      obtain ⟨trace, run⟩ := arrives.run
      obtain ⟨lockless, left⟩ := (run.lockless idle.free keyed).lockless index _ there
      cases advances
      refine mirrored_advance idle keyed here ready kept arrives mirrors there looks rfl ?_
      rw [system_of_erased mirrors.erased]
      exact (lockless.configured call.loader.settings).mirrored left _ _

/-- Whatever definitions come to under orderly steps, they come to under any other settings. -/
private theorem Arrives.mirrored (configurable : rules.Configurable) (idle : start.world.Idle)
    (keyed : start.world.lockState.Keyed) (arrives : Arrives rules start pool now) :
    Mirrored rules settings start pool now := by
  obtain ⟨trace, course⟩ := arrives
  induction course with
  | start => exact ⟨_, ⟨[], .start⟩, rfl, by simp, by simp⟩
  | step before next kept ih =>
    exact mirrored_step configurable idle keyed ⟨_, before⟩ next kept ih

end Pool

/-- Of its settings a loader reads whether to serialize, and nothing else. -/
theorem Loader.define_configured {loader : Loader (Packer ρ) (Host ρ κ)} {settings : Settings}
    (same : settings.serialize = loader.settings.serialize) (thread : ThreadId) (name : Name)
    (raw : Bytes) :
    (loader.configured settings).define thread name raw = loader.define thread name raw := by
  unfold define serialized
  rw [show (loader.configured settings).settings = settings from rfl, same]
  rfl

namespace Pool

variable {rules : Rules ρ κ} {pool : Pool ρ κ} {start : System ρ}

/-- A course of threads that never contend has a history. -/
theorem Course.arrives {scopes : Scopes} {trace : List (Move ρ κ)}
    (uncontended : ∀ {trace pool}, Run rules start trace pool → pool.Uncontended)
    (course : Course rules Threaded ⟨start, fun _ => none⟩ (fun _ => none) trace pool scopes) :
    ∃ history, Arrives rules start pool (scopes, history) := by
  induction course with
  | start => exact ⟨_, [], .start⟩
  | step before next kept ih =>
    obtain ⟨history, arrives⟩ := ih
    exact ⟨_, arrives.step next ⟨kept, uncontended ((before.run .start).step next), rfl⟩⟩

/-- If no two threads define units of one name into one cache at once, and only definitions are about their
    locks, then whatever can be seen under some settings can be seen under any others: all that callbacks
    do, how each definition ends, the entries, the markers, the counters and the events, at every step.
    A loader that is made with other settings is another one in nothing else. What it resolves has nothing
    to do with them, nor with locks, and what it defines only with whether it serializes. -/
theorem settings_invisible (configurable : rules.Configurable) (idle : start.world.Idle)
    (keyed : start.world.lockState.Keyed) {scopes : Scopes} {history : List (Pool ρ κ)}
    (arrives : Arrives rules start pool (scopes, history)) :
    (∀ settings : Nat → Settings, ∃ mirror, Arrives rules start mirror (scopes, history) ∧
      mirror.erased = pool.erased ∧ ∀ index running, mirror.calls index = some running →
        running.call.loader.settings = settings index) ∧
    (∀ (packer : Packer ρ) (host : Host ρ κ) settings settings' w,
      Loader.create packer host settings' w =
        ((Loader.create packer host settings w).1.configured settings',
          (Loader.create packer host settings w).2)) ∧
    ∀ (loader : Loader (Packer ρ) (Host ρ κ)) settings,
      (∀ thread name w locks, (loader.configured settings).resolve thread name (w.under locks) =
        ((loader.resolve thread name w).1, (loader.resolve thread name w).2.under locks)) ∧
      (settings.serialize = loader.settings.serialize → ∀ thread name raw,
        (loader.configured settings).define thread name raw = loader.define thread name raw) := by
  refine ⟨fun settings => ?_, fun _ _ _ _ _ => rfl, fun loader settings =>
    ⟨fun thread name w locks => ?_, Loader.define_configured⟩⟩
  · obtain ⟨mirror, arrives, mirrors⟩ := arrives.mirrored configurable idle keyed
    exact ⟨mirror, arrives.of_lockless, mirrors.erased, mirrors.configured⟩
  · exact loader.resolver.lockless_resolve thread name w locks

/-- A definition that takes its lock fails like one that takes none. -/
theorem settings_invisible_linkedBehind :
    let rules : Rules Unit MemoryContext :=
      ⟨fun call _ => call.thread = ⟨0⟩ ∧ call.Lockless, fun _ _ => True⟩
    ∃ pool history, rules.Configurable ∧ World.Idle {} ∧ (World.lockState {}).Keyed ∧
      Arrives rules ⟨{}, ()⟩ pool (fun _ => none, history) ∧
      (∃ running, pool.calls 0 = some running ∧ running.call.loader.settings.serialize ∧
        running.place matches .ended (.ok (.error _))) ∧
      ∃ mirror, Arrives rules ⟨{}, ()⟩ mirror (fun _ => none, history) ∧
        mirror.erased = pool.erased ∧ ∀ index running, mirror.calls index = some running →
          running.call.loader.settings = {} := by
  intro rules
  let unit : Artifact := ⟨1, ⟨"a", by decide⟩, 0, .nothing⟩
  let call : Call Unit MemoryContext := (Loader.linkedBehind unit).call ⟨0⟩ unit.name []
  let one := Pool.put ⟨⟨{}, ()⟩, fun _ => none⟩ 0 ⟨call, .check, 0⟩ ⟨{}, ()⟩
  have configurable : rules.Configurable :=
    ⟨fun _ _ allowed => allowed.2, fun _ _ _ _ allowed => ⟨allowed.1, allowed.2.configured _⟩,
      fun _ _ _ _ => trivial⟩
  have idle : World.Idle {} := ⟨fun _ => rfl, fun _ => rfl⟩
  have keyed : (World.lockState {}).Keyed := ⟨by simp [World.lockState], by simp [World.lockState]⟩
  have ends : (one.follow (List.replicate 10 0)).any (fun ended =>
      (∀ move ∈ ended.1, move.own) ∧
      (ended.2.calls 0).any fun running => running.call.loader.settings.serialize ∧
        running.place matches .ended (.ok (.error _))) = true := by decide +kernel
  obtain ⟨⟨trace, pool⟩, followed, facts⟩ := (Option.any_eq_true _ _).mp ends
  obtain ⟨own, failed⟩ := of_decide_eq_true facts
  obtain ⟨running, here, facts⟩ := (Option.any_eq_true _ _).mp failed
  have begun : ∀ call w, rules.begins call w → call.thread = ⟨0⟩ := fun _ _ allowed => allowed.1
  have allowed : rules.begins call {} := ⟨rfl, Loader.lockless_call ..⟩
  obtain ⟨history, arrives⟩ := (Course.follow_one allowed followed own).arrives
    (uncontended_of_thread begun)
  exact ⟨pool, history, configurable, idle, keyed, arrives, ⟨running, here, of_decide_eq_true facts⟩,
    (settings_invisible configurable idle keyed arrives).1 fun _ => {}⟩

end Pool

end Reload
