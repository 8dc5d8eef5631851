import Reload.Proofs.Concurrent.Course
import Reload.Proofs.Definition.Isolation
import Reload.Proofs.Definition.Working

/-!
Markers and scopes. A thread has a marker exactly as long as it has a scope: one that was begun by hand
and not dropped, or that of a definition at work. Dropping a scope clears the marker whatever it says,
so the proof rests on there never being two scopes on a thread (`Course.matching`).
-/

namespace Reload

variable {ρ κ : Type}

/-! ### What the steps of a definition do to the marker -/

namespace Call

variable (call : Call ρ κ)

theorem marked_atReporting (lock : Option LockId) (ending : Ending) (notes : List Note) :
    (atReporting lock ending notes : Place ρ κ).marked = false := by
  cases notes with
  | nil => cases lock <;> rfl
  | cons first others => rfl

private theorem marked_of_works {places : Option LockId → Place ρ κ} (works : Place.Works places)
    (lock : Option LockId) : (places lock).marked = true := by
  obtain ⟨stage, working, inside⟩ := works
  rw [inside]
  cases stage <;> first | rfl | cases working

private theorem marked_atNoting (lock : Option LockId) (notes : List Note) :
    (call.atNoting lock notes).marked = true := by
  cases notes with
  | nil => exact marked_of_works (call.works_atPacking _) lock
  | cons first others => rfl

/-- What a step does to the marker: it is one of a callback, which runs under the marker, or it sets the
    marker, or clears it, or leaves it alone. -/
inductive Marks (call : Call ρ κ) (place next : Place ρ κ) (w w' : World) : Prop where
  | callback (calls : place.callback) (before : place.marked) (after : next.marked)
  | enter (own : place.callback = false) (before : place.marked = false) (after : next.marked)
      (unmarked : w.marker call.thread = none)
      (marker : w'.marker = replace w.marker call.thread (some call.name))
  | leave (own : place.callback = false) (before : place.marked) (after : next.marked = false)
      (marker : w'.marker = replace w.marker call.thread none)
  | aside (own : place.callback = false) (same : next.marked = place.marked)
      (marker : w'.marker = w.marker)

private theorem marks_stage (lock : Option LockId) (stage : Stage ρ κ) (s : System ρ) :
    call.Marks (.inside lock stage) ((call.advanceStage lock stage).next s) s.world
      ((call.advanceStage lock stage).act s).world := by
  cases stage with
  | mark =>
    simp only [advanceStage, World.mark]
    cases unmarked : s.world.marker call.thread with
    | none => exact .enter rfl rfl rfl unmarked rfl
    | some running => exact .aside rfl (marked_atReporting ..) rfl
  | forget => exact .aside rfl (call.marked_atNoting ..) rfl
  | note first others => exact .aside rfl (call.marked_atNoting ..) (by cases first <;> rfl)
  | pack turn => exact .callback rfl rfl (marked_of_works (call.works_atPacking _) lock)
  | instantiate turn => exact .callback rfl rfl (marked_of_works (call.works_atInstantiating _) lock)
  | load context turn => exact .callback rfl rfl (marked_of_works (works_atLoading context _) lock)
  | publish context artifact => exact .aside rfl rfl rfl
  | close context result => exact .callback rfl rfl rfl
  | unmark result => exact .leave rfl rfl (marked_atReporting ..) rfl
  | report first others ending =>
    exact .aside rfl (marked_atReporting ..) (by cases first <;> rfl)

theorem marks_advance {place : Place ρ κ} {turn : Turn (System ρ) (Place ρ κ)}
    (advances : call.advance place = some turn) (s : System ρ) :
    call.Marks place (turn.next s) s.world (turn.act s).world := by
  cases place with
  | check =>
    cases advances
    refine .aside rfl ?_ rfl
    simp only []
    split
    · exact marked_atReporting ..
    · split <;> rfl
  | take => cases advances; exact .aside rfl rfl (World.lockFor_marker ..)
  | wait lock => cases advances; exact .aside rfl rfl rfl
  | inside lock stage => cases advances; exact call.marks_stage lock stage s
  | unlock lock ending => cases advances; exact .aside rfl rfl rfl
  | drop lock ending => cases advances; exact .aside rfl rfl rfl
  | ended ending => cases advances

end Call

/-! ### Scopes -/

/-- The scopes that were begun by hand and not dropped, each with its thread and its name. -/
abbrev Scopes : Type := Nat → Option (ThreadId × Name)

/-- What may happen to markers besides definitions: nothing, or a thread begins a scope, or drops one
    of its own. -/
inductive Scopes.Change (w : World) (scopes : Scopes) (w' : World) : Scopes → Prop where
  | aside (marker : w'.marker = w.marker) : Change w scopes w' scopes
  | enter {scope : Nat} {thread : ThreadId} {name : Name} (unused : scopes scope = none)
      (begins : (w.mark thread name).1 = .ok ())
      (marker : w'.marker = (w.mark thread name).2.marker) :
      Change w scopes w' (replace scopes scope (some (thread, name)))
  | leave {scope : Nat} {thread : ThreadId} {name : Name}
      (own : scopes scope = some (thread, name)) (marker : w'.marker = (w.unmark thread).marker) :
      Change w scopes w' (replace scopes scope none)

theorem World.mark_eq_ok {w : World} {thread : ThreadId} {name : Name} :
    (w.mark thread name).1 = .ok () ↔ w.marker thread = none := by
  unfold mark
  cases w.marker thread <;> simp

theorem World.mark_marked {w : World} {thread : ThreadId} {running : Name}
    (marked : w.marker thread = some running) (name : Name) :
    w.mark thread name = (.error running, w) := by
  simp only [mark, marked]

/-- What scopes begin and end is told by the markers. -/
theorem Scopes.Change.of_marker {w w' v v' : World} {scopes scopes' : Scopes}
    (before : v.marker = w.marker) (after : v'.marker = w'.marker)
    (change : scopes.Change w w' scopes') : scopes.Change v v' scopes' := by
  cases change with
  | aside marker => exact .aside (after.trans (marker.trans before.symm))
  | enter unused begins marker =>
    have unmarked := World.mark_eq_ok.mp begins
    have unmarked' := (congrFun before _).trans unmarked
    refine .enter unused (World.mark_eq_ok.mpr unmarked') (after.trans (marker.trans ?_))
    simp only [World.mark, unmarked, unmarked', before]
  | leave own marker =>
    exact .leave own (after.trans (marker.trans (by simp only [World.unmark, before])))

/-- Each thread has one scope at most, and the marker tells its name. -/
structure Matching {ι : Type} (marker : ThreadId → Option Name)
    (live : ι → Option (ThreadId × Name)) : Prop where
  alone : ∀ {scope other thread name theirs}, live scope = some (thread, name) →
    live other = some (thread, theirs) → scope = other
  marker : ∀ {thread name}, marker thread = some name ↔ ∃ scope, live scope = some (thread, name)

namespace Matching

variable {ι : Type} [DecidableEq ι] {marker : ThreadId → Option Name}
  {live : ι → Option (ThreadId × Name)} {scope : ι} {thread : ThreadId} {name : Name}

theorem enter (matching : Matching marker live) (unused : live scope = none)
    (unmarked : marker thread = none) :
    Matching (replace marker thread (some name)) (replace live scope (some (thread, name))) where
  alone {first second owner mine theirs} here there := by
    have alone {other : ι} {named : Name} (found : live other = some (thread, named)) : False := by
      rw [matching.marker.mpr ⟨other, found⟩] at unmarked
      cases unmarked
    simp only [replace] at here there
    split at here <;> split at there
    · next one two => rw [one, two]
    · cases here; exact absurd there alone
    · cases there; exact absurd here alone
    · exact matching.alone here there
  marker {owner named} := by
    simp only [replace]
    constructor
    · split
      · next same =>
        rintro ⟨⟩
        exact ⟨scope, by rw [if_pos rfl, same]⟩
      · intro marked
        obtain ⟨other, found⟩ := matching.marker.mp marked
        have different : other ≠ scope := by
          rintro rfl
          rw [unused] at found
          cases found
        exact ⟨other, by rw [if_neg different, found]⟩
    · rintro ⟨other, found⟩
      split at found
      · cases found
        exact if_pos rfl
      · have different : owner ≠ thread := by
          rintro rfl
          rw [matching.marker.mpr ⟨other, found⟩] at unmarked
          cases unmarked
        rw [if_neg different]
        exact matching.marker.mpr ⟨other, found⟩

/-- The scope that is dropped was the only one of its thread, so no other one loses its marker. -/
theorem leave (matching : Matching marker live) (own : live scope = some (thread, name)) :
    Matching (replace marker thread none) (replace live scope none) where
  alone {first second owner mine theirs} here there := by
    simp only [replace] at here there
    split at here
    · cases here
    · split at there
      · cases there
      · exact matching.alone here there
  marker {owner named} := by
    simp only [replace]
    constructor
    · split
      · rintro ⟨⟩
      · next different =>
        intro marked
        obtain ⟨other, found⟩ := matching.marker.mp marked
        have apart : other ≠ scope := by
          rintro rfl
          rw [own] at found
          cases found
          exact different rfl
        exact ⟨other, by rw [if_neg apart, found]⟩
    · rintro ⟨other, found⟩
      split at found
      · cases found
      · next apart =>
        have different : owner ≠ thread := by
          rintro rfl
          exact apart (matching.alone found own)
        rw [if_neg different]
        exact matching.marker.mpr ⟨other, found⟩

end Matching

/-! ### Courses in which scopes are dropped by those who began them -/

/-- The thread and the name of a definition whose marker stands. -/
def Running.scope? (running : Running ρ κ) : Option (ThreadId × Name) :=
  if running.place.marked then some (running.call.thread, running.call.name) else none

namespace Pool

/-- All scopes: those that were begun by hand, and those of definitions. -/
def live (pool : Pool ρ κ) (scopes : Scopes) : Nat ⊕ Nat → Option (ThreadId × Name)
  | .inl scope => scopes scope
  | .inr index => (pool.calls index).bind Running.scope?

/-- A step of a definition itself is about no scope but its own. Callbacks, and whoever else changes
    the state, may begin scopes, and drop those that they have begun. -/
def Disciplined (pool : Pool ρ κ) (scopes : Scopes) (move : Option (Move ρ κ)) (pool' : Pool ρ κ)
    (scopes' : Scopes) : Prop :=
  if move.any fun move => !move.running.place.callback then scopes' = scopes
  else scopes.Change pool.world pool'.world scopes'

variable {pool pool' : Pool ρ κ} {scopes scopes' : Scopes} {index : Nat} {running : Running ρ κ}

private theorem live_put (running : Running ρ κ) (system : System ρ) :
    (pool.put index running system).live scopes =
      replace (pool.live scopes) (.inr index) running.scope? := by
  funext scope
  rcases scope with scope | other
  · rw [replace_of_ne _ _ Sum.inl_ne_inr]
    rfl
  · by_cases same : other = index
    · rw [same, replace_self, live, put_calls_self]
      rfl
    · rw [replace_of_ne _ _ (by simpa using same), live, put_calls_of_ne _ _ _ same]
      rfl

private theorem live_replace (scope : Nat) (value : Option (ThreadId × Name)) :
    pool.live (replace scopes scope value) = replace (pool.live scopes) (.inl scope) value := by
  funext other
  rcases other with other | index
  · by_cases same : other = scope
    · rw [same, replace_self, live, replace_self]
    · rw [replace_of_ne _ _ (by simpa using same), live, replace_of_ne _ _ same]
      rfl
  · rw [replace_of_ne _ _ Sum.inr_ne_inl]
    rfl

private theorem live_here (here : pool.calls index = some running) :
    pool.live scopes (.inr index) = running.scope? := by
  rw [live, here]
  rfl

/-- A change of scopes that were begun by hand, while the definitions stay as they are. -/
private theorem matching_change (matching : Matching pool.world.marker (pool.live scopes)) {w' : World}
    (change : scopes.Change pool.world w' scopes') :
    Matching w'.marker (pool.live scopes') := by
  cases change with
  | aside marker => rw [marker]; exact matching
  | enter unused begins marker =>
    have unmarked := World.mark_eq_ok.mp begins
    rw [marker, live_replace]
    simp only [World.mark, unmarked]
    exact matching.enter unused unmarked
  | leave own marker =>
    rw [marker, live_replace]
    exact matching.leave own

private theorem matching_step {rules : Rules ρ κ} {move : Option (Move ρ κ)}
    (matching : Matching pool.world.marker (pool.live scopes)) (next : Step rules pool move pool')
    (kept : pool.Disciplined scopes move pool' scopes') :
    Matching pool'.world.marker (pool'.live scopes') := by
  cases next with
  | @begin index call unused allowed =>
    have change := matching_change matching kept
    rw [live_put]
    have absent : pool.live scopes' (.inr index) = none := by rw [live, unused]; rfl
    exact Eq.mpr (congrArg _ (replace_eq_self absent)) change
  | outside allowed => exact matching_change matching kept
  | @advance index running turn here advances ready =>
    have mine : pool.live scopes (.inr index) = running.scope? := live_here here
    rw [live_put]
    cases running.call.marks_advance advances pool.system with
    | callback calls before after =>
      have change : scopes.Change pool.world (turn.act pool.system).world scopes' := by
        simp only [Disciplined, Option.any_some, calls] at kept
        exact kept
      have same : pool.live scopes' (.inr index) =
          Running.scope? { running with place := turn.next pool.system } := by
        rw [live_here here, Running.scope?, Running.scope?, if_pos before, if_pos after]
      rw [replace_eq_self same]
      exact matching_change matching change
    | enter own before after unmarked marker =>
      obtain rfl : scopes' = scopes := by simpa [Disciplined, own] using kept
      have absent : pool.live scopes' (.inr index) = none := by
        rw [mine, Running.scope?, if_neg (by simp [before])]
      rw [Running.scope?, if_pos after]
      exact Eq.mpr (congrArg (Matching · _) marker) (matching.enter absent unmarked)
    | leave own before after marker =>
      obtain rfl : scopes' = scopes := by simpa [Disciplined, own] using kept
      rw [Running.scope?, if_pos before] at mine
      rw [Running.scope?, if_neg (by simp [after])]
      exact Eq.mpr (congrArg (Matching · _) marker) (matching.leave mine)
    | aside own same marker =>
      obtain rfl : scopes' = scopes := by simpa [Disciplined, own] using kept
      have unchanged : pool.live scopes' (.inr index) =
          Running.scope? { running with place := turn.next pool.system } := by
        rw [mine, Running.scope?, Running.scope?, same]
      rw [replace_eq_self unchanged]
      exact Eq.mpr (congrArg (Matching · _) marker) matching

theorem Course.matching {rules : Rules ρ κ} {start : System ρ} {trace : List (Move ρ κ)}
    (unmarked : ∀ thread, start.world.marker thread = none)
    (course : Course rules Disciplined ⟨start, fun _ => none⟩ (fun _ => none) trace pool scopes) :
    Matching pool.world.marker (pool.live scopes) := by
  induction course with
  | start =>
    have nothing : ∀ scope, (⟨start, fun _ => none⟩ : Pool ρ κ).live (fun _ => none) scope = none := by
      rintro (scope | index) <;> rfl
    constructor
    · intro _ _ _ _ _ here
      rw [nothing] at here
      cases here
    · intro thread name
      simp [world, unmarked, nothing]
  | step _ next kept ih => exact matching_step ih next kept

/-! ### What markers tell -/

/-- What markers tell about scopes. -/
structure Guarded (pool : Pool ρ κ) (scopes : Scopes) : Prop where
  /-- A marker tells the name of the one scope of its thread. -/
  marked : ∀ thread name, pool.world.marker thread = some name ↔
    ∃ scope, pool.live scopes scope = some (thread, name) ∧
      ∀ other theirs, pool.live scopes other = some (thread, theirs) → other = scope
  unmarked : ∀ thread, pool.world.marker thread = none ↔
    ∀ scope name, pool.live scopes scope ≠ some (thread, name)
  alone : ∀ thread scope other name theirs, pool.live scopes scope = some (thread, name) →
    pool.live scopes other = some (thread, theirs) → scope = other
  /-- A scope can be begun exactly where there is no marker. -/
  begins : ∀ thread name, (pool.world.mark thread name).1 = .ok () ↔
    pool.world.marker thread = none
  /-- Otherwise the answer is the name of the marker, which stays. -/
  refuses : ∀ thread name running, pool.world.marker thread = some running →
    pool.world.mark thread name = (.error running, pool.world)

private theorem guarded_of_matching (matching : Matching pool.world.marker (pool.live scopes)) :
    pool.Guarded scopes where
  marked thread name := by
    rw [matching.marker]
    refine exists_congr fun scope => ⟨fun here => ⟨here, fun other theirs there => ?_⟩, And.left⟩
    exact matching.alone there here
  unmarked thread := by
    rw [Option.eq_none_iff_forall_ne_some]
    constructor
    · intro unmarked scope name here
      exact unmarked name (matching.marker.mpr ⟨scope, here⟩)
    · intro nothing name marked
      obtain ⟨scope, here⟩ := matching.marker.mp marked
      exact nothing scope name here
  alone _ _ _ _ _ := matching.alone
  begins _ _ := World.mark_eq_ok
  refuses _ name _ marked := World.mark_marked marked name

/-- If scopes are dropped by the threads that began them, then at every moment of a run each thread has
    one scope at most, be it begun by hand or that of a definition, and its marker tells which. And
    whatever a thread does, it does the same amid any markers of other threads. -/
theorem marker_tells_scope :
    (∀ {ρ κ : Type} {rules : Rules ρ κ} {start : System ρ} {trace : List (Move ρ κ)}
      {pool : Pool ρ κ} {scopes : Scopes}, (∀ thread, start.world.marker thread = none) →
      Course rules Disciplined ⟨start, fun _ => none⟩ (fun _ => none) trace pool scopes →
      pool.Guarded scopes) ∧
    ∀ {ρ κ : Type} {thread : ThreadId} {ops : List (ThreadOp ρ κ)},
      (∀ op ∈ ops, op.Local thread) → ∀ (s : System ρ) (others : ThreadId → Option Name),
      (ThreadOp.performAll thread ops).run (s.amid thread others) =
        ((ThreadOp.performAll thread ops).run s).map
          fun end_ => (end_.1, end_.2.amid thread others) :=
  ⟨fun unmarked course => guarded_of_matching (course.matching unmarked),
    fun isLocal s others => (ThreadOp.local_performAll isLocal).run s others⟩

/-- A definition that has set its marker, and a scope of the same name that another thread has begun
    meanwhile. -/
theorem marker_tells_scope_linkedBehind :
    let unit : Artifact := ⟨1, ⟨"a", by decide⟩, 0, .nothing⟩
    let loader : Loader Settings UInt16 := { Loader.linkedBehind unit with settings := {} }
    let rules : Rules Unit MemoryContext := ⟨fun _ _ => True, fun _ _ => True⟩
    let ops : List (ThreadOp Unit MemoryContext) :=
      [.define loader.inMemory unit.name [], .current, .resolve loader.resolver unit.name]
    ∃ trace pool scopes, Course rules Disciplined ⟨⟨{}, ()⟩, fun _ => none⟩ (fun _ => none) trace
        pool scopes ∧ pool.Guarded scopes ∧ pool.world.marker .first = some unit.name ∧
      pool.world.marker ⟨1⟩ = some unit.name ∧
      ∀ s others, (ThreadOp.performAll .first ops).run (System.amid .first others s) =
        ((ThreadOp.performAll .first ops).run s).map
          fun end_ => (end_.1, end_.2.amid .first others) := by
  intro unit loader rules ops
  have isLocal : ∀ op ∈ ops, op.Local .first := by
    have defines : (⟨loader.inMemory, .first, unit.name, []⟩ : Call Unit MemoryContext).Local :=
      loader.local_call .first unit.name []
    simp [ops, ThreadOp.Local, defines]
  have empty : Course rules Disciplined ⟨⟨{}, ()⟩, fun _ => none⟩ (fun _ => none) [] _ _ := .start
  have begun := empty.begin 0 (loader.call .first unit.name []) rfl trivial (.aside rfl)
  have marked := (begun.advance 0 rfl rfl).advance 0 rfl rfl
  let w : World := { marker := replace (fun _ => none) .first (some unit.name) }
  have enters : Scopes.Change w (fun _ => none) (w.mark ⟨1⟩ unit.name).2
    (replace (fun _ => none) 0 (some (⟨1⟩, unit.name))) := .enter rfl rfl rfl
  have entered := marked.outside ⟨(w.mark ⟨1⟩ unit.name).2, ()⟩ trivial enters
  exact ⟨_, _, _, entered, marker_tells_scope.1 (fun _ => rfl) entered, rfl, rfl,
    marker_tells_scope.2 isLocal⟩

end Pool

end Reload
