import Reload.Proofs.Concurrent.Course
import Reload.Proofs.Concurrent.Entries

/-!
Definitions that serialize are ordered by their definition lock. Those of one name into one cache hold
the lock one after the other, so the artifacts that they publish are created in that order, and the
last one, while something holds it, is what the cache has under the name (`define_ordered`). Nothing is
asked of their packers but that what they do besides may happen beside a definition anyway.
-/

namespace Reload

variable {ρ κ : Type} {cache : CacheId} {name : Name} {base : Nat}

/-! ### What a run has published -/

/-- The artifact that a definition is about to publish under the name. -/
def Running.publishing? (cache : CacheId) (name : Name) (running : Running ρ κ) : Option Artifact :=
  match running.place with
  | .inside _ (.publish _ artifact) => if running.call.Into cache name then some artifact else none
  | _ => none

/-- Whether a definition is about to take the definition lock of the name. -/
def Running.acquiring (cache : CacheId) (name : Name) (running : Running ρ κ) : Bool :=
  match running.place with
  | .wait _ => running.call.Into cache name
  | _ => false

/-- The artifacts that were published under the name, the latest one first. -/
def Pool.published (cache : CacheId) (name : Name) (trace : List (Move ρ κ)) : List Artifact :=
  trace.filterMap fun move => move.running.publishing? cache name

/-- The definition that was the last to take the definition lock of the name. -/
def Pool.lastHolder? (cache : CacheId) (name : Name) (trace : List (Move ρ κ)) : Option Nat :=
  (trace.find? fun move => move.running.acquiring cache name).map Move.index

theorem Running.publishing?_eq_some {running : Running ρ κ} {artifact : Artifact} :
    running.publishing? cache name = some artifact ↔ running.call.Into cache name ∧
      ∃ lock context, running.place = .inside lock (.publish context artifact) := by
  unfold publishing?
  constructor
  · intro publishing
    split at publishing
    · next lock context found place =>
      split at publishing
      · next into =>
        obtain rfl := Option.some.inj publishing
        exact ⟨into, lock, context, place⟩
      · cases publishing
    · cases publishing
  · rintro ⟨into, lock, context, place⟩
    simp only [place, if_pos into]

theorem Running.acquiring_iff {running : Running ρ κ} :
    running.acquiring cache name ↔
      running.call.Into cache name ∧ ∃ lock, running.place = .wait lock := by
  unfold acquiring
  constructor
  · intro acquiring
    split at acquiring
    · next lock place => exact ⟨of_decide_eq_true acquiring, lock, place⟩
    · cases acquiring
  · rintro ⟨into, lock, place⟩
    simp only [place, into, decide_true]

theorem Running.publishing?_of_writes {running : Running ρ κ}
    (elsewhere : running.call.Into cache name → running.place.writes = false) :
    running.publishing? cache name = none := by
  cases publishing : running.publishing? cache name with
  | none => rfl
  | some artifact =>
    obtain ⟨into, lock, context, place⟩ := publishing?_eq_some.mp publishing
    have writes := elsewhere into
    rw [place] at writes
    cases writes

namespace Pool

theorem published_cons (move : Move ρ κ) (trace : List (Move ρ κ)) :
    published cache name (move :: trace) =
      (move.running.publishing? cache name).toList ++ published cache name trace := by
  unfold published
  cases publishing : move.running.publishing? cache name <;> simp [publishing]

theorem lastHolder?_cons (move : Move ρ κ) (trace : List (Move ρ κ)) :
    lastHolder? cache name (move :: trace) =
      if move.running.acquiring cache name then some move.index else lastHolder? cache name trace := by
  unfold lastHolder?
  cases acquiring : move.running.acquiring cache name <;> simp [acquiring]

end Pool

/-! ### Definitions that serialize write under their lock -/

/-- A definition that serializes is past its lock, or it was refused before. -/
def Place.Locking : Place ρ κ → Prop
  | .inside none (.report _ _ ending) => ending.artifact? = none
  | .inside none _ => False
  | _ => True

theorem Place.locking_of_held {place : Place ρ κ} {lock : LockId}
    (held : place.held? = some lock) : place.Locking := by
  cases place with
  | inside taken stage =>
    obtain rfl : taken = some lock := held
    trivial
  | unlock => trivial
  | check | take | wait | drop | ended => cases held

theorem Place.held_of_writes {place : Place ρ κ} (locking : place.Locking)
    (writing : place.writes) : place.held?.isSome := by
  unfold writes at writing
  split at writing
  · next lock =>
    cases lock with
    | none => cases locking
    | some lock => rfl
  · next lock context artifact =>
    cases lock with
    | none => cases locking
    | some lock => rfl
  · cases writing

theorem Place.writes_of_published {place : Place ρ MemoryContext} {artifact : Artifact}
    (published : place.published? = some artifact) : place.writes = false := by
  unfold writes
  split
  · cases published
  · cases published
  · rfl

private theorem locking_atReporting {ending : Ending} (fails : ending.artifact? = none)
    (notes : List Note) : (Call.atReporting none ending notes : Place ρ κ).Locking := by
  cases notes with
  | nil => trivial
  | cons first others => exact fails

theorem Call.locking_advance {call : Call ρ κ} (spares : call.KeepsLocks)
    (serialize : call.loader.settings.serialize = true) {place : Place ρ κ}
    (keeps : place.KeepsLocks) (locking : place.Locking) {turn : Turn (System ρ) (Place ρ κ)}
    (advances : call.advance place = some turn) {s : System ρ} (ready : turn.ready s) :
    (turn.next s).Locking := by
  cases place with
  | check =>
    cases advances
    simp only [serialize, if_true]
    split
    · exact locking_atReporting rfl _
    · trivial
  | take => cases advances; trivial
  | wait lock => cases advances; trivial
  | inside lock stage =>
    cases advances
    cases lock with
    | none =>
      cases stage with
      | report first others ending => exact locking_atReporting locking others
      | mark | forget | note | pack | instantiate | load | publish | close | unmark => cases locking
    | some lock =>
      obtain ⟨-, inner⟩ := Call.advanceStage_keepsLocks spares keeps ready
      exact Place.locking_of_held inner.held
  | unlock lock ending => cases advances; trivial
  | drop lock ending => cases advances; trivial
  | ended ending => cases advances

/-! ### The invariant -/

/-- A definition by the rules of `Rules.Serialize`. -/
structure Running.Serial (cache : CacheId) (base : Nat) (running : Running ρ MemoryContext) :
    Prop where
  since : base ≤ running.since
  serialize : running.call.loader.cache = cache → running.call.loader.settings.serialize = true
  locking : running.call.loader.cache = cache → running.place.Locking

namespace Pool

/-- What holds of the definitions of a name into a cache, and of what they have published. -/
structure Ordered (cache : CacheId) (name : Name) (base : Nat) (trace : List (Move ρ MemoryContext))
    (pool : Pool ρ MemoryContext) : Prop where
  started : base ≤ pool.world.created
  calls : ∀ index running, pool.calls index = some running → running.Serial cache base
  bounded : ∀ artifact ∈ published cache name trace,
    base < artifact.serial ∧ artifact.serial ≤ pool.world.created
  sorted : (published cache name trace).Pairwise fun later earlier => earlier.serial < later.serial
  pending : ∀ index running artifact, pool.calls index = some running →
    running.publishing? cache name = some artifact →
    ∀ old ∈ published cache name trace, old.serial < artifact.serial
  /-- Whoever holds the lock of the name was the last to take it. -/
  holder : ∀ index running, pool.calls index = some running → running.call.Into cache name →
    running.place.held?.isSome → lastHolder? cache name trace = some index
  /-- Whoever holds the lock or has published has taken the lock. -/
  taken : ∀ index running, pool.calls index = some running → running.call.Into cache name →
    (running.place.held?.isSome ∨ ∃ artifact, running.place.published? = some artifact) →
    ∃ move ∈ trace, move.index = index ∧ move.running.acquiring cache name
  last : ∀ index, lastHolder? cache name trace = some index →
    ∃ running, pool.calls index = some running ∧ running.call.Into cache name
  /-- What the last one has published is what the cache has, as long as it is alive. -/
  latest : ∀ index running artifact, lastHolder? cache name trace = some index →
    pool.calls index = some running → running.place.published? = some artifact →
    pool.world.alive artifact →
    (pool.world.entries cache).get? name = some artifact ∧
      (published cache name trace).head? = some artifact

/-! ### The step of a definition -/

section

variable {rules : Rules ρ MemoryContext} {trace : List (Move ρ MemoryContext)}
  {pool : Pool ρ MemoryContext} {index : Nat} {running : Running ρ MemoryContext}
  {turn : Turn (System ρ) (Place ρ MemoryContext)}

/-- An artifact that is about to be published was created in the run. -/
private theorem Ordered.bounded_publishing (ordered : Ordered cache name base trace pool)
    (sound : pool.Sound rules.outside .any) (here : pool.calls index = some running)
    {artifact : Artifact} (publishing : running.publishing? cache name = some artifact) :
    base < artifact.serial ∧ artifact.serial ≤ pool.world.created := by
  obtain ⟨-, lock, context, place⟩ := Running.publishing?_eq_some.mp publishing
  have made := (sound.calls index running here).artifact artifact (by rw [place]; rfl)
  have since := (ordered.calls index running here).since
  exact ⟨Nat.lt_of_le_of_lt since made.later, made.created⟩

/-- A definition of the name that is about to change its entry holds the lock. -/
private theorem Ordered.held_of_writes (ordered : Ordered cache name base trace pool)
    (here : pool.calls index = some running) (into : running.call.Into cache name)
    (writes : running.place.writes) : running.place.held?.isSome :=
  Place.held_of_writes ((ordered.calls index running here).locking into.1) writes

/-- What is listed after a step was published before, or was about to be. -/
private theorem mem_published {move : Move ρ MemoryContext} {artifact : Artifact}
    (listed : artifact ∈ published cache name (move :: trace)) :
    move.running.publishing? cache name = some artifact ∨ artifact ∈ published cache name trace := by
  rw [published_cons] at listed
  rcases List.mem_append.mp listed with now | before
  · exact .inl (Option.mem_toList.mp now)
  · exact .inr before

variable (ordered : Ordered cache name base trace pool) (rule : rules.Serialize cache base)
  (sound : pool.Sound rules.outside .any) (locked : pool.Locked)
  (here : pool.calls index = some running) (anchored : running.Anchored base pool.world)
  (advances : running.call.advance running.place = some turn) (ready : turn.ready pool.system)

include ordered here in
private theorem ordered_sorted (after : World) :
    (published cache name (⟨index, running, pool.world, after⟩ :: trace)).Pairwise
      fun later earlier => earlier.serial < later.serial := by
  rw [published_cons]
  cases publishing : running.publishing? cache name with
  | none => exact ordered.sorted
  | some artifact =>
    exact List.pairwise_cons.mpr
      ⟨ordered.pending index running artifact here publishing, ordered.sorted⟩

include ordered rule sound locked here advances ready in
private theorem ordered_pending (after : World) {other : Nat} {found : Running ρ MemoryContext}
    {artifact : Artifact}
    (there : (pool.put index { running with place := turn.next pool.system }
      (turn.act pool.system)).calls other = some found)
    (publishing : found.publishing? cache name = some artifact) :
    ∀ old ∈ published cache name (⟨index, running, pool.world, after⟩ :: trace),
      old.serial < artifact.serial := by
  intro old listed
  obtain ⟨into, lock, context, place⟩ := Running.publishing?_eq_some.mp publishing
  rcases calls_put there with ⟨rfl, rfl⟩ | ⟨different, before⟩
  · -- The artifact was loaded in this step, so it is newer than all that was created before.
    have goes : turn.next pool.system = .inside lock (.publish context artifact) := place
    have loaded : (turn.next pool.system).artifact? = some artifact := by rw [goes]; rfl
    have unpublished : (turn.next pool.system).published? = none := by rw [goes]; rfl
    rcases sound.loaded rule.toHosting here advances ready loaded with ⟨-, published⟩ | ⟨next, -, -⟩
    · rw [unpublished] at published
      cases published
    · have created : old.serial ≤ pool.world.created := by
        rcases mem_published listed with now | before
        · exact (ordered.bounded_publishing sound here now).2
        · exact (ordered.bounded old before).2
      omega
  · rcases mem_published listed with now | earlier
    · -- Two definitions of the name cannot publish at once.
      obtain ⟨into', lock', context', place'⟩ := Running.publishing?_eq_some.mp now
      have held := ordered.held_of_writes before into (by rw [place]; rfl)
      have held' := ordered.held_of_writes here into' (by rw [place']; rfl)
      exact absurd (locked.exclusive before here (into.1.trans into'.1.symm)
        (into.2.trans into'.2.symm) held held') different
    · exact ordered.pending other found artifact before publishing old earlier

include ordered locked here advances ready in
private theorem ordered_holder {after : World}
    (locked' : (pool.put index { running with place := turn.next pool.system }
      (turn.act pool.system)).Locked) {other : Nat} {found : Running ρ MemoryContext}
    (there : (pool.put index { running with place := turn.next pool.system }
      (turn.act pool.system)).calls other = some found)
    (into : found.call.Into cache name) (held : found.place.held?.isSome) :
    lastHolder? cache name (⟨index, running, pool.world, after⟩ :: trace) = some other := by
  rw [lastHolder?_cons]
  rcases calls_put there with ⟨rfl, rfl⟩ | ⟨different, before⟩
  · split
    · rfl
    · next unacquiring =>
      obtain ⟨lock, holds⟩ := Option.isSome_iff_exists.mp held
      obtain ⟨spares, keeps⟩ := locked.keeps other running here
      rcases running.call.held_of_advance spares keeps advances ready holds with already | place
      · exact ordered.holder other running here into (by rw [already]; rfl)
      · have acquiring : running.acquiring cache name :=
          Running.acquiring_iff.mpr ⟨into, lock, place⟩
        exact absurd acquiring unacquiring
  · split
    · next acquiring =>
      -- The lock would have two holders after the step.
      obtain ⟨into', lock, place⟩ := Running.acquiring_iff.mp acquiring
      rw [place] at advances
      cases advances
      have mine : (pool.put index { running with place := .inside (some lock) .mark }
        { pool.system with world := pool.world.acquire lock running.call.thread }).calls index =
          some { running with place := .inside (some lock) .mark } := replace_self ..
      exact absurd (locked'.exclusive there mine (into.1.trans into'.1.symm)
        (into.2.trans into'.2.symm) held rfl) different
    · exact ordered.holder other found before into held

include ordered rule sound locked here advances ready in
private theorem ordered_taken {after : World} {other : Nat} {found : Running ρ MemoryContext}
    (there : (pool.put index { running with place := turn.next pool.system }
      (turn.act pool.system)).calls other = some found)
    (into : found.call.Into cache name)
    (past : found.place.held?.isSome ∨ ∃ artifact, found.place.published? = some artifact) :
    ∃ move ∈ (⟨index, running, pool.world, after⟩ :: trace : List (Move ρ MemoryContext)),
      move.index = other ∧ move.running.acquiring cache name := by
  have before : ∀ {found}, pool.calls other = some found → found.call.Into cache name →
      (found.place.held?.isSome ∨ ∃ artifact, found.place.published? = some artifact) →
      ∃ move ∈ (⟨index, running, pool.world, after⟩ :: trace : List (Move ρ MemoryContext)),
        move.index = other ∧ move.running.acquiring cache name := by
    intro found there into past
    obtain ⟨move, listed, acquires⟩ := ordered.taken other found there into past
    exact ⟨move, List.mem_cons_of_mem _ listed, acquires⟩
  rcases calls_put there with ⟨rfl, rfl⟩ | ⟨-, there'⟩
  · rcases past with held | ⟨artifact, published⟩
    · obtain ⟨lock, holds⟩ := Option.isSome_iff_exists.mp held
      obtain ⟨spares, keeps⟩ := locked.keeps other running here
      rcases running.call.held_of_advance spares keeps advances ready holds with already | place
      · exact before here into (.inl (by rw [already]; rfl))
      · exact ⟨_, List.mem_cons_self, rfl, Running.acquiring_iff.mpr ⟨into, lock, place⟩⟩
    · rcases sound.loaded rule.toHosting here advances ready (Place.artifact_of_published published) with
        ⟨loaded, -⟩ | ⟨-, -, unpublished⟩
      · rcases Place.published_or loaded with already | ⟨lock, context, place⟩
        · exact before here into (.inr ⟨artifact, already⟩)
        · exact before here into (.inl (ordered.held_of_writes here into (by rw [place]; rfl)))
      · exact absurd (unpublished.symm.trans published) (by simp)
  · exact before there' into past

include ordered here in
private theorem ordered_last {after : World} {place : Place ρ MemoryContext} {system : System ρ}
    {other : Nat}
    (last : lastHolder? cache name (⟨index, running, pool.world, after⟩ :: trace) = some other) :
    ∃ found, (pool.put index { running with place } system).calls other = some found ∧
      found.call.Into cache name := by
  have mine : (pool.put index { running with place } system).calls index =
    some { running with place } := replace_self ..
  rw [lastHolder?_cons] at last
  split at last
  · next acquiring =>
    obtain rfl := Option.some.inj last
    exact ⟨_, mine, (Running.acquiring_iff.mp acquiring).1⟩
  · obtain ⟨found, there, into⟩ := ordered.last other last
    by_cases same : other = index
    · subst same
      obtain rfl := Option.some.inj (there.symm.trans here)
      exact ⟨_, mine, into⟩
    · exact ⟨found, (replace_of_ne _ _ same).trans there, into⟩

include ordered rule sound here anchored advances ready in
/-- What the last holder of the lock has published stays in a step that changes another entry. -/
private theorem ordered_latest_kept {after : World} {other : Nat}
    {found : Running ρ MemoryContext} {artifact : Artifact}
    (elsewhere : running.call.Into cache name → running.place.writes = false)
    (last : lastHolder? cache name trace = some other) (there : pool.calls other = some found)
    (published : found.place.published? = some artifact)
    (live : (turn.act pool.system).world.alive artifact) :
    ((turn.act pool.system).world.entries cache).get? name = some artifact ∧
      (Pool.published cache name (⟨index, running, pool.world, after⟩ :: trace)).head? =
        some artifact := by
  have keeps : pool.world.KeepsEntry cache name base (turn.act pool.system).world :=
    keepsEntry_advance rule sound here anchored advances ready elsewhere
  have made := (sound.calls other found there).artifact artifact
    (Place.artifact_of_published published)
  have later := Nat.lt_of_le_of_lt (ordered.calls other found there).since made.later
  have live' := keeps.alive artifact later made.created live
  obtain ⟨entry, head⟩ := ordered.latest other found artifact last there published live'
  refine ⟨keeps.entry artifact live' entry, ?_⟩
  rw [published_cons, Running.publishing?_of_writes elsewhere]
  exact head

include ordered rule sound here anchored advances ready in
private theorem ordered_latest {after : World} {other : Nat} {found : Running ρ MemoryContext}
    {artifact : Artifact}
    (last : lastHolder? cache name (⟨index, running, pool.world, after⟩ :: trace) = some other)
    (there : (pool.put index { running with place := turn.next pool.system }
      (turn.act pool.system)).calls other = some found)
    (published : found.place.published? = some artifact)
    (live : (turn.act pool.system).world.alive artifact) :
    ((turn.act pool.system).world.entries cache).get? name = some artifact ∧
      (Pool.published cache name (⟨index, running, pool.world, after⟩ :: trace)).head? =
        some artifact := by
  rw [lastHolder?_cons] at last
  rcases calls_put there with ⟨rfl, rfl⟩ | ⟨different, before⟩
  · have loaded : running.place.artifact? = some artifact := by
      rcases sound.loaded rule.toHosting here advances ready (Place.artifact_of_published published) with
        ⟨old, -⟩ | ⟨-, -, unpublished⟩
      · exact old
      · exact absurd (unpublished.symm.trans published) (by simp)
    have last' : lastHolder? cache name trace = some other := by
      split at last
      · next acquiring =>
        obtain ⟨-, lock, place⟩ := Running.acquiring_iff.mp acquiring
        rw [place] at loaded
        cases loaded
      · exact last
    rcases Place.published_or loaded with already | ⟨lock, context, place⟩
    · have writes := Place.writes_of_published already
      exact ordered_latest_kept ordered rule sound here anchored advances ready (fun _ => writes) last'
        here already live
    · obtain ⟨same, there', into⟩ := ordered.last other last'
      obtain rfl := Option.some.inj (there'.symm.trans here)
      refine ⟨?_, ?_⟩
      · have entry := entry_of_publish place advances pool.system
        rwa [into.1, into.2] at entry
      · rw [published_cons, Running.publishing?_eq_some.mpr ⟨into, lock, context, place⟩]
        rfl
  · have last' : lastHolder? cache name trace = some other := by
      split at last
      · exact absurd (Option.some.inj last).symm different
      · exact last
    have elsewhere : running.call.Into cache name → running.place.writes = false := by
      intro into
      cases writes : running.place.writes with
      | false => rfl
      | true =>
        have held := ordered.held_of_writes here into writes
        have holder := ordered.holder index running here into held
        exact absurd (Option.some.inj (last'.symm.trans holder)) different
    exact ordered_latest_kept ordered rule sound here anchored advances ready elsewhere last' before
      published live

end

/-! ### Every step -/

variable {rules : Rules ρ MemoryContext} {start : System ρ} {trace : List (Move ρ MemoryContext)}
  {pool pool' : Pool ρ MemoryContext} {move : Option (Move ρ MemoryContext)}

private theorem ordered_empty (start : System ρ) :
    Ordered cache name start.world.created [] (⟨start, fun _ => none⟩ : Pool ρ MemoryContext) where
  started := Nat.le_refl _
  calls _ _ here := by cases here
  bounded _ listed := by cases listed
  sorted := .nil
  pending _ _ _ here := by cases here
  holder _ _ here := by cases here
  taken _ _ here := by cases here
  last _ last := by cases last
  latest _ _ _ last := by cases last

private theorem ordered_begin (ordered : Ordered cache name base trace pool)
    (rule : rules.Serialize cache base) {index : Nat} {call : Call ρ MemoryContext}
    (unused : pool.calls index = none) (allowed : rules.begins call pool.world) :
    Ordered cache name base trace
      (pool.put index ⟨call, .check, pool.world.created⟩ pool.system) := by
  refine ⟨ordered.started, ?_, ordered.bounded, ordered.sorted, ?_, ?_, ?_, ?_, ?_⟩
  · intro other found there
    rcases calls_put there with ⟨-, rfl⟩ | ⟨-, before⟩
    · exact ⟨ordered.started, rule.serialize call _ allowed, fun _ => trivial⟩
    · exact ordered.calls other found before
  · intro other found artifact there publishing
    rcases calls_put there with ⟨-, rfl⟩ | ⟨-, before⟩
    · cases publishing
    · exact ordered.pending other found artifact before publishing
  · intro other found there into held
    rcases calls_put there with ⟨-, rfl⟩ | ⟨-, before⟩
    · cases held
    · exact ordered.holder other found before into held
  · intro other found there into past
    rcases calls_put there with ⟨-, rfl⟩ | ⟨-, before⟩
    · rcases past with held | ⟨artifact, published⟩
      · cases held
      · cases published
    · exact ordered.taken other found before into past
  · intro other last
    obtain ⟨found, there, into⟩ := ordered.last other last
    have different : other ≠ index := by
      rintro rfl
      rw [unused] at there
      cases there
    exact ⟨found, (replace_of_ne _ _ different).trans there, into⟩
  · intro other found artifact last there published live
    rcases calls_put there with ⟨-, rfl⟩ | ⟨-, before⟩
    · cases published
    · exact ordered.latest other found artifact last before published live

private theorem ordered_outside (ordered : Ordered cache name base trace pool)
    (rule : rules.Serialize cache base) (sound : pool.Sound rules.outside .any) {system : System ρ}
    (allowed : rules.outside pool.world system.world) :
    Ordered cache name base trace { pool with system } := by
  have keeps : pool.world.KeepsEntry cache name base system.world := rule.keepsEntry allowed
  refine ⟨Nat.le_trans ordered.started keeps.created, ordered.calls, ?_, ordered.sorted,
    ordered.pending, ordered.holder, ordered.taken, ordered.last, ?_⟩
  · intro artifact listed
    obtain ⟨later, created⟩ := ordered.bounded artifact listed
    exact ⟨later, Nat.le_trans created keeps.created⟩
  · intro index running artifact last here published live
    have made := (sound.calls index running here).artifact artifact
      (Place.artifact_of_published published)
    have later := Nat.lt_of_le_of_lt (ordered.calls index running here).since made.later
    have live' := keeps.alive artifact later made.created live
    obtain ⟨entry, head⟩ := ordered.latest index running artifact last here published live'
    exact ⟨keeps.entry artifact live' entry, head⟩

private theorem Ordered.step (ordered : Ordered cache name base trace pool)
    (rule : rules.Serialize cache base) (sound : pool.Sound rules.outside .any) (locked : pool.Locked)
    (next : Step rules pool move pool')
    (anchored : ∀ own ∈ move, own.running.Anchored base own.before) :
    Ordered cache name base (move.toList ++ trace) pool' := by
  have locked' := locked.step rule.keepLocks next
  cases next with
  | begin unused allowed => exact ordered_begin ordered rule unused allowed
  | outside allowed => exact ordered_outside ordered rule sound allowed
  | @advance index running turn here advances ready =>
    have serial := ordered.calls index running here
    have anchored : running.Anchored base pool.world := anchored _ rfl
    have mortal := mortal_advance rule sound here anchored advances ready
    refine ⟨?_, ?_, ?_, ?_, ?_, ?_, ?_, ?_, ?_⟩
    · exact Nat.le_trans ordered.started mortal.created
    · intro other found there
      rcases calls_put there with ⟨-, rfl⟩ | ⟨-, before⟩
      · refine ⟨serial.since, serial.serialize, fun same => ?_⟩
        obtain ⟨spares, keeps⟩ := locked.keeps index running here
        exact Call.locking_advance spares (serial.serialize same) keeps (serial.locking same)
          advances ready
      · exact ordered.calls other found before
    · intro artifact listed
      have before : base < artifact.serial ∧ artifact.serial ≤ pool.world.created := by
        rcases mem_published listed with now | earlier
        · exact ordered.bounded_publishing sound here now
        · exact ordered.bounded artifact earlier
      exact ⟨before.1, Nat.le_trans before.2 mortal.created⟩
    · exact ordered_sorted ordered here _
    · intro other found artifact there publishing
      exact ordered_pending ordered rule sound locked here advances ready _ there publishing
    · intro other found there into held
      exact ordered_holder ordered locked here advances ready locked' there into held
    · intro other found there into past
      exact ordered_taken ordered rule sound locked here advances ready there into past
    · intro other last
      exact ordered_last ordered here last
    · intro other found artifact last there published live
      exact ordered_latest ordered rule sound here anchored advances ready last there published live

theorem Run.ordered (rule : rules.Serialize cache start.world.created)
    (fresh : start.world.FreshContexts) (grounded : start.world.Grounded) (name : Name)
    (run : Run rules start trace pool)
    (anchored : ∀ move ∈ trace, move.running.Anchored start.world.created move.before) :
    Ordered cache name start.world.created trace pool := by
  induction run with
  | start => exact ordered_empty start
  | step before next ih =>
    have ordered := ih fun move listed => anchored move (List.mem_append_right _ listed)
    have sound := before.sound rule.toHosting fresh grounded
    exact ordered.step rule sound (before.locked rule.keepLocks) next fun own same =>
      anchored own (List.mem_append_left _ (Option.mem_toList.mpr same))

/-- No two definitions of one name into one cache hold a definition lock. -/
def Exclusive {κ : Type} (pool : Pool ρ κ) : Prop :=
  ∀ index other first second, pool.calls index = some first → pool.calls other = some second →
    first.call.loader.cache = second.call.loader.cache → first.call.name = second.call.name →
    first.place.held?.isSome → second.place.held?.isSome → index = other

/-- The definitions of a name into a cache came one after the other. -/
structure Serialized (cache : CacheId) (name : Name) (trace : List (Move ρ MemoryContext))
    (pool : Pool ρ MemoryContext) : Prop where
  /-- Each artifact that was published has a higher id than those before it. -/
  increasing : (published cache name trace).Pairwise fun later earlier => earlier.id < later.id
  /-- A definition that has given an artifact had taken the lock. -/
  taken : ∀ index running artifact, pool.calls index = some running →
    running.call.Into cache name → running.place = .ended (.ok (.ok artifact)) →
    ∃ move ∈ trace, move.index = index ∧ move.running.acquiring cache name
  /-- If the last definition that took the lock has given its artifact, that is found for as long as
      something holds it, and has the highest id of all. -/
  latest : ∀ index running artifact, lastHolder? cache name trace = some index →
    pool.calls index = some running → running.place = .ended (.ok (.ok artifact)) →
    pool.world.alive artifact →
    (pool.world.lookup cache name).1 = some artifact ∧ artifact ∈ published cache name trace ∧
      ∀ old ∈ published cache name trace, old ≠ artifact → old.id < artifact.id

private theorem Ordered.serialized (ordered : Ordered cache name base trace pool)
    (bounded : pool.world.created < 2 ^ 64) : Serialized cache name trace pool := by
  have increasing :
      (published cache name trace).Pairwise fun later earlier => earlier.id < later.id := by
    refine ordered.sorted.imp_of_mem fun {later earlier} listed _ less => ?_
    have created := (ordered.bounded later listed).2
    exact Artifact.id_lt_id less (by omega)
  refine ⟨increasing, ?_, ?_⟩
  · intro index running artifact here into ended
    exact ordered.taken index running here into (.inr ⟨artifact, by rw [ended]; rfl⟩)
  · intro index running artifact last here ended live
    have given : running.place.published? = some artifact := by rw [ended]; rfl
    obtain ⟨entry, head⟩ := ordered.latest index running artifact last here given live
    obtain ⟨rest, listed⟩ := List.head?_eq_some_iff.mp head
    rw [listed] at increasing ⊢
    refine ⟨?_, List.mem_cons_self, ?_⟩
    · rw [World.lookup_eq]
      exact Option.filter_eq_some_iff.mpr ⟨entry, live⟩
    · intro old member different
      have earlier := (List.mem_cons.mp member).resolve_left different
      exact (List.pairwise_cons.mp increasing).1 old earlier

/-- Definitions of one name into one cache that serialize never hold the definition lock at once,
    whatever their callbacks are and whoever else asks for locks. So, in memory, they publish artifacts
    with ascending ids, and the last one to take the lock has the last word, whatever their packers
    give. -/
theorem define_ordered :
    (∀ {ρ κ : Type} {rules : Rules ρ κ} {start : System ρ} {trace : List (Move ρ κ)}
      {pool : Pool ρ κ}, rules.KeepLocks → Run rules start trace pool → pool.Exclusive) ∧
    ∀ {ρ : Type} {rules : Rules ρ MemoryContext} {cache : CacheId} {start : System ρ}
      {trace : List (Move ρ MemoryContext)} {pool : Pool ρ MemoryContext},
      rules.Serialize cache start.world.created → start.world.FreshContexts →
      start.world.Grounded → Run rules start trace pool →
      (∀ move ∈ trace, move.running.Anchored start.world.created move.before) →
      pool.world.created < 2 ^ 64 → ∀ name, Serialized cache name trace pool := by
  constructor
  · intro ρ κ rules start trace pool keep run index other first second here there cache name held held'
    exact (run.locked keep).exclusive here there cache name held held'
  · intro ρ rules cache start trace pool rule fresh grounded run anchored bounded name
    exact (run.ordered rule fresh grounded name anchored).serialized bounded

/-- Three definitions of a name that begin at once: one whose packer follows settings, one whose packer
    refuses the unit for a cause of its own, and one whose packer takes the raw unit for the image. -/
theorem define_ordered_other_packers :
    let unit : Artifact := ⟨1, ⟨"a", by decide⟩, 0, .nothing⟩
    let call (thread : Nat) (packer : Packer Unit) (raw : Bytes) : Call Unit MemoryContext :=
      ⟨{ (Loader.linkedBehind unit).inMemory with packer }, ⟨thread⟩, unit.name, raw⟩
    let image : Bytes :=
      [0x48, 0x53, 0x49, 0x31, 0, 26, 0, 1, 0x61, 0, 0, 0, 1, 7, 0x88, 0x7B, 0x69, 0x44]
    let packing := call 0 (.standard {}) [0x48, 0x53, 0x55, 0x31, 0, 0, 7]
    let refusing := call 1 ⟨fun _ _ _ => throw .emptyResult⟩ []
    let handing := call 2 ⟨fun _ _ raw => pure raw⟩ image
    ∃ trace pool theirs artifact,
      Run (Rules.serialized .processWide 1) ⟨{ created := 1, held := [1] }, ()⟩ trace pool ∧
        pool.calls 0 = some ⟨packing, .ended (.ok (.ok theirs)), 1⟩ ∧
        pool.calls 1 = some ⟨refusing, .ended (.ok (.error ⟨unit.name, .emptyResult⟩)), 1⟩ ∧
        pool.calls 2 = some ⟨handing, .ended (.ok (.ok artifact)), 1⟩ ∧
        pool.Exclusive ∧ Serialized .processWide unit.name trace pool ∧
        published .processWide unit.name trace = [artifact, theirs] ∧
        (pool.world.lookup .processWide unit.name).1 = some artifact := by
  intro unit call image packing refusing handing
  let start : System Unit := ⟨{ created := 1, held := [1] }, ()⟩
  let one : Pool Unit MemoryContext := Pool.put ⟨start, fun _ => none⟩ 0 ⟨packing, .check, 1⟩ start
  let two : Pool Unit MemoryContext := one.put 1 ⟨refusing, .check, 1⟩ start
  let three : Pool Unit MemoryContext := two.put 2 ⟨handing, .check, 1⟩ start
  let theirs : Artifact := ⟨2, unit.name, image.length, .body [7]⟩
  let artifact : Artifact := ⟨3, unit.name, image.length, .body [7]⟩
  -- The definitions look for a marker and take the lock in turns, and wait for it then.
  let schedule : List Nat := [0, 1, 2, 0, 1, 2] ++ List.replicate 13 0 ++ List.replicate 10 1 ++
    List.replicate 13 2
  have ends : (three.follow schedule).any (fun ended =>
      (∀ index ∈ schedule, (ended.2.calls index).all fun running =>
        (running.call.advance running.place).isNone) ∧
      (ended.2.calls 0).all (·.place.ending? = some (.ok (.ok theirs))) ∧
      (ended.2.calls 1).all (·.place.ending? = some (.ok (.error ⟨unit.name, .emptyResult⟩))) ∧
      (ended.2.calls 2).all (·.place.ending? = some (.ok (.ok artifact))) ∧
      (∀ move ∈ ended.1, ∀ old ∈ move.running.call.loader.resolver.artifacts, old.serial ≤ 1) ∧
      ended.2.world.created = 3 ∧ ended.2.world.alive artifact ∧
      published .processWide unit.name ended.1 = [artifact, theirs] ∧
      lastHolder? .processWide unit.name ended.1 = some 2) = true := by decide +kernel
  obtain ⟨⟨trace, pool⟩, followed, facts⟩ := (Option.any_eq_true _ _).mp ends
  obtain ⟨still, packed, refused, handed, first, created, live, both, last⟩ :=
    of_decide_eq_true facts
  have ancestors := Loader.linkedBehind_ancestors unit
  have allowed (thread : Nat) (packer : Packer Unit) (raw : Bytes)
      (packs : ∃ packed, (packer.pack ⟨thread⟩ unit.name raw).run.run = .done packed) :
      (Rules.serialized .processWide 1).begins (call thread packer raw) start.world :=
    ⟨⟨_, rfl⟩, .last packs, fun _ => rfl, ancestors⟩
  have begins₀ : Run (Rules.serialized .processWide 1) start [] one :=
    .step .start (.begin rfl (allowed _ _ _ ⟨_, rfl⟩))
  have begins₁ : Run (Rules.serialized .processWide 1) start [] two :=
    .step begins₀ (.begin rfl (allowed _ _ _ ⟨_, rfl⟩))
  have begins : Run (Rules.serialized .processWide 1) start [] three :=
    .step begins₁ (.begin rfl (allowed _ _ _ ⟨_, rfl⟩))
  have run : Run (Rules.serialized .processWide 1) start trace pool := by
    simpa using begins.follow followed
  have settled : pool.Settled := by
    refine settled_of_follow followed (fun index unlisted => ?_) still
    have others : index ≠ 2 ∧ index ≠ 1 ∧ index ≠ 0 := by
      refine ⟨?_, ?_, ?_⟩ <;> (rintro rfl; simp [schedule] at unlisted)
    rw [put_calls_of_ne _ _ _ others.1, put_calls_of_ne _ _ _ others.2.1,
      put_calls_of_ne _ _ _ others.2.2]
  have ended : ∀ {index call since ending}, three.calls index = some ⟨call, .check, since⟩ →
      (pool.calls index).all (·.place.ending? = some ending) →
      pool.calls index = some ⟨call, .ended ending, since⟩ := by
    intro index call since ending begun told
    obtain ⟨place, here⟩ := exists_place_of_follow followed begun
    obtain ⟨ending, rfl⟩ := settled index _ here
    rw [here] at told
    obtain rfl := Option.some.inj (of_decide_eq_true told)
    exact here
  have anchored : ∀ move ∈ trace, move.running.Anchored 1 move.before := by
    intro move listed old held later
    exact absurd (first move listed old held) (Nat.not_le.mpr later)
  have serialized := define_ordered.2 (Rules.serialize_serialized .processWide 1) (fun _ _ => rfl)
    (fun _ _ _ entry => by cases entry) run anchored (by rw [created]; decide) unit.name
  have there := ended rfl handed
  exact ⟨trace, pool, theirs, artifact, run, ended rfl packed, ended rfl refused, there,
    define_ordered.1 (Rules.serialize_serialized .processWide 1).keepLocks run, serialized, both,
    (serialized.latest 2 _ artifact last there rfl live).1⟩

end Pool

end Reload
