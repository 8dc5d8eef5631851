import Reload.Proofs.Concurrent.Pool

/-!
Definition locks exclude. Whatever definitions run beside each other, no two of one name into one
cache are past the same definition lock at once, and no two that serialize are past any
(`Run.locked`, `Locked.exclusive`). The set of locks is pruned all the time; what carries the proof is
that the lock of a definition is in its set for as long as the definition has a handle to it.
-/

namespace Reload

/-! ### Changes that spare the locks -/

/-- A change that takes no lock with a handle out of its set, frees no lock, and drops no handle. -/
structure World.KeepsLocks (w w' : World) : Prop where
  table : ∀ set name lock, (w.locks set).get? name = some lock → w.hasHandle lock →
    (w'.locks set).get? name = some lock
  busy : ∀ lock, w.isFree lock = false → w'.isFree lock = false
  handles : ∀ lock, w.handles.count lock ≤ w'.handles.count lock

theorem World.KeepsLocks.of_eq {w w' : World} (locks : w'.locks = w.locks) (lock : w'.lock = w.lock)
    (handles : w'.handles = w.handles) : w.KeepsLocks w' where
  table set name lock entry _ := by rw [locks]; exact entry
  busy lock held := by rw [isFree, ‹w'.lock = w.lock›]; exact held
  handles lock := Nat.le_of_eq (by rw [handles])

variable {ρ κ α : Type}

/-- A program that keeps the locks with every step, and ends. -/
def Program.KeepsLocks (program : Program (System ρ) α) : Prop :=
  program.Until (fun s s' => s.world.KeepsLocks s'.world) fun last => ∃ value, last = .done value

/-- A definition whose callbacks keep the locks. -/
structure Call.KeepsLocks (call : Call ρ κ) : Prop where
  pack : (call.loader.packer.pack call.thread call.name call.raw).run.run.KeepsLocks
  instantiate : ∀ image,
    (call.loader.host.instantiate call.thread image call.loader.resolver).run.run.KeepsLocks
  load : ∀ context, (call.loader.host.load call.thread context call.name).run.run.KeepsLocks
  close : ∀ context (w : World), w.KeepsLocks (call.loader.host.close context w)

def Place.KeepsLocks : Place ρ κ → Prop
  | .inside _ (.pack turn) => turn.program.KeepsLocks
  | .inside _ (.instantiate turn) => turn.program.KeepsLocks
  | .inside _ (.load _ turn) => turn.program.KeepsLocks
  | _ => True

/-! ### Handles and locks at the places -/

/-- The definition lock that a definition has a handle to. -/
def Place.handle? : Place ρ κ → Option LockId
  | .check | .take | .ended _ => none
  | .wait lock | .unlock lock _ | .drop lock _ => some lock
  | .inside lock _ => lock

/-- The definition lock that a definition holds. -/
def Place.held? : Place ρ κ → Option LockId
  | .check | .take | .wait _ | .drop _ _ | .ended _ => none
  | .unlock lock _ => some lock
  | .inside lock _ => lock

theorem Place.handle?_of_held? {place : Place ρ κ} {lock : LockId}
    (held : place.held? = some lock) : place.handle? = some lock := by
  cases place with
  | check | take | wait | drop | ended => cases held
  | inside => exact held
  | unlock => exact held

/-- A place that a definition goes to from inside. -/
structure Place.Inner (lock : Option LockId) (place : Place ρ κ) : Prop where
  handle : place.handle? = lock
  held : place.held? = lock
  keeps : place.KeepsLocks

namespace Call

variable (call : Call ρ κ)

private theorem inner_atLeaving (lock : Option LockId) (ending : Ending) :
    (atLeaving ending lock : Place ρ κ).Inner lock := by
  cases lock <;> exact ⟨rfl, rfl, trivial⟩

private theorem inner_atReporting (lock : Option LockId) (ending : Ending) (notes : List Note) :
    (atReporting lock ending notes : Place ρ κ).Inner lock := by
  cases notes with
  | nil => exact inner_atLeaving lock ending
  | cons first others => exact ⟨rfl, rfl, trivial⟩

private theorem inner_atLoaded (lock : Option LockId) (context : κ)
    (loaded : Except Panic (Except Failure (Option Artifact))) :
    (atLoaded lock context loaded : Place ρ κ).Inner lock := by
  rcases loaded with panic | cause | _ | artifact <;> exact ⟨rfl, rfl, trivial⟩

private theorem inner_atLoading (lock : Option LockId) (context : κ)
    {program : Program (System ρ) (Except Panic (Except Failure (Option Artifact)))}
    (keeps : program.KeepsLocks) : (atLoading lock context program).Inner lock := by
  cases program with
  | done loaded => exact inner_atLoaded lock context loaded
  | step ready act next => exact ⟨rfl, rfl, keeps⟩

/-- From the first step on, a definition asks for a lock only if it serializes. -/
private theorem inner_atChecked (w : World) :
    (match w.marker call.thread with
      | some running => call.atReport none (.ok (.error (.inFlight running)))
      | none => if call.loader.settings.serialize then .take else .inside none .mark :
        Place ρ κ).Inner none := by
  split
  · exact inner_atReporting none _ _
  · split <;> exact ⟨rfl, rfl, trivial⟩

variable {call}

private theorem inner_atInstantiated (spares : call.KeepsLocks) (lock : Option LockId)
    (instantiated : Except Panic (Except Failure κ)) :
    (call.atInstantiated lock instantiated).Inner lock := by
  rcases instantiated with panic | cause | context
  · exact ⟨rfl, rfl, trivial⟩
  · exact ⟨rfl, rfl, trivial⟩
  · exact inner_atLoading lock context (spares.load context)

private theorem inner_atInstantiating (spares : call.KeepsLocks) (lock : Option LockId)
    {program : Program (System ρ) (Except Panic (Except Failure κ))}
    (keeps : program.KeepsLocks) : (call.atInstantiating lock program).Inner lock := by
  cases program with
  | done instantiated => exact inner_atInstantiated spares lock instantiated
  | step ready act next => exact ⟨rfl, rfl, keeps⟩

private theorem inner_atPacked (spares : call.KeepsLocks) (lock : Option LockId)
    (packed : Except Panic (Except Failure Bytes)) : (call.atPacked lock packed).Inner lock := by
  rcases packed with panic | cause | image
  · exact ⟨rfl, rfl, trivial⟩
  · exact ⟨rfl, rfl, trivial⟩
  · exact inner_atInstantiating spares lock (spares.instantiate image)

private theorem inner_atPacking (spares : call.KeepsLocks) (lock : Option LockId)
    {program : Program (System ρ) (Except Panic (Except Failure Bytes))}
    (keeps : program.KeepsLocks) : (call.atPacking lock program).Inner lock := by
  cases program with
  | done packed => exact inner_atPacked spares lock packed
  | step ready act next => exact ⟨rfl, rfl, keeps⟩

private theorem inner_atNoting (spares : call.KeepsLocks) (lock : Option LockId)
    (notes : List Note) : (call.atNoting lock notes).Inner lock := by
  cases notes with
  | nil => exact inner_atPacking spares lock spares.pack
  | cons first others => exact ⟨rfl, rfl, trivial⟩

end Call

theorem Program.KeepsLocks.turn {turn : Turn (System ρ) (Program (System ρ) α)}
    (keeps : turn.program.KeepsLocks) {s : System ρ} (ready : turn.ready s) :
    s.world.KeepsLocks (turn.act s).world ∧ (turn.next s).KeepsLocks := by
  cases keeps with
  | last here =>
    obtain ⟨value, done⟩ := here
    cases done
  | step related rest => exact ⟨related s ready, rest s⟩

theorem Note.keepsLocks (note : Note) (counters : CountersId) (w : World) :
    w.KeepsLocks (note.apply counters w) := by
  cases note <;> exact .of_eq rfl rfl rfl

/-- A step inside keeps the locks, and goes to a place inside, or to the unlocking. -/
theorem Call.advanceStage_keepsLocks {call : Call ρ κ} (spares : call.KeepsLocks)
    {lock : Option LockId} {stage : Stage ρ κ} (keeps : (Place.inside lock stage).KeepsLocks)
    {s : System ρ} (ready : (call.advanceStage lock stage).ready s) :
    s.world.KeepsLocks ((call.advanceStage lock stage).act s).world ∧
      ((call.advanceStage lock stage).next s).Inner lock := by
  cases stage with
  | mark =>
    have change : s.world.KeepsLocks (s.world.mark call.thread call.name).2 := by
      unfold World.mark
      split <;> exact .of_eq rfl rfl rfl
    refine ⟨change, ?_⟩
    simp only [advanceStage]
    split
    · exact inner_atReporting lock _ _
    · exact ⟨rfl, rfl, trivial⟩
  | forget => exact ⟨.of_eq rfl rfl rfl, inner_atNoting spares lock _⟩
  | note first others => exact ⟨first.keepsLocks _ _, inner_atNoting spares lock others⟩
  | pack turn =>
    obtain ⟨change, rest⟩ := Program.KeepsLocks.turn keeps ready
    exact ⟨change, inner_atPacking spares lock rest⟩
  | instantiate turn =>
    obtain ⟨change, rest⟩ := Program.KeepsLocks.turn keeps ready
    exact ⟨change, inner_atInstantiating spares lock rest⟩
  | load context turn =>
    obtain ⟨change, rest⟩ := Program.KeepsLocks.turn keeps ready
    exact ⟨change, inner_atLoading lock context rest⟩
  | publish context artifact => exact ⟨.of_eq rfl rfl rfl, rfl, rfl, trivial⟩
  | close context result => exact ⟨spares.close context s.world, rfl, rfl, trivial⟩
  | unmark result => exact ⟨.of_eq rfl rfl rfl, inner_atReporting lock _ _⟩
  | report first others ending => exact ⟨first.keepsLocks _ _, inner_atReporting lock ending others⟩

/-- A definition gets hold of a lock by taking it, and in no other way. -/
theorem Call.held_of_advance {call : Call ρ κ} (spares : call.KeepsLocks) {place : Place ρ κ}
    (keeps : place.KeepsLocks) {turn : Turn (System ρ) (Place ρ κ)}
    (advances : call.advance place = some turn) {s : System ρ} (ready : turn.ready s)
    {lock : LockId} (held : (turn.next s).held? = some lock) :
    place.held? = some lock ∨ place = .wait lock := by
  cases place with
  | check =>
    cases advances
    exact absurd (held.symm.trans (call.inner_atChecked s.world).held) (by simp)
  | take =>
    cases advances
    cases held
  | wait taken =>
    cases advances
    cases held
    exact .inr rfl
  | inside taken stage =>
    cases advances
    obtain ⟨-, inner⟩ := Call.advanceStage_keepsLocks spares keeps ready
    exact .inl (inner.held.symm.trans held)
  | unlock taken ending =>
    cases advances
    cases held
  | drop taken ending =>
    cases advances
    cases held
  | ended ending => cases advances

/-! ### The invariant -/

namespace Pool

def HasHandle (pool : Pool ρ κ) (lock : LockId) (index : Nat) : Prop :=
  ∃ running, pool.calls index = some running ∧ running.place.handle? = some lock

def Holds (pool : Pool ρ κ) (lock : LockId) (index : Nat) : Prop :=
  ∃ running, pool.calls index = some running ∧ running.place.held? = some lock

/-- What holds of the locks and handles in every pool. -/
structure Locked (pool : Pool ρ κ) : Prop where
  keeps : ∀ index running, pool.calls index = some running →
    running.call.KeepsLocks ∧ running.place.KeepsLocks
  /-- The lock of a definition is in the set for its name. -/
  tabled : ∀ index running lock, pool.calls index = some running →
    running.place.handle? = some lock →
    (pool.world.locks running.call.loader.cache.locks).get? running.call.name = some lock
  /-- Each definition has a handle of its own. -/
  counted : ∀ lock (indices : List Nat), indices.Nodup →
    (∀ index ∈ indices, pool.HasHandle lock index) →
    indices.length ≤ pool.world.handles.count lock
  /-- A lock that a definition holds is not free. -/
  busy : ∀ lock index, pool.Holds lock index → pool.world.isFree lock = false
  alone : ∀ lock index other, pool.Holds lock index → pool.Holds lock other → index = other

theorem Locked.hasHandle {pool : Pool ρ κ} (locked : pool.Locked) {lock : LockId} {index : Nat}
    (handle : pool.HasHandle lock index) : pool.world.hasHandle lock := by
  have counted := locked.counted lock [index] (by simp) (by simpa using handle)
  rw [World.hasHandle, List.contains_iff_mem]
  exact List.count_pos_iff.mp counted

/-- The invariant goes over to a pool in which every handle and every held lock was there before. -/
theorem Locked.transfer {pool pool' : Pool ρ κ} (locked : pool.Locked)
    (change : pool.world.KeepsLocks pool'.world)
    (keeps : ∀ index running, pool'.calls index = some running →
      running.call.KeepsLocks ∧ running.place.KeepsLocks)
    (handle : ∀ index running lock, pool'.calls index = some running →
      running.place.handle? = some lock → ∃ before, pool.calls index = some before ∧
        before.call = running.call ∧ before.place.handle? = some lock)
    (held : ∀ index lock, pool'.Holds lock index → pool.Holds lock index) : pool'.Locked where
  keeps := keeps
  tabled index running lock here hasLock := by
    obtain ⟨before, there, sameCall, hadLock⟩ := handle index running lock here hasLock
    have entry := locked.tabled index before lock there hadLock
    rw [sameCall] at entry
    exact change.table _ _ lock entry (locked.hasHandle ⟨before, there, hadLock⟩)
  counted lock indices distinct holders := by
    refine Nat.le_trans (locked.counted lock indices distinct fun index member => ?_)
      (change.handles lock)
    obtain ⟨running, here, hasLock⟩ := holders index member
    obtain ⟨before, there, -, hadLock⟩ := handle index running lock here hasLock
    exact ⟨before, there, hadLock⟩
  busy lock index holds := change.busy lock (locked.busy lock index (held index lock holds))
  alone lock index other holds holds' :=
    locked.alone lock index other (held index lock holds) (held other lock holds')

theorem locked_empty (start : System ρ) : (⟨start, fun _ => none⟩ : Pool ρ κ).Locked where
  keeps _ _ here := by cases here
  tabled _ _ _ here := by cases here
  counted lock indices _ holders := by
    cases indices with
    | nil => exact Nat.zero_le _
    | cons index rest =>
      obtain ⟨_, here, _⟩ := holders index (by simp)
      cases here
  busy _ _ holds := by
    obtain ⟨_, here, _⟩ := holds
    cases here
  alone _ _ _ holds := by
    obtain ⟨_, here, _⟩ := holds
    cases here

/-! ### The steps -/

variable {pool : Pool ρ κ} {index : Nat} {running : Running ρ κ}

theorem holds_put {place : Place ρ κ} {system : System ρ} {lock : LockId} {other : Nat}
    (holds : (pool.put index { running with place } system).Holds lock other) :
    (other = index ∧ place.held? = some lock) ∨ (other ≠ index ∧ pool.Holds lock other) := by
  obtain ⟨found, here, held⟩ := holds
  rcases calls_put here with ⟨same, rfl⟩ | ⟨different, there⟩
  · exact .inl ⟨same, held⟩
  · exact .inr ⟨different, found, there, held⟩

theorem hasHandle_put {place : Place ρ κ} {system : System ρ} {lock : LockId} {other : Nat}
    (handle : (pool.put index { running with place } system).HasHandle lock other) :
    (other = index ∧ place.handle? = some lock) ∨ (other ≠ index ∧ pool.HasHandle lock other) := by
  obtain ⟨found, here, hasLock⟩ := handle
  rcases calls_put here with ⟨same, rfl⟩ | ⟨different, there⟩
  · exact .inl ⟨same, hasLock⟩
  · exact .inr ⟨different, found, there, hasLock⟩

private theorem keeps_put (locked : pool.Locked) (here : pool.calls index = some running)
    {place : Place ρ κ} {system : System ρ} (keeps : place.KeepsLocks) :
    ∀ other found, (pool.put index { running with place } system).calls other = some found →
      found.call.KeepsLocks ∧ found.place.KeepsLocks := by
  intro other found there
  rcases calls_put there with ⟨-, rfl⟩ | ⟨-, before⟩
  · exact ⟨(locked.keeps index running here).1, keeps⟩
  · exact locked.keeps other found before

theorem Locked.put (locked : pool.Locked) (here : pool.calls index = some running)
    {place : Place ρ κ} {system : System ρ} (change : pool.world.KeepsLocks system.world)
    (keeps : place.KeepsLocks)
    (handle : ∀ lock, place.handle? = some lock → running.place.handle? = some lock)
    (held : ∀ lock, place.held? = some lock → running.place.held? = some lock) :
    (pool.put index { running with place } system).Locked := by
  refine locked.transfer change (keeps_put locked here keeps) ?_ ?_
  · intro other found lock there hasLock
    rcases calls_put there with ⟨rfl, rfl⟩ | ⟨-, before⟩
    · exact ⟨running, here, rfl, handle lock hasLock⟩
    · exact ⟨found, before, rfl, hasLock⟩
  · intro other lock holds
    rcases holds_put holds with ⟨rfl, holdsLock⟩ | ⟨-, before⟩
    · exact ⟨running, here, held lock holdsLock⟩
    · exact before

/-- Asking for a lock leaves every lock with a handle where it is, and adds one handle. -/
private theorem locked_take (locked : pool.Locked) (here : pool.calls index = some running) :
    (pool.put index
      { running with
        place := .wait
          (pool.world.lockFor running.call.loader.cache.locks running.call.name).1 }
      { pool.system with
        world :=
          (pool.world.lockFor running.call.loader.cache.locks running.call.name).2 }).Locked where
  keeps := keeps_put locked here trivial
  tabled other found lock there hasLock := by
    rcases calls_put there with ⟨rfl, rfl⟩ | ⟨-, before⟩
    · obtain rfl := Option.some.inj hasLock
      exact (World.get?_lockFor ..).trans (if_pos rfl)
    · have entry := locked.tabled other found lock before hasLock
      have handle := locked.hasHandle ⟨found, before, hasLock⟩
      by_cases sameSet : found.call.loader.cache.locks = running.call.loader.cache.locks
      · show ((pool.world.lockFor _ _).2.locks _).get? _ = _
        rw [sameSet] at entry ⊢
        rw [World.get?_lockFor]
        by_cases sameName : found.call.name = running.call.name
        · rw [sameName] at entry
          rw [if_pos sameName, World.lockFor_of_hasHandle entry handle]
        · rw [if_neg sameName, entry]
          exact Option.filter_eq_some_iff.mpr ⟨rfl, handle⟩
      · show ((pool.world.lockFor _ _).2.locks _).get? _ = _
        rw [World.locks_lockFor_of_ne _ _ sameSet]
        exact entry
  counted lock indices distinct holders := by
    show indices.length ≤ (pool.world.lockFor _ _).2.handles.count lock
    rw [World.lockFor_handles]
    have others : ∀ other ∈ indices.erase index, pool.HasHandle lock other := by
      intro other member
      obtain ⟨different, listed⟩ := distinct.mem_erase_iff.mp member
      exact ((hasHandle_put (holders other listed)).resolve_left fun same => different same.1).2
    -- The others have their handles from before, and the new one comes on top.
    have before := locked.counted lock (indices.erase index) (distinct.erase index) others
    by_cases listed : index ∈ indices
    · have handed : (pool.world.lockFor running.call.loader.cache.locks running.call.name).1 =
          lock := by
        rcases hasHandle_put (holders index listed) with ⟨-, hasLock⟩ | ⟨different, -⟩
        · exact Option.some.inj hasLock
        · exact absurd rfl different
      rw [List.length_erase_of_mem listed] at before
      rw [handed, List.count_cons_self]
      omega
    · rw [List.erase_of_not_mem listed] at before
      exact Nat.le_trans before List.count_le_count_cons
  busy lock other holds := by
    show ((pool.world.lockFor _ _).2.lock lock).holder.isNone = false
    rw [World.lockFor_lock]
    rcases holds_put holds with ⟨-, held⟩ | ⟨-, before⟩
    · cases held
    · exact locked.busy lock other before
  alone lock first second holds holds' := by
    rcases holds_put holds with ⟨-, held⟩ | ⟨-, before⟩
    · cases held
    · rcases holds_put holds' with ⟨-, held⟩ | ⟨-, before'⟩
      · cases held
      · exact locked.alone lock first second before before'

/-- A free lock is held by no definition, so whoever takes it holds it alone. -/
private theorem locked_acquire (locked : pool.Locked) (here : pool.calls index = some running)
    {lock : LockId} (place : running.place = .wait lock) (free : pool.world.isFree lock) :
    (pool.put index { running with place := .inside (some lock) .mark }
      { pool.system with world := pool.world.acquire lock running.call.thread }).Locked := by
  have unheld : ∀ other, ¬pool.Holds lock other := by
    intro other holds
    rw [locked.busy lock other holds] at free
    cases free
  refine ⟨keeps_put locked here trivial, ?_, ?_, ?_, ?_⟩
  · intro other found taken there hasLock
    rcases calls_put there with ⟨rfl, rfl⟩ | ⟨-, before⟩
    · exact locked.tabled other running taken here (by rw [place]; exact hasLock)
    · exact locked.tabled other found taken before hasLock
  · intro taken indices distinct holders
    refine locked.counted taken indices distinct fun other member => ?_
    rcases hasHandle_put (holders other member) with ⟨rfl, hasLock⟩ | ⟨-, before⟩
    · exact ⟨running, here, by rw [place]; exact hasLock⟩
    · exact before
  · intro taken other holds
    by_cases same : taken = lock
    · rw [same]
      show ((replace pool.world.lock lock _ lock).holder.isNone) = false
      rw [replace_self]
      rfl
    · show ((replace pool.world.lock lock _ taken).holder.isNone) = false
      rw [replace_of_ne _ _ same]
      rcases holds_put holds with ⟨-, held⟩ | ⟨-, before⟩
      · exact absurd (Option.some.inj held).symm same
      · exact locked.busy taken other before
  · intro taken first second holds holds'
    rcases holds_put holds with ⟨rfl, held⟩ | ⟨-, before⟩ <;>
      rcases holds_put holds' with ⟨rfl, held'⟩ | ⟨-, before'⟩
    · rfl
    · exact absurd (Option.some.inj held ▸ before') (unheld second)
    · exact absurd (Option.some.inj held' ▸ before) (unheld first)
    · exact locked.alone taken first second before before'

private theorem locked_unlock (locked : pool.Locked) (here : pool.calls index = some running)
    {lock : LockId} {ending : Ending} (place : running.place = .unlock lock ending) :
    (pool.put index { running with place := .drop lock ending }
      { pool.system with world := pool.world.unlock lock ending.panicked }).Locked := by
  have own : pool.Holds lock index := ⟨running, here, by rw [place]; rfl⟩
  refine ⟨keeps_put locked here trivial, ?_, ?_, ?_, ?_⟩
  · intro other found taken there hasLock
    rcases calls_put there with ⟨rfl, rfl⟩ | ⟨-, before⟩
    · exact locked.tabled other running taken here (by rw [place]; exact hasLock)
    · exact locked.tabled other found taken before hasLock
  · intro taken indices distinct holders
    refine locked.counted taken indices distinct fun other member => ?_
    rcases hasHandle_put (holders other member) with ⟨rfl, hasLock⟩ | ⟨-, before⟩
    · exact ⟨running, here, by rw [place]; exact hasLock⟩
    · exact before
  · intro taken other holds
    rcases holds_put holds with ⟨-, held⟩ | ⟨different, before⟩
    · cases held
    · have elsewhere : taken ≠ lock := by
        rintro rfl
        exact different (locked.alone taken other index before own)
      show ((replace pool.world.lock lock _ taken).holder.isNone) = false
      rw [replace_of_ne _ _ elsewhere]
      exact locked.busy taken other before
  · intro taken first second holds holds'
    rcases holds_put holds with ⟨-, held⟩ | ⟨-, before⟩
    · cases held
    · rcases holds_put holds' with ⟨-, held'⟩ | ⟨-, before'⟩
      · cases held'
      · exact locked.alone taken first second before before'

private theorem locked_drop (locked : pool.Locked) (here : pool.calls index = some running)
    {lock : LockId} {ending : Ending} (place : running.place = .drop lock ending) :
    (pool.put index { running with place := .ended ending }
      { pool.system with world := pool.world.dropHandle lock }).Locked := by
  have own : pool.HasHandle lock index := ⟨running, here, by rw [place]; rfl⟩
  have others : ∀ {taken other}, (pool.put index { running with place := .ended ending }
      { pool.system with world := pool.world.dropHandle lock }).HasHandle taken other →
      other ≠ index ∧ pool.HasHandle taken other := by
    intro taken other handle
    rcases hasHandle_put handle with ⟨-, hasLock⟩ | before
    · cases hasLock
    · exact before
  refine ⟨keeps_put locked here trivial, ?_, ?_, ?_, ?_⟩
  · intro other found taken there hasLock
    rcases calls_put there with ⟨-, rfl⟩ | ⟨-, before⟩
    · cases hasLock
    · exact locked.tabled other found taken before hasLock
  · intro taken indices distinct holders
    show indices.length ≤ (pool.world.handles.erase lock).count taken
    by_cases same : taken = lock
    · subst same
      have absent : index ∉ indices := fun listed => (others (holders index listed)).1 rfl
      have all := locked.counted taken (index :: indices) (List.nodup_cons.mpr ⟨absent, distinct⟩)
        (by
          intro other member
          rcases List.mem_cons.mp member with rfl | listed
          · exact own
          · exact (others (holders other listed)).2)
      rw [List.length_cons] at all
      rw [List.count_erase_self]
      omega
    · rw [List.count_erase_of_ne same]
      exact locked.counted taken indices distinct fun other listed =>
        (others (holders other listed)).2
  · intro taken other holds
    rcases holds_put holds with ⟨-, held⟩ | ⟨-, before⟩
    · cases held
    · exact locked.busy taken other before
  · intro taken first second holds holds'
    rcases holds_put holds with ⟨-, held⟩ | ⟨-, before⟩
    · cases held
    · rcases holds_put holds' with ⟨-, held'⟩ | ⟨-, before'⟩
      · cases held'
      · exact locked.alone taken first second before before'

end Pool

/-- Rules by which the locks are kept, by the callbacks of definitions and from outside. -/
structure Rules.KeepLocks (rules : Rules ρ κ) : Prop where
  begins : ∀ call w, rules.begins call w → call.KeepsLocks
  outside : ∀ w w', rules.outside w w' → w.KeepsLocks w'

namespace Pool

variable {rules : Rules ρ κ} {pool pool' : Pool ρ κ} {move : Option (Move ρ κ)}

theorem Locked.step (keep : rules.KeepLocks) (locked : pool.Locked)
    (next : Step rules pool move pool') : pool'.Locked := by
  cases next with
  | @begin index call unused allowed =>
    refine locked.transfer (.of_eq rfl rfl rfl) ?_ ?_ ?_
    · intro other found there
      rcases calls_put there with ⟨-, rfl⟩ | ⟨-, before⟩
      · exact ⟨keep.begins call _ allowed, trivial⟩
      · exact locked.keeps other found before
    · intro other found lock there hasLock
      rcases calls_put there with ⟨-, rfl⟩ | ⟨-, before⟩
      · cases hasLock
      · exact ⟨found, before, rfl, hasLock⟩
    · rintro other lock ⟨found, there, held⟩
      rcases calls_put there with ⟨-, rfl⟩ | ⟨-, before⟩
      · cases held
      · exact ⟨found, before, held⟩
  | outside allowed =>
    exact locked.transfer (keep.outside _ _ allowed) locked.keeps
      (fun _ running _ here hasLock => ⟨running, here, rfl, hasLock⟩) fun _ _ holds => holds
  | @advance index running turn here advances ready =>
    obtain ⟨spares, keeps⟩ := locked.keeps index running here
    cases place : running.place with
    | check =>
      rw [place] at advances
      cases advances
      have inner := running.call.inner_atChecked pool.system.world
      refine locked.put here (.of_eq rfl rfl rfl) inner.keeps ?_ ?_
      · intro lock hasLock
        exact absurd (hasLock.symm.trans inner.handle) (by simp)
      · intro lock held
        exact absurd (held.symm.trans inner.held) (by simp)
    | take =>
      rw [place] at advances
      cases advances
      exact locked_take locked here
    | wait lock =>
      rw [place] at advances
      cases advances
      exact locked_acquire locked here place ready
    | inside lock stage =>
      rw [place] at advances keeps
      cases advances
      obtain ⟨change, inner⟩ := Call.advanceStage_keepsLocks spares keeps ready
      refine locked.put here change inner.keeps ?_ ?_
      · intro taken hasLock
        rw [place, ← hasLock, inner.handle]
        rfl
      · intro taken held
        rw [place, ← held, inner.held]
        rfl
    | unlock lock ending =>
      rw [place] at advances
      cases advances
      exact locked_unlock locked here place
    | drop lock ending =>
      rw [place] at advances
      cases advances
      exact locked_drop locked here place
    | ended ending =>
      rw [place] at advances
      cases advances

theorem Run.locked (keep : rules.KeepLocks) {start : System ρ} {trace : List (Move ρ κ)}
    (run : Run rules start trace pool) : pool.Locked := by
  induction run with
  | start => exact locked_empty start
  | step _ next ih => exact ih.step keep next

/-- No two definitions of one name into one cache hold a definition lock at once. -/
theorem Locked.exclusive (locked : pool.Locked) {index other : Nat} {first second : Running ρ κ}
    (here : pool.calls index = some first) (there : pool.calls other = some second)
    (cache : first.call.loader.cache = second.call.loader.cache)
    (name : first.call.name = second.call.name)
    (held : first.place.held?.isSome) (held' : second.place.held?.isSome) : index = other := by
  obtain ⟨lock, holds⟩ := Option.isSome_iff_exists.mp held
  obtain ⟨lock', holds'⟩ := Option.isSome_iff_exists.mp held'
  have entry := locked.tabled index first lock here (Place.handle?_of_held? holds)
  have entry' := locked.tabled other second lock' there (Place.handle?_of_held? holds')
  rw [cache, name, entry'] at entry
  obtain rfl := Option.some.inj entry
  exact locked.alone lock' index other ⟨first, here, holds⟩ ⟨second, there, holds'⟩

end Pool

end Reload
