import Reload.Proofs.Definition.Making

/-!
A whole definition in memory that runs alone. It ends with what its work makes (`define_makes`). Besides
what `Call.Exit` tells of its own cache, marker and lock, it leaves the rest of the state as it was, or
lets it grow (`define_alone`, `define_inMemory`).
-/

namespace Reload

/-- A set whose locks are free, and so are all locks that are not made yet. -/
structure World.FreeLocks (w : World) (set : LockSetId) : Prop where
  tabled : ∀ name lock, (w.locks set).get? name = some lock → w.isFree lock
  unmade : ∀ lock : LockId, w.nextLock ≤ lock.index → w.isFree lock

/-- A name whose lock in a set is free, if it has one, and so are all locks that are not made yet. -/
structure World.FreeLock (w : World) (set : LockSetId) (name : Name) : Prop where
  tabled : ∀ lock, (w.locks set).get? name = some lock → w.isFree lock
  unmade : ∀ lock : LockId, w.nextLock ≤ lock.index → w.isFree lock

theorem World.FreeLocks.of_name {w : World} {set : LockSetId} (free : w.FreeLocks set) (name : Name) :
    w.FreeLock set name := ⟨free.tabled name, free.unmade⟩

/-- The entries of a cache are artifacts that were created, and none of those given. -/
def World.OwnEntries (w : World) (cache : CacheId) (artifacts : List Artifact) : Prop :=
  ∀ name artifact, (w.entries cache).get? name = some artifact →
    artifact.serial ≤ w.created ∧ artifact.serial ∉ artifacts.map Artifact.serial

/-- The entries of a cache are artifacts that were created, and those that are given are alive. -/
def World.SteadyEntries (w : World) (cache : CacheId) (artifacts : List Artifact) : Prop :=
  ∀ name artifact, (w.entries cache).get? name = some artifact →
    artifact.serial ≤ w.created ∧ (artifact.serial ∈ artifacts.map Artifact.serial → w.alive artifact)

theorem World.OwnEntries.steady {w : World} {cache : CacheId} {artifacts : List Artifact}
    (own : w.OwnEntries cache artifacts) : w.SteadyEntries cache artifacts := by
  intro name artifact entry
  obtain ⟨old, unheld⟩ := own name artifact entry
  exact ⟨old, fun listed => absurd listed unheld⟩

/-- What a definition leaves alone, or lets grow, beside its own cache. -/
structure Quiet (cache : CacheId) (artifacts : List Artifact) (w w' : World) : Prop where
  created : w.created ≤ w'.created
  fresh : w.FreshContexts → w'.FreshContexts
  others : ∀ other, other ≠ cache → w'.entries other = w.entries other
  alive : ∀ artifact : Artifact, artifact.serial ≤ w.created →
    artifact.serial ∉ artifacts.map Artifact.serial → w'.alive artifact → w.alive artifact

theorem Quiet.trans {cache : CacheId} {artifacts : List Artifact} {w₁ w₂ w₃ : World}
    (first : Quiet cache artifacts w₁ w₂) (second : Quiet cache artifacts w₂ w₃) :
    Quiet cache artifacts w₁ w₃ where
  created := Nat.le_trans first.created second.created
  fresh untouched := second.fresh (first.fresh untouched)
  others other different := (second.others other different).trans (first.others other different)
  alive artifact old unheld live :=
    first.alive artifact old unheld
      (second.alive artifact (Nat.le_trans old first.created) unheld live)

theorem Quiet.of_eq {cache : CacheId} {artifacts : List Artifact} {w w' : World}
    (created : w'.created = w.created) (held : w'.held = w.held)
    (contexts : w'.nextContext = w.nextContext) (built : w'.built = w.built)
    (others : ∀ other, other ≠ cache → w'.entries other = w.entries other) :
    Quiet cache artifacts w w' where
  created := Nat.le_of_eq created.symm
  fresh untouched id unmade := by
    rw [built]
    exact untouched id (contexts ▸ unmade)
  others := others
  alive artifact _ _ live := by
    rw [World.alive_iff] at live ⊢
    rwa [held] at live

namespace Call

variable {ρ κ : Type} (call : Call ρ κ)

theorem entered_quiet {w : World} (unmarked : w.marker call.thread = none)
    (artifacts : List Artifact) : Quiet call.loader.cache artifacts w (call.entered w) := by
  rw [call.entered_eq w unmarked, noted_eq, locked_eq]
  exact .of_eq rfl rfl rfl rfl fun other different => replace_of_ne _ _ different

theorem left_quiet (lock : Option LockId) (result : Result) (w : World)
    (artifacts : List Artifact) : Quiet call.loader.cache artifacts w (call.left lock result w) := by
  rw [left_eq, noted_eq]
  exact .of_eq rfl rfl rfl rfl fun _ _ => rfl

theorem entered_marker {w : World} (unmarked : w.marker call.thread = none) :
    (call.entered w).marker = replace w.marker call.thread (some call.name) := by
  rw [call.entered_eq w unmarked, noted_eq]

/-- On the way out no marker stands that did not stand before. -/
theorem marker_restored {w w' : World} (unmarked : w.marker call.thread = none)
    (same : w'.marker = (call.entered w).marker) (lock : Option LockId) (result : Result) :
    (call.left lock result w').marker = w.marker := by
  rw [left_eq, noted_eq]
  simp only [World.unmark, same, call.entered_marker unmarked]
  funext thread
  by_cases own : thread = call.thread
  · rw [own, replace_self, unmarked]
  · rw [replace_of_ne _ _ own, replace_of_ne _ _ own]

theorem lock_free {w : World} (free : w.FreeLock call.loader.cache.locks call.name) :
    ∀ lock ∈ call.lock? w, w.isFree lock := by
  intro lock taken
  unfold lock? at taken
  split at taken
  · obtain rfl := Option.some.inj taken
    rcases w.lockFor_fst call.loader.cache.locks call.name with tabled | new
    · exact free.tabled _ tabled
    · exact free.unmade _ (Nat.le_of_eq (by rw [new]))
  · cases taken

/-- The way in gives a thread its definition lock and no other. -/
theorem locked_lock_of_ne {w : World} {other : LockId} (different : other ∉ call.lock? w) :
    (call.locked w).lock other = w.lock other := by
  unfold locked
  split
  · rfl
  · next lock taken =>
    have elsewhere : other ≠ lock := fun same => different (by rw [taken, same]; rfl)
    simp [World.acquire, replace_of_ne _ _ elsewhere]

/-- The way out frees the definition lock and no other. -/
theorem left_lock_of_ne {lock : Option LockId} {result : Result} {w : World} {other : LockId}
    (different : other ∉ lock) : (call.left lock result w).lock other = w.lock other := by
  have noted : (call.noted (result.notes call.name) (w.unmark call.thread)).lock = w.lock := by
    rw [noted_eq]
    rfl
  cases lock with
  | none => exact congrFun noted other
  | some lock =>
    have elsewhere : other ≠ lock := fun same => different (by rw [same]; rfl)
    simp only [left, unlocked, World.dropHandle, World.unlock, replace_of_ne _ _ elsewhere, noted]

/-- A lock in the set after the way in is the definition lock, or was there before. -/
theorem locked_locks {w : World} {name : Name} {lock : LockId}
    (tabled : ((call.locked w).locks call.loader.cache.locks).get? name = some lock) :
    lock ∈ call.lock? w ∨ (w.locks call.loader.cache.locks).get? name = some lock := by
  unfold locked at tabled
  split at tabled
  · exact .inr tabled
  · next taken' taken =>
    have handed : taken' = (w.lockFor call.loader.cache.locks call.name).1 := by
      unfold lock? at taken
      split at taken
      · exact (Option.some.inj taken).symm
      · cases taken
    simp only [World.acquire, World.get?_lockFor] at tabled
    split at tabled
    · rw [taken, handed]
      exact .inl tabled
    · exact .inr (Option.filter_eq_some_iff.mp tabled).1

theorem nextLock_le_locked (w : World) : w.nextLock ≤ (call.locked w).nextLock := by
  unfold locked
  split
  · exact Nat.le_refl _
  · exact World.nextLock_le_lockFor ..

/-- What has a free lock before a definition has one afterwards. -/
theorem freeLock_restored {w w' : World} (unmarked : w.marker call.thread = none) {name : Name}
    (free : w.FreeLock call.loader.cache.locks name) (locks : w'.locks = (call.entered w).locks)
    (lock : w'.lock = (call.entered w).lock) (next : w'.nextLock = (call.entered w).nextLock)
    (result : Result) :
    (call.left (call.lock? w) result w').FreeLock call.loader.cache.locks name := by
  rw [call.entered_eq w unmarked, noted_eq] at locks lock next
  have isFree : ∀ other : LockId, (other ∉ call.lock? w → w.isFree other) →
      (call.left (call.lock? w) result w').isFree other := by
    intro other elsewhere
    by_cases taken : other ∈ call.lock? w
    · rw [World.isFree, Option.mem_def.mp taken, call.left_lock]
      rfl
    · rw [World.isFree, call.left_lock_of_ne taken, lock]
      exact (congrArg (·.holder.isNone) (call.locked_lock_of_ne taken)).trans (elsewhere taken)
  have frame : (call.left (call.lock? w) result w').locks = w'.locks ∧
      (call.left (call.lock? w) result w').nextLock = w'.nextLock := by
    cases call.lock? w <;> simp only [left, unlocked, World.dropHandle, World.unlock] <;>
      rw [noted_eq] <;> exact ⟨rfl, rfl⟩
  constructor
  · intro other tabled
    rw [frame.1, locks] at tabled
    refine isFree other fun elsewhere => ?_
    exact free.tabled other ((call.locked_locks tabled).resolve_left elsewhere)
  · intro other unmade
    rw [frame.2, next] at unmade
    exact isFree other fun _ => free.unmade other (Nat.le_trans (call.nextLock_le_locked w) unmade)

end Call

/-! ### The definition -/

/-- What holds after a definition in memory, beside `Call.Exit`. -/
structure Loader.Defined {ρ : Type} (loader : Loader Settings UInt16) (s : System ρ)
    (ending : Ending) (w' : World) : Prop where
  quiet : Quiet loader.cache loader.resolver.artifacts s.world w'
  marker : w'.marker = s.world.marker
  locks : w'.FreeLocks loader.cache.locks
  /-- The artifact was created by this definition. -/
  new : ∀ artifact, ending = .ok (.ok artifact) →
    s.world.created < artifact.serial ∧ artifact.serial ≤ w'.created

namespace Loader

variable {ρ : Type} (loader : Loader Settings UInt16) (thread : ThreadId) (name : Name)
  (raw : Bytes)

theorem Makes.quiet {loader : Loader Settings UInt16} {name : Name} {raw : Bytes} {w w' : World}
    {result : Result} (makes : loader.Makes name raw w result w') (artifacts : List Artifact) :
    Quiet loader.cache artifacts w w' where
  created := makes.created_le
  fresh := makes.fresh
  others _ other := makes.entries_of_ne other
  alive _ old _ live := (makes.alive_old old).symm.trans live

private theorem Growing.steady {counters : CountersId} {artifacts : List Artifact} {cache : CacheId}
    {w w' : World} (growing : Growing counters artifacts w w')
    (steady : w.SteadyEntries cache artifacts) : w'.SteadyEntries cache artifacts := by
  intro name artifact entry
  rw [growing.frame] at entry
  obtain ⟨old, held⟩ := steady name artifact entry
  exact ⟨Nat.le_trans old growing.created, fun listed => growing.keeps artifact (held listed)⟩

private theorem keeps_of_confined {w w' : World} {artifacts : List Artifact}
    (confined : Confined loader.counters artifacts w w') :
    (loader.call (ρ := ρ) thread name raw).Keeps w w' where
  entries := by rw [confined.frame]
  counters := confined.counters

private theorem spares_of_growing {w w' : World} {artifacts : List Artifact}
    (growing : Growing loader.counters artifacts w w')
    (steady : w.SteadyEntries loader.cache artifacts) :
    (loader.call (ρ := ρ) thread name raw).Spares w w' where
  toKeeps := loader.keeps_of_confined thread name raw growing.toConfined
  alive name artifact entry := by
    obtain ⟨old, held⟩ := steady name artifact entry
    refine Bool.eq_iff_iff.mpr ⟨fun live => ?_, growing.keeps artifact⟩
    by_cases listed : artifact.serial ∈ artifacts.map Artifact.serial
    · exact held listed
    · exact growing.alive artifact old listed live

private theorem marked_entered {w : World} (unmarked : w.marker thread = none) :
    ((loader.call (ρ := ρ) thread name raw).entered w).marker thread = some name := by
  rw [Call.entered_marker _ unmarked]
  exact replace_self ..

/-- On a thread without a marker, and with a free lock, a definition in memory ends with what its work
    makes. -/
theorem define_makes (s : System ρ) (unmarked : s.world.marker thread = none)
    (free : ∀ lock ∈ (loader.call (ρ := ρ) thread name raw).lock? s.world, s.world.isFree lock)
    (fresh : s.world.FreshContexts) :
    let call : Call ρ MemoryContext := loader.call thread name raw
    ∃ result w, (loader.inMemory.define thread name raw).run.run s =
        some (result.ending name, { s with world := call.left (call.lock? s.world) result w }) ∧
      loader.Makes name raw (call.entered s.world) result w := by
  intro call
  obtain ⟨result, w, worked, makes⟩ := loader.run_work_makes thread name raw
    (s := { s with world := call.entered s.world })
    (loader.marked_entered thread name raw unmarked)
    ((call.entered_quiet unmarked []).fresh fresh)
  have ran := call.run_define s unmarked free
  rw [worked] at ran
  exact ⟨result, w, ran, makes⟩

/-- What holds after a definition in memory that found its own lock free. -/
structure Alone (loader : Loader Settings UInt16) (s : System ρ) (ending : Ending) (w' : World) :
    Prop where
  quiet : Quiet loader.cache loader.resolver.artifacts s.world w'
  marker : w'.marker = s.world.marker
  locks : ∀ other, s.world.FreeLock loader.cache.locks other → w'.FreeLock loader.cache.locks other
  /-- The artifact was created by this definition. -/
  new : ∀ artifact, ending = .ok (.ok artifact) →
    s.world.created < artifact.serial ∧ artifact.serial ≤ w'.created

/-- On a thread without a marker, and with a free lock, a definition in memory ends, and leaves the
    state outside its cache alone. -/
theorem define_alone (s : System ρ) (unmarked : s.world.marker thread = none)
    (free : ∀ lock ∈ (loader.call (ρ := ρ) thread name raw).lock? s.world, s.world.isFree lock)
    (fresh : s.world.FreshContexts) :
    ∃ ending s', (loader.inMemory.define thread name raw).run.run s = some (ending, s') ∧
      loader.Alone s ending s'.world := by
  let call : Call ρ MemoryContext := loader.call thread name raw
  obtain ⟨result, w, ran, makes⟩ := loader.define_makes thread name raw s unmarked free fresh
  have entered := call.entered_quiet unmarked loader.resolver.artifacts
  have left := call.left_quiet (call.lock? s.world) result w loader.resolver.artifacts
  have frame := makes.frame
  refine ⟨_, _, ran, entered.trans ((makes.quiet _).trans left), ?_, ?_, ?_⟩
  · exact call.marker_restored unmarked (by rw [frame]) _ _
  · exact fun other free =>
      call.freeLock_restored unmarked free (by rw [frame]) (by rw [frame]) (by rw [frame]) result
  · intro artifact ends
    rcases result with panic | cause | ⟨found, swept⟩
    · cases ends
    · cases ends
    · cases ends
      obtain ⟨serial, created⟩ := makes.created rfl
      exact ⟨serial ▸ Nat.lt_succ_of_le entered.created, serial ▸ created ▸ left.created⟩

/-- If all locks of the cache are free, they are free again. -/
theorem define_ends (s : System ρ) (unmarked : s.world.marker thread = none)
    (free : s.world.FreeLocks loader.cache.locks) (fresh : s.world.FreshContexts) :
    ∃ ending s', (loader.inMemory.define thread name raw).run.run s = some (ending, s') ∧
      loader.Defined s ending s'.world := by
  obtain ⟨ending, s', ran, alone⟩ := loader.define_alone thread name raw s unmarked
    (Call.lock_free _ (free.of_name name)) fresh
  have restored other := alone.locks other (free.of_name other)
  exact ⟨ending, s', ran, alone.quiet, alone.marker,
    ⟨fun other => (restored other).tabled, (restored name).unmade⟩, alone.new⟩

/-- If what the cache has of the ancestor is alive, a definition in memory leaves its own cache, marker
    and lock as its ending tells. -/
theorem define_exit (s : System ρ) (unmarked : s.world.marker thread = none)
    (free : ∀ lock ∈ (loader.call (ρ := ρ) thread name raw).lock? s.world, s.world.isFree lock)
    (fresh : s.world.FreshContexts)
    (steady : s.world.SteadyEntries loader.cache loader.resolver.artifacts) :
    ∃ ending s', (loader.inMemory.define thread name raw).run.run s = some (ending, s') ∧
      (loader.call thread name raw).Exit s ending s'.world := by
  let call : Call ρ MemoryContext := loader.call thread name raw
  have entered := call.entered_quiet unmarked loader.resolver.artifacts
  have callbacks := loader.callbacks_call thread name raw
    (s := { s with world := call.entered s.world })
    (loader.marked_entered thread name raw unmarked) (entered.fresh fresh)
  have steadyEntered :
      (call.entered s.world).SteadyEntries loader.cache loader.resolver.artifacts := by
    intro other artifact entry
    rw [show (call.entered s.world).entries loader.cache = _ from call.entered_entries unmarked,
      Table.get?_erase] at entry
    split at entry
    · cases entry
    · obtain ⟨old, held⟩ := steady other artifact entry
      refine ⟨Nat.le_trans old entered.created, fun listed => ?_⟩
      rw [call.entered_alive unmarked]
      exact held listed
  have spared : call.Callbacks call.Spares call.Keeps
      { s with world := call.entered s.world } := callbacks.mono call
    (fun w => w.SteadyEntries loader.cache loader.resolver.artifacts) steadyEntered
    (fun _ _ steady growing => ⟨loader.spares_of_growing thread name raw growing steady,
      Growing.steady growing steady⟩)
    (fun _ _ confined => loader.keeps_of_confined thread name raw confined)
  obtain ⟨result, s', worked_run, worked⟩ := call.run_work
    (fun first second => first.trans call second) spared
  have ran := call.run_define s unmarked free
  rw [worked_run] at ran
  exact ⟨_, _, ran, call.exit_of_worked unmarked worked_run worked⟩

/-- If the cache has no artifact of the ancestor and all its locks are free, a definition in memory tells
    by its ending what it leaves. -/
theorem define_inMemory (s : System ρ) (unmarked : s.world.marker thread = none)
    (free : s.world.FreeLocks loader.cache.locks) (fresh : s.world.FreshContexts)
    (own : s.world.OwnEntries loader.cache loader.resolver.artifacts) :
    ∃ ending s', (loader.inMemory.define thread name raw).run.run s = some (ending, s') ∧
      (loader.call thread name raw).Exit s ending s'.world ∧ loader.Defined s ending s'.world := by
  obtain ⟨ending, s', ran, exit⟩ := loader.define_exit thread name raw s unmarked
    (Call.lock_free _ (free.of_name name)) fresh own.steady
  obtain ⟨_, _, ran', defined⟩ := loader.define_ends thread name raw s unmarked free fresh
  obtain ⟨rfl, rfl⟩ := Prod.mk.inj (Option.some.inj (ran.symm.trans ran'))
  exact ⟨_, _, ran, exit, defined⟩

/-- A definition of a unit that can be packed succeeds, if the host has the level that the images
    need. It creates one artifact, which is alive afterwards. -/
theorem define_succeeds {s : System ρ} (unmarked : s.world.marker thread = none)
    (free : s.world.FreeLocks loader.cache.locks) (fresh : s.world.FreshContexts) {image : Bytes}
    (packed : loader.packer.pack name raw = .ok image)
    (level : loader.packer.minHostApi ≤ loader.host)
    (ancestors : ∀ artifact ∈ loader.resolver.artifacts, artifact.serial ≤ s.world.created) :
    ∃ artifact s', (loader.inMemory.define thread name raw).run.run s =
      some (.ok (.ok artifact), s') ∧ s'.world.alive artifact ∧
      s'.world.created = s.world.created + 1 ∧ loader.Defined s (.ok (.ok artifact)) s'.world := by
  let call : Call ρ MemoryContext := loader.call thread name raw
  have entered : (call.entered s.world).created = s.world.created := by
    rw [call.entered_eq s.world unmarked, call.noted_eq, call.locked_eq]
  obtain ⟨result, w, alone, makes⟩ := loader.define_makes thread name raw s unmarked
    (call.lock_free (free.of_name name)) fresh
  obtain ⟨artifact, swept, rfl⟩ := makes.succeeds packed level
  obtain ⟨_, _, ran, defined⟩ := loader.define_ends thread name raw s unmarked free fresh
  obtain ⟨rfl, rfl⟩ := Prod.mk.inj (Option.some.inj (alone.symm.trans ran))
  refine ⟨_, _, ran, ?_, ?_, defined⟩
  · have live := makes.alive_new rfl (by rw [entered]; exact ancestors)
    rw [call.left_eq, call.noted_eq]
    exact live
  · rw [call.left_eq, call.noted_eq]
    exact (makes.created rfl).2.trans (congrArg (· + 1) entered)

end Loader

end Reload
