import Reload.Proofs.Definition.Callbacks

/-!
Every way out of a definition. Whatever the packer and the host are, and whether a definition ends
with an artifact, a failure or a panic, the state afterwards follows from the state before
(`define_exits`): the entries of the cache, the marker, the definition lock and the counters.
-/

namespace Reload

/-- How many entries of a cache are dead, besides that of a name. -/
def World.deadBeside (w : World) (cache : CacheId) (name : Name) : Nat :=
  (((w.entries cache).erase name).filter fun artifact => !w.alive artifact).size

def World.counter (w : World) (id : CountersId) (counter : Counter) : UInt64 :=
  (w.counters id).get counter

/-- Whether only definitions change the counter. The others also grow when names are resolved. -/
def Counter.ofDefinitions : Counter → Bool
  | .definitions | .definitionFailures | .redefinitions | .entriesSwept => true
  | .cacheHits | .guardedMisses => false

/-- How a counter grows once the steps under the marker have ended so. -/
def Result.growth : Result → Counter → UInt64
  | .ok (.ok _), .definitions => 1
  | .ok (.ok (_, swept)), .entriesSwept => UInt64.ofNat swept
  | .ok (.error _), .definitionFailures => 1
  | _, _ => 0

theorem World.counter_count (w : World) (id : CountersId) (counter other : Counter)
    (amount : UInt64) : (w.count id counter amount).counter id other =
      if other = counter then w.counter id other + amount else w.counter id other := by
  simp [World.counter, World.count, Counters.get_add]

theorem World.counter_count_of_ne (w : World) {id other : CountersId} (counter counter' : Counter)
    (amount : UInt64) (different : other ≠ id) :
    (w.count id counter amount).counter other counter' = w.counter other counter' := by
  simp [World.counter, World.count, replace_of_ne _ _ different]

def Ending.artifact? : Ending → Option Artifact
  | .ok (.ok artifact) => some artifact
  | _ => none

namespace Call

variable {ρ κ : Type} (call : Call ρ κ)

/-! ### The fields of the state on the way in -/

theorem noted_eq (notes : List Note) (w : World) : call.noted notes w =
    { w with counters := (call.noted notes w).counters, journal := (call.noted notes w).journal } := by
  induction notes generalizing w with
  | nil => rfl
  | cons first others ih =>
    refine (ih (first.apply call.loader.counters w)).trans ?_
    cases first <;> rfl

/-- Notes count for the loader that takes them. -/
theorem noted_counter_of_ne (notes : List Note) (w : World) {id : CountersId} (counter : Counter)
    (other : id ≠ call.loader.counters) :
    (call.noted notes w).counter id counter = w.counter id counter := by
  induction notes generalizing w with
  | nil => rfl
  | cons first others ih =>
    refine (ih (first.apply call.loader.counters w)).trans ?_
    cases first with
    | count noted amount => exact w.counter_count_of_ne noted counter amount other
    | record event => rfl

theorem locked_eq (w : World) : call.locked w =
    { w with
      nextLock := (call.locked w).nextLock
      locks := (call.locked w).locks
      lock := (call.locked w).lock
      handles := (call.locked w).handles } := by
  unfold locked
  split
  · rfl
  · rw [World.lockFor_eq]
    rfl

/-- Before the notes are taken, the way in takes the lock, sets the marker and removes the
    entry. -/
theorem entered_eq (w : World) (unmarked : w.marker call.thread = none) :
    call.entered w = call.noted (call.forgetNotes (w.contains call.loader.cache call.name))
      { call.locked w with
        marker := replace w.marker call.thread (some call.name)
        entries := replace w.entries call.loader.cache
          ((w.entries call.loader.cache).erase call.name) } := by
  unfold entered forgotten
  rw [call.locked_eq w]
  simp [World.mark, unmarked, World.invalidate, World.contains]

theorem entered_entries {w : World} (unmarked : w.marker call.thread = none) :
    (call.entered w).entries call.loader.cache =
      (w.entries call.loader.cache).erase call.name := by
  rw [call.entered_eq w unmarked, noted_eq]
  simp

theorem entered_alive {w : World} (unmarked : w.marker call.thread = none) :
    (call.entered w).alive = w.alive := by
  rw [call.entered_eq w unmarked, noted_eq, locked_eq]
  rfl

theorem entered_handles {w : World} (unmarked : w.marker call.thread = none) :
    (call.entered w).handles = (call.lock? w).toList ++ w.handles := by
  rw [call.entered_eq w unmarked, noted_eq]
  unfold locked lock?
  cases call.loader.settings.serialize <;> simp [World.acquire]

theorem entered_poisoned {w : World} (unmarked : w.marker call.thread = none) {lock : LockId}
    (taken : lock ∈ call.lock? w) :
    ((call.entered w).lock lock).poisoned = (w.lock lock).poisoned := by
  rw [call.entered_eq w unmarked, noted_eq]
  simp [locked, Option.mem_def.mp taken, World.acquire]

/-- On the way in, the redefinitions grow if the name had an entry. -/
theorem entered_counter {w : World} (unmarked : w.marker call.thread = none) (counter : Counter) :
    (call.entered w).counter call.loader.counters counter =
      w.counter call.loader.counters counter +
        if counter = .redefinitions ∧ w.contains call.loader.cache call.name then 1 else 0 := by
  rw [call.entered_eq w unmarked]
  have before : (call.locked w).counters = w.counters := by rw [locked_eq]
  unfold forgetNotes
  cases w.contains call.loader.cache call.name with
  | false => simp [noted, World.counter, before]
  | true =>
    refine Eq.trans (World.counter_count _ call.loader.counters .redefinitions counter 1) ?_
    by_cases same : counter = .redefinitions <;> simp [World.counter, before, same]

theorem entered_counter_of_ne {w : World} (unmarked : w.marker call.thread = none) {id : CountersId}
    (counter : Counter) (other : id ≠ call.loader.counters) :
    (call.entered w).counter id counter = w.counter id counter := by
  rw [call.entered_eq w unmarked, call.noted_counter_of_ne _ _ counter other, locked_eq]
  rfl

/-! ### The fields of the state on the way out -/

/-- After the notes, the way out changes the lock and the handles, and nothing else. -/
theorem left_eq (lock : Option LockId) (result : Result) (w : World) :
    call.left lock result w =
      { call.noted (result.notes call.name) (w.unmark call.thread) with
        lock := (call.left lock result w).lock
        handles := (call.left lock result w).handles } := by
  cases lock <;> rfl

theorem left_entries (lock : Option LockId) (result : Result) (w : World) :
    (call.left lock result w).entries = w.entries := by
  rw [left_eq, noted_eq]
  rfl

theorem left_marker (lock : Option LockId) (result : Result) (w : World) :
    (call.left lock result w).marker call.thread = none := by
  rw [left_eq, noted_eq]
  simp [World.unmark]

theorem left_handles (lock : Option LockId) (result : Result) (w : World) :
    (call.left lock result w).handles = lock.elim w.handles w.handles.erase := by
  cases lock <;> simp only [left, unlocked, World.dropHandle, World.unlock] <;> rw [noted_eq] <;>
    rfl

/-- The way out frees the lock, and leaves it poisoned if it was, or if there was a panic. -/
theorem left_lock (lock : LockId) (result : Result) (w : World) :
    (call.left (some lock) result w).lock lock =
      { holder := none, poisoned := (w.lock lock).poisoned || result.panicked } := by
  simp only [left, unlocked, World.dropHandle, World.unlock, replace_self]
  rw [noted_eq]
  rfl

/-- On the way out, the counters grow by what the result says. -/
theorem left_counter (lock : Option LockId) (result : Result) (w : World) (counter : Counter) :
    (call.left lock result w).counter call.loader.counters counter =
      w.counter call.loader.counters counter + result.growth counter := by
  have noted : (call.left lock result w).counter call.loader.counters counter =
      (call.noted (result.notes call.name) (w.unmark call.thread)).counter
        call.loader.counters counter := by
    rw [left_eq]
    rfl
  rw [noted]
  rcases result with panic | cause | ⟨artifact, swept⟩ <;>
    cases counter <;>
    simp [Call.noted, Result.notes, Note.apply, World.counter, World.count, World.record,
      World.unmark, Counters.add, Counters.get, Result.growth]

theorem left_counter_of_ne (lock : Option LockId) (result : Result) (w : World) {id : CountersId}
    (counter : Counter) (other : id ≠ call.loader.counters) :
    (call.left lock result w).counter id counter = w.counter id counter := by
  rw [left_eq]
  exact call.noted_counter_of_ne _ _ counter other

theorem left_alive (lock : Option LockId) (result : Result) (w : World) :
    (call.left lock result w).alive = w.alive := by
  rw [left_eq, noted_eq]
  rfl

theorem left_journal (lock : Option LockId) (artifact : Artifact) (swept : Nat) (w : World) :
    (call.left lock (.ok (.ok (artifact, swept))) w).journal.head? =
      some (.defined call.name artifact swept) := by
  rw [left_eq]
  rfl

/-! ### What the work leaves as it was -/

/-- Callbacks that leave the entries of the cache and the counters of definitions as they are. -/
structure Keeps (w w' : World) : Prop where
  entries : w'.entries call.loader.cache = w.entries call.loader.cache
  counters : ∀ counter : Counter, counter.ofDefinitions →
    w'.counter call.loader.counters counter = w.counter call.loader.counters counter

/-- Callbacks that also release no artifact that has an entry. One that is dead stays so. -/
structure Spares (w w' : World) : Prop extends call.Keeps w w' where
  alive : ∀ name artifact, (w.entries call.loader.cache).get? name = some artifact →
    w'.alive artifact = w.alive artifact

theorem Spares.trans {w₁ w₂ w₃ : World} (first : call.Spares w₁ w₂) (second : call.Spares w₂ w₃) :
    call.Spares w₁ w₃ where
  entries := second.entries.trans first.entries
  counters counter own := (second.counters counter own).trans (first.counters counter own)
  alive name artifact entry := by
    have later := second.alive name artifact (by rw [first.entries]; exact entry)
    exact later.trans (first.alive name artifact entry)

/-- What neither the callbacks nor publishing change is the same after the work. -/
theorem Worked.same {β : Type} {f : World → β} {s : System ρ} {w : World} {result : Result}
    (publishing : ∀ (w : World) (artifact : Artifact),
      f (w.publish call.loader.cache call.name artifact).2 = f w)
    (worked : call.Worked (fun w w' => f w' = f w) (fun w w' => f w' = f w) s result w) :
    f w = f s.world := by
  cases worked with
  | stopped failed kept => exact kept
  | @closed _ _ _ _ loaded s₃ _ _ _ _ kept keptLast =>
    have published : f (call.published loaded s₃.world) = f s₃.world := by
      rcases loaded with panic | cause | _ | artifact
      · rfl
      · rfl
      · rfl
      · exact publishing s₃.world artifact
    exact (keptLast.trans published).trans kept

/-- The entries after the work: the live ones and the artifact if there is one, or else the entries
    that were there. -/
theorem Worked.entries {s : System ρ} {w : World} {result : Result}
    (worked : call.Worked call.Spares call.Keeps s result w) :
    match result with
    | .ok (.ok (artifact, swept)) =>
      w.entries call.loader.cache =
          ((s.world.entries call.loader.cache).filter s.world.alive).insert call.name artifact ∧
        swept =
          ((s.world.entries call.loader.cache).filter fun artifact => !s.world.alive artifact).size
    | _ => w.entries call.loader.cache = s.world.entries call.loader.cache := by
  cases worked with
  | stopped failed kept =>
    rcases result with panic | cause | success
    · exact kept.entries
    · exact kept.entries
    · exact absurd rfl (failed success)
  | @closed _ _ _ _ loaded s₃ _ _ _ _ kept keptLast =>
    have last := keptLast.entries
    rcases loaded with panic | cause | _ | artifact
    · exact last.trans kept.entries
    · exact last.trans kept.entries
    · exact last.trans kept.entries
    have live : (s₃.world.entries call.loader.cache).filter s₃.world.alive =
        (s.world.entries call.loader.cache).filter s.world.alive := by
      rw [kept.entries]
      exact Table.filter_congr kept.alive
    refine ⟨?_, ?_⟩
    · refine last.trans ?_
      simp only [published, World.publish, replace_self]
      rw [live]
    · have split := (s.world.entries call.loader.cache).size_filter_add s.world.alive
      have here : (s₃.world.publish call.loader.cache call.name artifact).1 =
          (s.world.entries call.loader.cache).size -
            ((s.world.entries call.loader.cache).filter s.world.alive).size := by
        simp only [World.publish]
        rw [live, kept.entries]
      show (s₃.world.publish call.loader.cache call.name artifact).1 = _
      omega

/-! ### Every exit -/

/-- How the counters of the loader grow with a definition that begins in a state and ends so. -/
def growth (w : World) (ending : Ending) : Counter → UInt64
  | .definitions => if ending matches .ok (.ok _) then 1 else 0
  | .definitionFailures => if ending matches .ok (.error _) then 1 else 0
  | .redefinitions => if w.contains call.loader.cache call.name then 1 else 0
  | .entriesSwept =>
    if ending matches .ok (.ok _) then UInt64.ofNat (w.deadBeside call.loader.cache call.name) else 0
  | .cacheHits | .guardedMisses => 0

/-- What holds after a definition that began in the state `s`. What only the callbacks could change
    is told for callbacks that do not change it. -/
structure Exit (s : System ρ) (ending : Ending) (w' : World) : Prop where
  /-- An artifact stands in the cache beside the live entries of other names, and the journal tells
      how many of their entries were swept. -/
  published : ∀ artifact, ending = .ok (.ok artifact) →
    w'.entries call.loader.cache = (((s.world.entries call.loader.cache).erase call.name).filter
        s.world.alive).insert call.name artifact ∧
      w'.journal.head? = some (.defined call.name artifact
        (s.world.deadBeside call.loader.cache call.name))
  /-- Without an artifact, the cache has lost the entry of the name and nothing else. -/
  withdrawn : (∀ artifact, ending ≠ .ok (.ok artifact)) →
    w'.entries call.loader.cache = (s.world.entries call.loader.cache).erase call.name
  unmarked : w'.marker call.thread = none
  free : ∀ lock ∈ call.lock? s.world, w'.isFree lock
  poisoned : ∀ lock ∈ call.lock? s.world, ending.panicked → (w'.lock lock).poisoned
  /-- Only a panic poisons the definition lock. -/
  intact : ∀ lock ∈ call.lock? s.world,
    call.Callbacks (fun w w' => w'.lock lock = w.lock lock) (fun w w' => w'.lock lock = w.lock lock)
      { s with world := call.entered s.world } →
    (w'.lock lock).poisoned = ((s.world.lock lock).poisoned || ending.panicked)
  /-- The handle to the definition lock is gone. -/
  handles :
    call.Callbacks (fun w w' => w'.handles = w.handles) (fun w w' => w'.handles = w.handles)
      { s with world := call.entered s.world } →
    w'.handles = s.world.handles
  /-- The counters of definitions have grown, each by its own amount. -/
  counters : ∀ counter : Counter, counter.ofDefinitions →
    w'.counter call.loader.counters counter =
      s.world.counter call.loader.counters counter + call.growth s.world ending counter
  /-- A definition does not count as a resolution. -/
  others : ∀ counter : Counter,
    call.Callbacks
      (fun w w' => w'.counter call.loader.counters counter = w.counter call.loader.counters counter)
      (fun w w' => w'.counter call.loader.counters counter = w.counter call.loader.counters counter)
      { s with world := call.entered s.world } →
    w'.counter call.loader.counters counter =
      s.world.counter call.loader.counters counter + call.growth s.world ending counter

/-- What neither the callbacks nor publishing change is the same wherever the work has ended. -/
theorem same_of_run {β : Type} (f : World → β)
    (publishing : ∀ (w : World) (artifact : Artifact),
      f (w.publish call.loader.cache call.name artifact).2 = f w)
    {s s' : System ρ} {result : Result} (ran : call.work.run.run.run s = some (result, s'))
    (callbacks : call.Callbacks (fun w w' => f w' = f w) (fun w w' => f w' = f w) s) :
    f s'.world = f s.world := by
  obtain ⟨result', s'', ran', worked⟩ :=
    call.run_work (fun first second => second.trans first) callbacks
  obtain ⟨rfl, rfl⟩ := Prod.mk.inj (Option.some.inj (ran.symm.trans ran'))
  exact worked.same call publishing

private theorem growth_eq {w : World} {result : Result} {ending : Ending}
    (ends : ending = result.ending call.name)
    (swept : ∀ artifact swept, result = .ok (.ok (artifact, swept)) →
      swept = w.deadBeside call.loader.cache call.name) (counter : Counter) :
    (if counter = .redefinitions ∧ w.contains call.loader.cache call.name then 1 else 0) +
        result.growth counter = call.growth w ending counter := by
  subst ends
  rcases result with panic | cause | ⟨artifact, count⟩
  · cases counter <;> simp [growth, Result.growth, Result.ending]
  · cases counter <;> simp [growth, Result.growth, Result.ending]
  · have count_eq := swept artifact count rfl
    cases counter <;> simp [growth, Result.growth, Result.ending, count_eq]

theorem exit_of_worked {s s' : System ρ} {result : Result}
    (unmarked : s.world.marker call.thread = none)
    (ran : call.work.run.run.run { s with world := call.entered s.world } = some (result, s'))
    (worked : call.Worked call.Spares call.Keeps { s with world := call.entered s.world } result
      s'.world) :
    call.Exit s (Result.ending call.name result)
      (call.left (call.lock? s.world) result s'.world) := by
  have entries := worked.entries call
  have before := call.entered_entries unmarked
  have alive := call.entered_alive unmarked
  have dead : ∀ artifact swept, result = .ok (.ok (artifact, swept)) →
      swept = s.world.deadBeside call.loader.cache call.name := by
    rintro artifact swept rfl
    obtain ⟨-, swept_eq⟩ := entries
    rw [swept_eq, World.deadBeside, before, alive]
  have counted : ∀ counter : Counter,
      s'.world.counter call.loader.counters counter =
        (call.entered s.world).counter call.loader.counters counter →
      (call.left (call.lock? s.world) result s'.world).counter call.loader.counters counter =
        s.world.counter call.loader.counters counter +
          call.growth s.world (Result.ending call.name result) counter := by
    intro counter kept
    rw [call.left_counter, kept, call.entered_counter unmarked, UInt64.add_assoc,
      call.growth_eq rfl dead]
  exact {
    published := by
      intro artifact ends
      rcases result with panic | cause | ⟨artifact', swept⟩
      · cases ends
      · cases ends
      · cases ends
        have swept_eq := dead artifact swept rfl
        obtain ⟨written, -⟩ := entries
        refine ⟨?_, ?_⟩
        · rw [call.left_entries, written, before, alive]
        · rw [call.left_journal, swept_eq]
    withdrawn := by
      intro failed
      rcases result with panic | cause | ⟨artifact, swept⟩
      · rw [call.left_entries, entries, before]
      · rw [call.left_entries, entries, before]
      · exact absurd rfl (failed artifact)
    unmarked := call.left_marker _ _ _
    free := by
      intro lock taken
      rw [Option.mem_def.mp taken, World.isFree, call.left_lock]
      rfl
    poisoned := by
      intro lock taken panicked
      rw [Option.mem_def.mp taken, call.left_lock, ← Result.panicked_ending call.name, panicked]
      simp
    intact := by
      intro lock taken kept
      have same := call.same_of_run (fun w => w.lock lock) (fun _ _ => rfl) ran kept
      have poisoned := call.entered_poisoned unmarked taken
      rw [Option.mem_def.mp taken, call.left_lock, Result.panicked_ending, ← poisoned, same]
    handles := by
      intro kept
      have same := call.same_of_run (fun w => w.handles) (fun _ _ => rfl) ran kept
      rw [call.left_handles, same, call.entered_handles unmarked]
      cases call.lock? s.world <;> simp
    counters := by
      intro counter own
      refine counted counter ?_
      cases worked with
      | stopped _ kept => exact kept.counters counter own
      | @closed _ _ _ _ loaded _ _ _ _ _ kept keptLast =>
        refine (keptLast.counters counter own).trans (Eq.trans ?_ (kept.counters counter own))
        rcases loaded with panic | cause | _ | artifact <;> rfl
    others := by
      intro counter kept
      exact counted counter (call.same_of_run
        (fun w => w.counter call.loader.counters counter) (fun _ _ => rfl) ran kept)
  }

/-- What the cache has under each name once a definition has ended. -/
theorem Exit.get? {s : System ρ} {ending : Ending} {w' : World} (exit : call.Exit s ending w')
    (other : Name) : (w'.entries call.loader.cache).get? other =
      if other = call.name then ending.artifact?
      else if ending.artifact?.isSome then
        ((s.world.entries call.loader.cache).get? other).filter s.world.alive
      else (s.world.entries call.loader.cache).get? other := by
  rcases ending with panic | cause | artifact
  · rw [exit.withdrawn (by simp), Table.get?_erase]
    rfl
  · rw [exit.withdrawn (by simp), Table.get?_erase]
    rfl
  · rw [(exit.published artifact rfl).1, Table.get?_insert, Table.get?_filter, Table.get?_erase]
    by_cases same : other = call.name
    · simp [same, Ending.artifact?]
    · simp [same, Ending.artifact?]

/-- On a thread without a marker, and with a free definition lock, a definition ends whenever its
    callbacks do, and leaves exactly the state that its ending tells, as long as the callbacks do
    not write to the cache, touch the counters of definitions or release artifacts. -/
theorem define_exits (s : System ρ) (unmarked : s.world.marker call.thread = none)
    (free : ∀ lock ∈ call.lock? s.world, s.world.isFree lock)
    (callbacks : call.Callbacks call.Spares call.Keeps
      { s with world := call.entered s.world }) :
    ∃ ending s', (call.loader.define call.thread call.name call.raw).run.run s =
      some (ending, s') ∧ call.Exit s ending s'.world := by
  obtain ⟨result, s', ran, worked⟩ :=
    call.run_work (fun first second => first.trans call second) callbacks
  refine ⟨Result.ending call.name result,
    { s' with world := call.left (call.lock? s.world) result s'.world }, ?_, ?_⟩
  · rw [call.run_define s unmarked free, ran]
    rfl
  · exact call.exit_of_worked unmarked ran worked

/-- A serialized definition whose host makes a new artifact out of nothing. -/
def making (name : Name) : Call Unit Unit where
  loader :=
    { packer := ⟨fun _ _ _ => pure []⟩
      host :=
        { instantiate := fun _ _ _ => pure ()
          load := fun _ _ name =>
            some <$> ExceptT.lift (Action.onWorld fun w => w.create name 0 .nothing)
          close := fun _ w => w }
      cache := ⟨1⟩
      ancestor := none
      settings := { serialize := true }
      counters := ⟨0⟩ }
  thread := .first
  name := name
  raw := []

/-- A cache whose only entry, under one name, is dead. -/
def deadEntry (name : Name) : World :=
  { created := 1
    nextCache := 2
    nextCounters := 1
    entries := fun _ => Table.empty.insert name ⟨1, name, 0, .nothing⟩ }

theorem define_exits_making :
    ∃ ending s', ((making ⟨"a", by decide⟩).loader.define .first ⟨"a", by decide⟩ []).run.run
        ⟨deadEntry ⟨"a", by decide⟩, ()⟩ = some (ending, s') ∧
      (making ⟨"a", by decide⟩).Exit ⟨deadEntry ⟨"a", by decide⟩, ()⟩ ending s'.world := by
  refine define_exits (making ⟨"a", by decide⟩) ⟨deadEntry ⟨"a", by decide⟩, ()⟩ rfl
    (fun lock taken => by cases taken; rfl) ?_
  exact {
    pack := ⟨_, rfl, ⟨rfl, fun _ _ => rfl⟩, fun _ _ _ => rfl⟩
    instantiate := by
      intro image s₁ packs
      exact ⟨_, rfl, ⟨rfl, fun _ _ => rfl⟩, fun _ _ _ => rfl⟩
    load := by
      intro image s₁ context s₂ packs builds
      cases packs
      cases builds
      refine ⟨_, rfl, ⟨⟨rfl, fun _ _ => rfl⟩, ?_⟩, rfl, fun _ _ => rfl⟩
      intro name artifact entry
      cases entry
  }

end Call

end Reload
