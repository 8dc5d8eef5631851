import Reload.Proofs.CacheHistory
import Reload.Proofs.Concurrent.Markers
import Reload.Proofs.Concurrent.Order

/-!
Entries of a cache are conserved. When loaders share a cache that nobody else writes to, every entry that
a definition has put there is there still, or was removed by a redefinition, or was swept, or was
overwritten while it was alive; and the counters of the loaders tell all but the last (`Booked`).
Definitions that do not come between each other overwrite nothing, so then the counters tell the number
of entries (`define_conserves`).
-/

namespace Reload

variable {ρ κ : Type} {cache : CacheId} {ids : Finset CountersId}

/-! ### What a step does to a cache and its counters -/

/-- Whether the counter tells what became of the entries of a cache. -/
def Counter.ofEntries : Counter → Bool
  | .definitions | .redefinitions | .entriesSwept => true
  | .definitionFailures | .cacheHits | .guardedMisses => false

/-- A change that leaves the entries of a cache alone, and what these loaders have counted of them. -/
structure World.Unwritten (cache : CacheId) (ids : Finset CountersId) (w w' : World) : Prop where
  entries : w'.entries cache = w.entries cache
  counters : ∀ id ∈ ids, ∀ counter : Counter, counter.ofEntries →
    w'.counter id counter = w.counter id counter

theorem World.Unwritten.of_confined (artifacts : List Artifact) {w w' : World}
    (confined : ∀ id, Confined id artifacts w w') : w.Unwritten cache ids w' where
  entries := by rw [(confined ⟨0⟩).frame]
  counters id _ counter entries := (confined id).counters counter (by
    cases counter <;> first | rfl | cases entries)

/-- What these counters have together. -/
def World.counted (w : World) (ids : Finset CountersId) (counter : Counter) : Nat :=
  ∑ id ∈ ids, (w.counter id counter).toNat

/-- How much a note adds to a counter. -/
def Note.amount (counter : Counter) : Note → Nat
  | count noted amount => if counter = noted then amount.toNat else 0
  | record _ => 0

theorem Note.counter_apply (note : Note) (id : CountersId) (w : World) (counter : Counter) :
    (note.apply id w).counter id counter =
      w.counter id counter + UInt64.ofNat (note.amount counter) := by
  cases note with
  | record event => exact (UInt64.add_zero _).symm
  | count noted amount =>
    refine (w.counter_count id noted counter amount).trans ?_
    simp only [Note.amount]
    split
    · rw [UInt64.ofNat_toNat]
    · exact (UInt64.add_zero _).symm

namespace Call

variable (call : Call ρ κ)

/-- The notes that a definition has to take because of what it has done. -/
def notes : Place ρ κ → List Note
  | .inside _ (.note first others) | .inside _ (.report first others _) => first :: others
  | .inside _ (.close _ result) | .inside _ (.unmark result) => result.notes call.name
  | _ => []

/-- How much the notes to be taken will add to a counter. -/
def owes (counter : Counter) (place : Place ρ κ) : Nat :=
  ((call.notes place).map (Note.amount counter)).sum

/-- How much a step at a place has to be counted for, sooner or later. -/
def earns (counter : Counter) (place : Place ρ κ) (w : World) : Nat :=
  match place, counter with
  | .inside _ .forget, .redefinitions => if w.contains call.loader.cache call.name then 1 else 0
  | .inside _ (.publish ..), .definitions => 1
  | .inside _ (.publish _ artifact), .entriesSwept =>
    (w.publish call.loader.cache call.name artifact).1
  | _, _ => 0

theorem owes_failure (counter : Counter) (entries : counter.ofEntries) (cause : Failure) :
    ((Result.notes call.name (.ok (.error cause))).map (Note.amount counter)).sum = 0 := by
  cases counter <;> first | rfl | cases entries

/-- What a step does to the entries of its cache, and to what has to be noted of them: it is one of a
    callback, or it removes an entry, or publishes, or takes a note, or does none of this. -/
inductive Books (call : Call ρ κ) (place next : Place ρ κ) (w w' : World) : Prop where
  | callback (calls : place.callback)
      (owes : ∀ counter, counter.ofEntries → call.owes counter next = call.owes counter place)
  | forget {lock : Option LockId} (here : place = .inside lock .forget)
      (change : w' = (w.invalidate call.loader.cache call.name).2)
      (owes : ∀ counter, counter.ofEntries → call.owes counter next = call.earns counter place w)
  | publish {lock : Option LockId} {context : κ} {artifact : Artifact}
      (here : place = .inside lock (.publish context artifact))
      (change : w' = (w.publish call.loader.cache call.name artifact).2)
      (goes : ∃ result, next = .inside lock (.close context result))
      (owes : ∀ counter, counter.ofEntries →
        call.owes counter next = (UInt64.ofNat (call.earns counter place w)).toNat)
  | note {note : Note} (own : place.callback = false)
      (change : w' = note.apply call.loader.counters w)
      (earns : ∀ counter, call.earns counter place w = 0)
      (owes : ∀ counter, counter.ofEntries →
        call.owes counter place = note.amount counter + call.owes counter next)
  | aside (own : place.callback = false) (entries : w'.entries = w.entries)
      (counters : w'.counters = w.counters) (earns : ∀ counter, call.earns counter place w = 0)
      (owes : ∀ counter, counter.ofEntries → call.owes counter next = call.owes counter place)

variable {call}

private theorem owes_atReporting (counter : Counter) (lock : Option LockId) (ending : Ending)
    (notes : List Note) : call.owes counter (atReporting lock ending notes) =
      (notes.map (Note.amount counter)).sum := by
  cases notes with
  | nil => cases lock <;> rfl
  | cons first others => rfl

section
variable {counter : Counter} (entries : counter.ofEntries)
include entries

private theorem owes_atLoading (lock : Option LockId) (context : κ)
    (program : Program (System ρ) (Except Panic (Except Failure (Option Artifact)))) :
    call.owes counter (atLoading lock context program) = 0 := by
  rcases program with (panic | cause | _ | artifact) | _
  · rfl
  · exact call.owes_failure counter entries cause
  · exact call.owes_failure counter entries .emptyResult
  · rfl
  · rfl

private theorem owes_atInstantiated (lock : Option LockId)
    (instantiated : Except Panic (Except Failure κ)) :
    call.owes counter (call.atInstantiated lock instantiated) = 0 := by
  rcases instantiated with panic | cause | context
  · rfl
  · exact call.owes_failure counter entries cause
  · exact owes_atLoading entries lock context _

private theorem owes_atInstantiating (lock : Option LockId)
    (program : Program (System ρ) (Except Panic (Except Failure κ))) :
    call.owes counter (call.atInstantiating lock program) = 0 := by
  cases program with
  | done instantiated => exact owes_atInstantiated entries lock instantiated
  | step ready act next => rfl

private theorem owes_atPacking (lock : Option LockId)
    (program : Program (System ρ) (Except Panic (Except Failure Bytes))) :
    call.owes counter (call.atPacking lock program) = 0 := by
  rcases program with (panic | cause | image) | _
  · rfl
  · exact call.owes_failure counter entries cause
  · exact owes_atInstantiating entries lock _
  · rfl

private theorem owes_atNoting (lock : Option LockId) (notes : List Note) :
    call.owes counter (call.atNoting lock notes) = (notes.map (Note.amount counter)).sum := by
  cases notes with
  | nil => exact owes_atPacking entries lock _
  | cons first others => rfl

private theorem owes_forgetNotes (lock : Option LockId) (w : World) :
    ((call.forgetNotes (w.contains call.loader.cache call.name)).map (Note.amount counter)).sum =
      call.earns counter (.inside lock .forget) w := by
  unfold forgetNotes
  cases present : w.contains call.loader.cache call.name <;> cases counter <;>
    simp_all [Counter.ofEntries, earns, Note.amount]

private theorem owes_success (lock : Option LockId) (context : κ)
    (artifact : Artifact) (w : World) :
    call.owes counter (.inside lock (.close context
      (.ok (.ok (artifact, (w.publish call.loader.cache call.name artifact).1))) : Stage ρ κ)) =
      (UInt64.ofNat (call.earns counter (.inside lock (.publish context artifact)) w)).toNat := by
  cases counter <;>
    simp_all [Counter.ofEntries, owes, notes, earns, Result.notes, Note.amount]

end

private theorem books_stage (lock : Option LockId) (stage : Stage ρ κ) (s : System ρ) :
    call.Books (.inside lock stage) ((call.advanceStage lock stage).next s) s.world
      ((call.advanceStage lock stage).act s).world := by
  cases stage with
  | mark =>
    simp only [advanceStage, World.mark]
    cases s.world.marker call.thread with
    | none => exact .aside rfl rfl rfl (fun _ => rfl) fun _ _ => rfl
    | some running =>
      refine .aside rfl rfl rfl (fun _ => rfl) fun counter entries => ?_
      exact (owes_atReporting ..).trans (call.owes_failure counter entries (.inFlight running))
  | forget =>
    refine .forget rfl rfl fun counter entries => ?_
    exact (owes_atNoting entries lock _).trans (owes_forgetNotes entries lock s.world)
  | note first others =>
    exact .note rfl rfl (fun _ => rfl) fun counter entries =>
      congrArg (first.amount counter + ·) (owes_atNoting entries lock others).symm
  | pack turn => exact .callback rfl fun _ entries => owes_atPacking entries lock _
  | instantiate turn => exact .callback rfl fun _ entries => owes_atInstantiating entries lock _
  | load context turn => exact .callback rfl fun _ entries => owes_atLoading entries lock context _
  | publish context artifact =>
    exact .publish rfl rfl ⟨_, rfl⟩ fun _ entries => owes_success entries lock context artifact s.world
  | close context result => exact .callback rfl fun _ _ => rfl
  | unmark result =>
    exact .aside rfl rfl rfl (fun _ => rfl) fun _ _ => owes_atReporting ..
  | report first others ending =>
    exact .note rfl rfl (fun _ => rfl) fun counter _ =>
      congrArg (first.amount counter + ·) (owes_atReporting counter lock ending others).symm

theorem books_advance {place : Place ρ κ} {turn : Turn (System ρ) (Place ρ κ)}
    (advances : call.advance place = some turn) (s : System ρ) :
    call.Books place (turn.next s) s.world (turn.act s).world := by
  cases place with
  | check =>
    cases advances
    refine .aside rfl rfl rfl (fun _ => rfl) fun counter entries => ?_
    simp only []
    split
    · next running _ =>
      exact (owes_atReporting ..).trans (call.owes_failure counter entries (.inFlight running))
    · split <;> rfl
  | take =>
    cases advances
    exact .aside rfl (World.lockFor_entries ..) (World.lockFor_counters ..) (fun _ => rfl)
      fun _ _ => rfl
  | wait lock => cases advances; exact .aside rfl rfl rfl (fun _ => rfl) fun _ _ => rfl
  | inside lock stage => cases advances; exact books_stage lock stage s
  | unlock lock ending =>
    cases advances
    exact .aside rfl rfl rfl (fun _ => rfl) fun _ _ => rfl
  | drop lock ending =>
    cases advances
    exact .aside rfl rfl rfl (fun _ => rfl) fun _ _ => rfl
  | ended ending => cases advances

variable (call) in
/-- How many live entries a step at a place overwrites. -/
def overwrites (place : Place ρ κ) (w : World) : Nat :=
  match place with
  | .inside _ (.publish ..) =>
    if (w.lookup call.loader.cache call.name).1.isSome then 1 else 0
  | _ => 0

variable (call) in
theorem overwrites_le (place : Place ρ κ) (w : World) :
    call.overwrites place w ≤ call.earns .definitions place w := by
  unfold overwrites
  split
  · split
    · exact Nat.le_refl 1
    · exact Nat.zero_le 1
  · exact Nat.zero_le _

/-- The entries before and after a step, with those that it removed. -/
theorem Books.entries {place next : Place ρ κ} {w w' : World} (books : call.Books place next w w')
    (unwritten : place.callback → w'.entries call.loader.cache = w.entries call.loader.cache) :
    w'.cacheSize call.loader.cache + call.earns .redefinitions place w +
        call.earns .entriesSwept place w + call.overwrites place w =
      w.cacheSize call.loader.cache + call.earns .definitions place w := by
  have unchanged (entries : w'.entries call.loader.cache = w.entries call.loader.cache)
      (earns : ∀ counter, call.earns counter place w = 0) :
      w'.cacheSize call.loader.cache + call.earns .redefinitions place w +
          call.earns .entriesSwept place w + call.overwrites place w =
        w.cacheSize call.loader.cache + call.earns .definitions place w := by
    have overwrites := call.overwrites_le place w
    rw [earns] at overwrites
    simp only [earns, Nat.le_zero.mp overwrites, World.cacheSize, entries]
  cases books with
  | callback calls =>
    refine unchanged (unwritten calls) fun counter => ?_
    unfold earns
    split <;> first | cases calls | rfl
  | forget here change =>
    subst here change
    have erased := (w.entries call.loader.cache).size_erase_add call.name
    simp only [earns, overwrites, World.cacheSize, World.invalidate, replace_self, Nat.add_zero]
    exact erased
  | publish here change goes =>
    subst here change
    have split := (w.entries call.loader.cache).size_filter_add w.alive
    have erased := ((w.entries call.loader.cache).filter w.alive).size_erase_add call.name
    have found : (w.lookup call.loader.cache call.name).1.isSome =
        ((w.entries call.loader.cache).filter w.alive).contains call.name := by
      rw [World.lookup_eq, Table.contains, Table.get?_filter]
    simp only [earns, overwrites, World.cacheSize, World.publish, replace_self, Table.size_insert,
      found]
    omega
  | note own change earns =>
    refine unchanged ?_ earns
    rw [change]
    cases ‹Note› <;> rfl
  | aside own entries counters earns => exact unchanged (by rw [entries]) earns

/-- A counter grows by what was to be noted, and later by what the step has to be counted for. -/
theorem Books.counters {place next : Place ρ κ} {w w' : World} {counter : Counter}
    (books : call.Books place next w w') (entries : counter.ofEntries)
    (unwritten : place.callback →
      w'.counter call.loader.counters counter = w.counter call.loader.counters counter) :
    w'.counter call.loader.counters counter + UInt64.ofNat (call.owes counter next) =
      w.counter call.loader.counters counter + UInt64.ofNat (call.owes counter place) +
        UInt64.ofNat (call.earns counter place w) := by
  cases books with
  | callback calls owes =>
    have earns : call.earns counter place w = 0 := by
      unfold Call.earns
      split <;> first | cases calls | rfl
    rw [unwritten calls, owes counter entries, earns]
    exact (UInt64.add_zero _).symm
  | @forget lock here change owes =>
    have nothing : call.owes counter place = 0 := by rw [here]; rfl
    rw [owes counter entries, nothing, change]
    exact congrArg (· + _) (UInt64.add_zero _).symm
  | @publish lock context artifact here change goes owes =>
    have nothing : call.owes counter place = 0 := by rw [here]; rfl
    rw [owes counter entries, UInt64.ofNat_toNat, nothing, change]
    exact congrArg (· + _) (UInt64.add_zero _).symm
  | note own change earns owes =>
    rw [change, Note.counter_apply, owes counter entries, earns, UInt64.ofNat_add]
    grind
  | aside own same counters earns owes =>
    have kept : w'.counter call.loader.counters counter = w.counter call.loader.counters counter := by
      rw [World.counter, counters, World.counter]
    rw [kept, owes counter entries, earns]
    exact (UInt64.add_zero _).symm

/-- No step writes the counters of another loader, unless it is one of a callback. -/
theorem Books.counters_of_ne {place next : Place ρ κ} {w w' : World} {id : CountersId}
    (books : call.Books place next w w') (counter : Counter)
    (unwritten : place.callback → w'.counter id counter = w.counter id counter)
    (other : id ≠ call.loader.counters) : w'.counter id counter = w.counter id counter := by
  cases books with
  | callback calls => exact unwritten calls
  | forget here change => rw [change]; rfl
  | publish here change => rw [change]; rfl
  | @note note own change =>
    rw [change]
    cases note with
    | count noted amount => exact World.counter_count_of_ne w noted counter amount other
    | record event => rfl
  | aside own same counters => rw [World.counter, counters, World.counter]

/-- No step writes another cache, unless it is one of a callback. -/
theorem Books.entries_of_ne {place next : Place ρ κ} {w w' : World}
    (books : call.Books place next w w')
    (unwritten : place.callback → w'.entries cache = w.entries cache)
    (other : cache ≠ call.loader.cache) : w'.entries cache = w.entries cache := by
  cases books with
  | callback calls => exact unwritten calls
  | forget here change => exact change ▸ replace_of_ne _ _ other
  | publish here change => exact change ▸ replace_of_ne _ _ other
  | @note note own change => rw [change]; cases note <;> rfl
  | aside own entries => rw [entries]

/-- A name without an entry gets none, unless a definition of the name publishes. -/
theorem Books.absent {place next : Place ρ κ} {w w' : World} {name : Name}
    (books : call.Books place next w w')
    (unwritten : place.callback → w'.entries call.loader.cache = w.entries call.loader.cache)
    (elsewhere : ∀ lock context artifact, place = .inside lock (.publish context artifact) →
      name ≠ call.name)
    (absent : (w.entries call.loader.cache).get? name = none) :
    (w'.entries call.loader.cache).get? name = none := by
  cases books with
  | callback calls => rw [unwritten calls, absent]
  | forget here change => simp [change, World.invalidate, absent]
  | @publish lock context artifact here change =>
    have other := elsewhere lock context artifact here
    simp [change, World.publish, Table.get?_filter, other, absent]
  | @note note own change =>
    rw [change]
    cases note <;> exact absent
  | aside own entries => rw [entries, absent]

end Call

/-- Whether the definition has removed the entry of its name, and has published none. -/
def Place.cleared : Place ρ κ → Bool
  | .inside _ (.note ..) | .inside _ (.pack _) | .inside _ (.instantiate _) | .inside _ (.load ..)
  | .inside _ (.publish ..) => true
  | _ => false

theorem Place.marked_of_cleared {place : Place ρ κ} (cleared : place.cleared) : place.marked := by
  unfold Place.cleared at cleared
  split at cleared <;> first | rfl | cases cleared

namespace Call

variable {call : Call ρ κ}

private theorem cleared_atReporting (lock : Option LockId) (ending : Ending) (notes : List Note) :
    (atReporting lock ending notes : Place ρ κ).cleared = false := by
  cases notes with
  | nil => cases lock <;> rfl
  | cons first others => rfl

/-- A definition whose name has been cleared has just done it, or it was cleared before. -/
theorem cleared_advance {place : Place ρ κ} {turn : Turn (System ρ) (Place ρ κ)}
    (advances : call.advance place = some turn) {s : System ρ} (cleared : (turn.next s).cleared) :
    (∃ lock, place = .inside lock .forget) ∨
      place.cleared ∧ ∀ lock context artifact, place ≠ .inside lock (.publish context artifact) := by
  have absurdReport {lock : Option LockId} {ending : Ending} {notes : List Note}
      (cleared : (atReporting lock ending notes : Place ρ κ).cleared) : False := by
    rw [cleared_atReporting] at cleared
    cases cleared
  cases place with
  | check =>
    cases advances
    simp only [] at cleared
    split at cleared
    · exact (absurdReport cleared).elim
    · split at cleared <;> cases cleared
  | take => cases advances; cases cleared
  | wait lock => cases advances; cases cleared
  | inside lock stage =>
    cases advances
    cases stage with
    | mark =>
      simp only [advanceStage] at cleared
      split at cleared
      · exact (absurdReport cleared).elim
      · cases cleared
    | forget => exact .inl ⟨lock, rfl⟩
    | note | pack | instantiate | load => exact .inr ⟨rfl, fun _ _ _ same => by cases same⟩
    | publish => cases cleared
    | close => cases cleared
    | unmark => exact (absurdReport cleared).elim
    | report => exact (absurdReport cleared).elim
  | unlock lock ending => cases advances; cases cleared
  | drop lock ending => cases advances; cases cleared
  | ended ending => cases advances

end Call

/-! ### What runs conserve -/

/-- How much a definition at its place will add to a counter. -/
def Running.owes (id : CountersId) (counter : Counter) (running : Running ρ κ) : Nat :=
  if running.call.loader.counters = id then running.call.owes counter running.place else 0

/-- How much the step has to be counted for. -/
def Move.earns (id : CountersId) (counter : Counter) (move : Move ρ κ) : Nat :=
  if move.running.call.loader.counters = id then
    move.running.call.earns counter move.running.place move.before
  else 0

/-- How many live entries of the cache the step overwrites. -/
def Move.overwrites (cache : CacheId) (move : Move ρ κ) : Nat :=
  if move.running.call.loader.cache = cache then
    move.running.call.overwrites move.running.place move.before
  else 0

/-- A step that is one of a callback does not write the cache or the counters. -/
def Move.Spares (cache : CacheId) (ids : Finset CountersId) (move : Move ρ κ) : Prop :=
  move.running.place.callback → move.before.Unwritten cache ids move.after

/-- The loaders with these counters are those that share the cache. Nobody else writes it, or counts
    for them. -/
structure Rules.Sharing (rules : Rules ρ κ) (cache : CacheId) (ids : Finset CountersId) : Prop where
  begins : ∀ call w, rules.begins call w →
    (call.loader.counters ∈ ids ↔ call.loader.cache = cache)
  outside : ∀ w w', rules.outside w w' → w.Unwritten cache ids w'

namespace Pool

/-- How much a counter has to count for all these steps. -/
def earned (id : CountersId) (counter : Counter) (trace : List (Move ρ κ)) : Nat :=
  (trace.map (Move.earns id counter)).sum

/-- How often these steps overwrote a live entry of the cache. -/
def overwritten (cache : CacheId) (trace : List (Move ρ κ)) : Nat :=
  (trace.map (Move.overwrites cache)).sum

/-- What the entries of a cache, and the counters of these loaders, have to do with each other. -/
structure Booked (cache : CacheId) (ids : Finset CountersId) (trace : List (Move ρ κ))
    (pool : Pool ρ κ) : Prop where
  entries : pool.world.cacheSize cache + ∑ id ∈ ids, earned id .redefinitions trace +
      ∑ id ∈ ids, earned id .entriesSwept trace + overwritten cache trace =
    ∑ id ∈ ids, earned id .definitions trace
  counters : ∀ id ∈ ids, ∀ counter : Counter, counter.ofEntries → ∀ indices, pool.Covers indices →
    pool.world.counter id counter + UInt64.ofNat (pool.total (Running.owes id counter) indices) =
      UInt64.ofNat (earned id counter trace)

theorem earned_cons (id : CountersId) (counter : Counter) (move : Move ρ κ)
    (trace : List (Move ρ κ)) :
    earned id counter (move :: trace) = move.earns id counter + earned id counter trace := by
  rw [earned, List.map_cons, List.sum_cons, earned]

theorem overwritten_cons (cache : CacheId) (move : Move ρ κ) (trace : List (Move ρ κ)) :
    overwritten cache (move :: trace) = move.overwrites cache + overwritten cache trace := by
  rw [overwritten, List.map_cons, List.sum_cons, overwritten]

theorem sum_earned_cons (counter : Counter) (move : Move ρ κ) (trace : List (Move ρ κ)) :
    ∑ id ∈ ids, earned id counter (move :: trace) =
      (if move.running.call.loader.counters ∈ ids then
        move.running.call.earns counter move.running.place move.before else 0) +
        ∑ id ∈ ids, earned id counter trace := by
  simp only [earned_cons, Finset.sum_add_distrib, Move.earns, Finset.sum_ite_eq]

variable {rules : Rules ρ κ} {start : System ρ} {trace : List (Move ρ κ)} {pool pool' : Pool ρ κ}
  {move : Option (Move ρ κ)}

private theorem booked_advance (booked : Booked cache ids trace pool) {index : Nat}
    {running : Running ρ κ} {turn : Turn (System ρ) (Place ρ κ)}
    (here : pool.calls index = some running)
    (sharing : running.call.loader.counters ∈ ids ↔ running.call.loader.cache = cache)
    (advances : running.call.advance running.place = some turn)
    (spares : running.place.callback →
      pool.world.Unwritten cache ids (turn.act pool.system).world) :
    Booked cache ids (⟨index, running, pool.world, (turn.act pool.system).world⟩ :: trace)
      (pool.put index { running with place := turn.next pool.system } (turn.act pool.system)) := by
  have books : running.call.Books running.place (turn.next pool.system) pool.world
    (turn.act pool.system).world := running.call.books_advance advances pool.system
  refine ⟨?_, ?_⟩
  · have before := booked.entries
    simp only [sum_earned_cons, overwritten_cons, Move.overwrites, sharing]
    show (turn.act pool.system).world.cacheSize cache + _ + _ + _ = _
    by_cases into : running.call.loader.cache = cache
    · have step := books.entries fun calls => by rw [into]; exact (spares calls).entries
      rw [into] at step
      simp only [if_pos into]
      omega
    · have entries := books.entries_of_ne (fun calls => (spares calls).entries) (Ne.symm into)
      have size : (turn.act pool.system).world.cacheSize cache = pool.world.cacheSize cache :=
        congrArg Table.size entries
      simp only [if_neg into]
      omega
  · intro id listed counter entries indices covers
    obtain ⟨mine, covered⟩ := covers.of_put
    have before := booked.counters id listed counter entries indices covered
    have total := congrArg UInt64.ofNat <| total_put (Running.owes id counter) mine here
      { running with place := turn.next pool.system } (turn.act pool.system)
    rw [UInt64.ofNat_add, UInt64.ofNat_add] at total
    rw [earned_cons, UInt64.ofNat_add, ← before]
    show (turn.act pool.system).world.counter id counter + _ = _
    by_cases own : running.call.loader.counters = id
    · have step := books.counters entries fun calls =>
        (spares calls).counters _ (own ▸ listed) _ entries
      simp only [Running.owes, Move.earns, if_pos own] at total ⊢
      rw [own] at step
      grind
    · have step := books.counters_of_ne counter
        (fun calls => (spares calls).counters id listed counter entries) (Ne.symm own)
      simp only [Running.owes, Move.earns, if_neg own] at total ⊢
      grind

private theorem Booked.step (booked : Booked cache ids trace pool)
    (sharing : rules.Sharing cache ids) (run : Run rules start trace pool)
    (next : Step rules pool move pool') (spares : ∀ taken ∈ move, taken.Spares cache ids) :
    Booked cache ids (move.toList ++ trace) pool' := by
  cases next with
  | @begin index call unused allowed =>
    refine ⟨booked.entries, fun id listed counter entries indices covers => ?_⟩
    obtain ⟨mine, covered⟩ := covers.of_put
    have owes : Running.owes id counter ⟨call, .check, pool.world.created⟩ = 0 := ite_self _
    rw [total_begin mine unused, owes]
    exact booked.counters id listed counter entries indices covered
  | @outside system allowed =>
    have unwritten := sharing.outside _ _ allowed
    refine ⟨?_, ?_⟩
    · have size : ({ pool with system } : Pool ρ κ).world.cacheSize cache =
          pool.world.cacheSize cache := congrArg Table.size unwritten.entries
      rw [size]
      exact booked.entries
    · intro id listed counter entries indices covers
      refine Eq.trans ?_ (booked.counters id listed counter entries indices covers)
      exact congrArg (· + _) (unwritten.counters id listed counter entries)
  | @advance index running turn here advances ready =>
    have own := run.begun sharing.begins index running here
    exact booked_advance booked here own advances (spares _ rfl)

private theorem Run.booked (sharing : rules.Sharing cache ids)
    (empty : start.world.cacheSize cache = 0)
    (zero : ∀ id ∈ ids, ∀ counter : Counter, counter.ofEntries → start.world.counter id counter = 0)
    (run : Run rules start trace pool) (spares : ∀ move ∈ trace, move.Spares cache ids) :
    Booked cache ids trace pool := by
  induction run with
  | start =>
    refine ⟨?_, ?_⟩
    · simpa [earned, overwritten, world] using empty
    · intro id listed counter entries indices _
      have counter : (⟨start, fun _ => none⟩ : Pool ρ κ).world.counter id counter = 0 :=
        zero id listed counter entries
      rw [total_eq_zero (fun _ _ here => by cases here), counter, UInt64.zero_add]
      rfl
  | step before next ih =>
    refine (ih fun move listed => spares move (List.mem_append_right _ listed)).step sharing before next ?_
    exact fun move taken => spares move (List.mem_append_left _ (Option.mem_toList.mpr taken))

/-! ### Definitions that do not come between each other -/

/-- No definition publishes while another one of the name into the cache is at work. -/
def Undisturbed (cache : CacheId) (pool : Pool ρ κ) (_ : Unit) (move : Option (Move ρ κ))
    (_ : Pool ρ κ) (_ : Unit) : Prop :=
  ∀ taken ∈ move, ∀ lock context artifact,
    taken.running.place = .inside lock (.publish context artifact) →
    taken.running.call.loader.cache = cache → ∀ other found, pool.calls other = some found →
      found.call.loader.cache = cache → found.call.name = taken.running.call.name →
      found.place.marked → other = taken.index

/-- A name has no entry from the time that a definition cleared it until the definition publishes. -/
def Cleared (cache : CacheId) (pool : Pool ρ κ) : Prop :=
  ∀ index running, pool.calls index = some running → running.call.loader.cache = cache →
    running.place.cleared → (pool.world.entries cache).get? running.call.name = none

private theorem cleared_advance (cleared : Cleared cache pool) {index : Nat}
    {running : Running ρ κ} {turn : Turn (System ρ) (Place ρ κ)}
    (here : pool.calls index = some running)
    (advances : running.call.advance running.place = some turn)
    (spares : running.place.callback →
      pool.world.Unwritten cache ids (turn.act pool.system).world)
    (kept : pool.Undisturbed cache ()
      (some ⟨index, running, pool.world, (turn.act pool.system).world⟩)
      (pool.put index { running with place := turn.next pool.system } (turn.act pool.system)) ()) :
    Cleared cache
      (pool.put index { running with place := turn.next pool.system } (turn.act pool.system)) := by
  have books : running.call.Books running.place (turn.next pool.system) pool.world
    (turn.act pool.system).world := running.call.books_advance advances pool.system
  have unwritten := fun calls => (spares calls).entries
  intro other found there into stage
  show ((turn.act pool.system).world.entries cache).get? _ = none
  by_cases same : running.call.loader.cache = cache
  · subst same
    rcases calls_put there with ⟨rfl, rfl⟩ | ⟨different, before⟩
    · rcases running.call.cleared_advance advances stage with ⟨lock, place⟩ | ⟨earlier, quiet⟩
      · rw [place] at advances
        cases advances
        simp [Call.advanceStage, World.invalidate]
      · exact books.absent unwritten (fun _ _ _ place => (quiet _ _ _ place).elim)
          (cleared other running here rfl earlier)
    · refine books.absent unwritten (fun lock context artifact place name => ?_)
        (cleared other found before into stage)
      exact different (kept _ rfl lock context artifact place rfl other found before into name
        (Place.marked_of_cleared stage))
  · rw [books.entries_of_ne unwritten (Ne.symm same)]
    rcases calls_put there with ⟨-, rfl⟩ | ⟨-, before⟩
    · exact absurd into same
    · exact cleared other found before into stage

private theorem cleared_step (cleared : Cleared cache pool) (sharing : rules.Sharing cache ids)
    (next : Step rules pool move pool') (spares : ∀ taken ∈ move, taken.Spares cache ids)
    (kept : pool.Undisturbed cache () move pool' ()) : Cleared cache pool' := by
  cases next with
  | begin unused allowed =>
    intro other found there into stage
    rcases calls_put there with ⟨-, rfl⟩ | ⟨-, before⟩
    · cases stage
    · exact cleared other found before into stage
  | outside allowed =>
    intro other found there into stage
    exact (congrArg (Table.get? · _) (sharing.outside _ _ allowed).entries).trans
      (cleared other found there into stage)
  | advance here advances ready => exact cleared_advance cleared here advances (spares _ rfl) kept

private theorem overwrites_step (cleared : Cleared cache pool) (next : Step rules pool move pool')
    {taken : Move ρ κ} (moved : taken ∈ move) : taken.overwrites cache = 0 := by
  cases next with
  | begin => cases moved
  | outside => cases moved
  | @advance index running turn here =>
    cases moved
    unfold Move.overwrites Call.overwrites
    split
    · next into =>
      split
      · next lock context artifact place =>
        have absent := cleared index running here into (by rw [place]; rfl)
        rw [World.lookup_eq, into, absent]
        rfl
      · rfl
    · rfl

/-- When definitions do not come between each other, no live entry is overwritten. -/
private theorem Course.overwritten (sharing : rules.Sharing cache ids) {now : Unit}
    (course : Course rules (Undisturbed cache) ⟨start, fun _ => none⟩ () trace pool now)
    (spares : ∀ move ∈ trace, move.Spares cache ids) :
    Cleared cache pool ∧ overwritten cache trace = 0 := by
  induction course with
  | start => exact ⟨fun _ _ here => (by cases here), rfl⟩
  | @step trace pool pool' _ _ move before next kept ih =>
    obtain ⟨cleared, nothing⟩ := ih fun move listed => spares move (List.mem_append_right _ listed)
    have spared : ∀ taken ∈ move, taken.Spares cache ids := fun taken moved =>
      spares taken (List.mem_append_left _ (Option.mem_toList.mpr moved))
    refine ⟨cleared_step cleared sharing next spared kept, ?_⟩
    cases moved : move with
    | none => exact nothing
    | some taken =>
      refine (overwritten_cons cache taken trace).trans ?_
      rw [overwrites_step cleared next (Option.mem_def.mpr moved), nothing]

/-! #### Definitions on one thread -/

/-- A thread that publishes is marked, so no other definition on it is at work. -/
private theorem Course.undisturbed {thread : ThreadId} {scopes : Scopes}
    (unmarked : ∀ thread, start.world.marker thread = none)
    (alone : ∀ call w, rules.begins call w → call.thread = thread)
    (course : Course rules Disciplined ⟨start, fun _ => none⟩ (fun _ => none) trace pool scopes) :
    Course rules (Undisturbed cache) ⟨start, fun _ => none⟩ () trace pool () := by
  induction course with
  | start => exact .start
  | @step trace pool pool' scopes scopes' move before next kept ih =>
    refine .step ih next fun taken moved lock context artifact place _ other found there _ _ marked => ?_
    have matching := before.matching unmarked
    have threads := (before.run .start).begun alone
    cases next with
    | begin => cases moved
    | outside => cases moved
    | @advance index running turn here =>
      cases moved
      have live (place : Nat) (running : Running ρ κ) (here : pool.calls place = some running)
          (marked : running.place.marked) :
          pool.live scopes (.inr place) = some (thread, running.call.name) := by
        have scope : pool.live scopes (.inr place) = running.scope? := by
          rw [Pool.live, here]
          rfl
        have own : running.call.thread = thread := threads place running (by simpa using here)
        rw [scope, Running.scope?, if_pos marked, own]
      have mine := live index running here (by rw [place]; rfl)
      exact Sum.inr.inj (matching.alone (live other found there marked) mine)

/-! #### Definitions that serialize -/

/-- A definition at work that serializes holds its lock. -/
theorem held_of_marked {place : Place ρ κ} (locking : place.Locking) (marked : place.marked) :
    place.held?.isSome := by
  cases place with
  | inside lock stage =>
    cases lock with
    | some lock => rfl
    | none => cases stage <;> first | exact locking.elim | cases marked
  | check | take | wait | unlock | drop | ended => cases marked

private theorem Run.locking (keep : rules.KeepLocks)
    (serialize : ∀ call w, rules.begins call w → call.loader.cache = cache →
      call.loader.settings.serialize = true) (run : Run rules start trace pool) :
    ∀ index running, pool.calls index = some running → running.call.loader.cache = cache →
      running.place.Locking := by
  induction run with
  | start =>
    intro _ _ here
    cases here
  | step before next ih =>
    intro other found there into
    cases next with
    | begin =>
      rcases calls_put there with ⟨-, rfl⟩ | ⟨-, earlier⟩
      · trivial
      · exact ih other found earlier into
    | @advance index running turn here advances ready =>
      rcases calls_put there with ⟨-, rfl⟩ | ⟨-, earlier⟩
      · obtain ⟨spares, keeps⟩ := (before.locked keep).keeps index running here
        exact Call.locking_advance spares (before.begun serialize index running here into) keeps
          (ih index running here into) advances ready
      · exact ih other found earlier into
    | outside => exact ih other found there into

/-- Whoever publishes holds the definition lock of the name, so no other definition of the name is at
    work. -/
private theorem Run.undisturbed (keep : rules.KeepLocks)
    (serialize : ∀ call w, rules.begins call w → call.loader.cache = cache →
      call.loader.settings.serialize = true) (run : Run rules start trace pool) :
    Course rules (Undisturbed cache) ⟨start, fun _ => none⟩ () trace pool () := by
  refine run.course fun before next taken moved lock context artifact place into other found there
    into' name marked => ?_
  have locked := before.locked keep
  have locking := before.locking keep serialize
  cases next with
  | begin => cases moved
  | outside => cases moved
  | @advance index running turn here =>
    cases moved
    have mine := held_of_marked (locking index running here into) (by rw [place]; rfl)
    have theirs := held_of_marked (locking other found there into') marked
    exact locked.exclusive there here (into'.trans into.symm) name theirs mine

/-- Why definitions do not come between each other. -/
inductive Apart (rules : Rules ρ κ) (cache : CacheId) (start : System ρ) (trace : List (Move ρ κ))
    (pool : Pool ρ κ) : Prop where
  | undisturbed
      (course : Course rules (Undisturbed cache) ⟨start, fun _ => none⟩ () trace pool ())
  /-- All run on one thread, where scopes are dropped by whoever began them. -/
  | single (thread : ThreadId) (scopes : Scopes)
      (unmarked : ∀ thread, start.world.marker thread = none)
      (alone : ∀ call w, rules.begins call w → call.thread = thread)
      (course : Course rules Disciplined ⟨start, fun _ => none⟩ (fun _ => none) trace pool scopes)
  /-- Those into the cache take the definition lock of their name. -/
  | serialized (keep : rules.KeepLocks)
      (serialize : ∀ call w, rules.begins call w → call.loader.cache = cache →
        call.loader.settings.serialize = true)

private theorem Apart.course (apart : Apart rules cache start trace pool)
    (run : Run rules start trace pool) :
    Course rules (Undisturbed cache) ⟨start, fun _ => none⟩ () trace pool () := by
  cases apart with
  | undisturbed course => exact course
  | single thread scopes unmarked alone course => exact course.undisturbed unmarked alone
  | serialized keep serialize => exact run.undisturbed keep serialize

/-- When no definition is in progress, the counters tell what they had to count. -/
private theorem Booked.counted (booked : Booked cache ids trace pool)
    (run : Run rules start trace pool) (settled : pool.Settled) {id : CountersId}
    (listed : id ∈ ids) {counter : Counter} (entries : counter.ofEntries)
    (unwrapped : earned id counter trace < 2 ^ 64) :
    (pool.world.counter id counter).toNat = earned id counter trace := by
  obtain ⟨indices, covers⟩ := run.covered
  have nothing : pool.total (Running.owes id counter) indices = 0 := by
    refine total_eq_zero fun index running here => ?_
    obtain ⟨ending, ended⟩ := settled index running here
    rw [Running.owes, ended]
    exact ite_self _
  have counts := booked.counters id listed counter entries indices covers
  rw [nothing] at counts
  rw [← UInt64.add_zero (pool.world.counter id counter)]
  refine (congrArg UInt64.toNat counts).trans ?_
  rw [UInt64.toNat_ofNat', Nat.mod_eq_of_lt unwrapped]

/-! #### Definitions in memory -/

private theorem spares_advance {rules : Rules ρ MemoryContext} {packs : Packs}
    {pool : Pool ρ MemoryContext} (outside : ∀ w w', rules.outside w w' → w.Unwritten cache ids w')
    (sound : pool.Sound rules.outside packs) {index : Nat} {running : Running ρ MemoryContext}
    {turn : Turn (System ρ) (Place ρ MemoryContext)} (here : pool.calls index = some running)
    (advances : running.call.advance running.place = some turn) (ready : turn.ready pool.system)
    (calls : running.place.callback) :
    pool.world.Unwritten cache ids (turn.act pool.system).world := by
  have before := sound.calls index running here
  have hooked := before.hooked
  have within := sound.within here
  cases place : running.place with
  | check | take | wait | unlock | drop | ended => rw [place] at calls; cases calls
  | inside lock stage =>
    rw [place] at advances calls hooked within
    cases advances
    cases stage with
    | mark | forget | note | publish | unmark | report => cases calls
    | pack turn =>
      exact outside _ _ (Call.Hooked.turn_of_packed hooked (within rfl) ready).1
    | instantiate turn =>
      obtain ⟨image, api, gives, hooked⟩ := hooked
      rcases hooked.turn (within rfl) ready with ⟨allowed, -⟩ | rfl
      · exact outside _ _ allowed
      · exact .of_confined _ fun _ => (MemoryContext.instantiate_growing ..).toConfined
    | load context turn =>
      obtain ⟨seeded, hooked⟩ := hooked
      rcases hooked.turn (within rfl) ready with ⟨allowed, -⟩ | rfl
      · exact outside _ _ allowed
      · have marker := before.marked (by rw [place]; rfl)
        obtain ⟨unbuilt, made⟩ := before.context context (by rw [place]; rfl)
        exact .of_confined [] fun _ =>
          (MemoryContext.load_growing [] seeded.parent marker unbuilt made).toConfined
    | close context result =>
      have closes := before.memory.close context pool.system.world
      simp only [Call.advanceStage, Turn.change, closes]
      exact .of_confined [] fun _ => MemoryContext.close_confined context pool.system.world

/-- In memory, no callback writes a cache, or counts definitions. -/
theorem Run.spares {rules : Rules ρ MemoryContext} {packs : Packs} {start : System ρ}
    {trace : List (Move ρ MemoryContext)} {pool : Pool ρ MemoryContext}
    (memory : rules.Hosting packs)
    (outside : ∀ w w', rules.outside w w' → w.Unwritten cache ids w')
    (fresh : start.world.FreshContexts) (grounded : start.world.Grounded)
    (run : Run rules start trace pool) : ∀ move ∈ trace, move.Spares cache ids := by
  induction run with
  | start => exact fun _ listed => by cases listed
  | step before next ih =>
    intro move listed
    rcases List.mem_append.mp listed with now | earlier
    · cases next with
      | begin => cases now
      | outside => cases now
      | advance here advances ready =>
        obtain rfl := List.mem_singleton.mp now
        exact spares_advance outside (before.sound memory fresh grounded) here advances ready
    · exact ih move earlier

/-- The entries of a cache that loaders share, and those that were removed, are those that their
    definitions have put there, but for live ones that were overwritten. None is overwritten where no
    definition publishes while another one of the name is at work. -/
theorem define_conserves (sharing : rules.Sharing cache ids)
    (empty : start.world.cacheSize cache = 0)
    (zero : ∀ id ∈ ids, ∀ counter : Counter, counter.ofEntries → start.world.counter id counter = 0)
    (run : Run rules start trace pool) (spares : ∀ move ∈ trace, move.Spares cache ids)
    (unwrapped : ∀ id ∈ ids, ∀ counter : Counter, counter.ofEntries →
      earned id counter trace < 2 ^ 64) (settled : pool.Settled) :
    pool.world.cacheSize cache + pool.world.counted ids .redefinitions +
        pool.world.counted ids .entriesSwept ≤ pool.world.counted ids .definitions ∧
      (Apart rules cache start trace pool →
        pool.world.cacheSize cache + pool.world.counted ids .redefinitions +
          pool.world.counted ids .entriesSwept = pool.world.counted ids .definitions) := by
  have booked := run.booked sharing empty zero spares
  have counts (counter : Counter) (entries : counter.ofEntries) :
      pool.world.counted ids counter = ∑ id ∈ ids, earned id counter trace :=
    Finset.sum_congr rfl fun id listed =>
      booked.counted run settled listed entries (unwrapped id listed counter entries)
  have balance := booked.entries
  rw [← counts .definitions rfl, ← counts .redefinitions rfl, ← counts .entriesSwept rfl] at balance
  refine ⟨by omega, fun apart => ?_⟩
  have nothing := ((apart.course run).overwritten sharing spares).2
  omega

/-- Two definitions of a name that begin at once, and wait for each other. -/
theorem define_conserves_interleaved :
    let unit : Artifact := ⟨1, ⟨"a", by decide⟩, 0, .nothing⟩
    let raw : Bytes := [0x48, 0x53, 0x55, 0x31, 0, 0, 7]
    let call (thread : Nat) : Call Unit MemoryContext :=
      (Loader.linkedBehind unit).call ⟨thread⟩ unit.name raw
    let outside (w w' : World) : Prop :=
      w.Foreign w' ∧ w.KeepsLocks w' ∧ w.Unwritten .processWide {⟨0⟩} w'
    let rules : Rules Unit MemoryContext :=
      { begins := fun begun w => begun.InMemory outside w.created ∧ ∃ thread, begun = call thread
        outside := outside }
    ∃ trace pool, Run rules ⟨{ created := 1, held := [1] }, ()⟩ trace pool ∧ pool.Settled ∧
      pool.world.cacheSize .processWide = 1 ∧ pool.world.counted {⟨0⟩} .redefinitions = 1 ∧
      pool.world.cacheSize .processWide + pool.world.counted {⟨0⟩} .redefinitions +
        pool.world.counted {⟨0⟩} .entriesSwept = pool.world.counted {⟨0⟩} .definitions := by
  intro unit raw call outside rules
  let s : System Unit := ⟨{ created := 1, held := [1] }, ()⟩
  let both : Pool Unit MemoryContext :=
    (Pool.put ⟨s, fun _ => none⟩ 0 ⟨call 0, .check, 1⟩ s).put 1 ⟨call 1, .check, 1⟩ s
  let schedule : List Nat := [0, 1, 0, 1] ++ List.replicate 13 0 ++ List.replicate 15 1
  have ends : (both.follow schedule).any (fun ended =>
      ended.2.world.cacheSize .processWide = 1 ∧ ended.2.world.counted {⟨0⟩} .redefinitions = 1 ∧
      (∀ index ∈ schedule, (ended.2.calls index).all fun running =>
        (running.call.advance running.place).isNone) ∧
      earned ⟨0⟩ .definitions ended.1 + earned ⟨0⟩ .redefinitions ended.1 +
        earned ⟨0⟩ .entriesSwept ended.1 = 3) = true := by decide +kernel
  obtain ⟨⟨trace, pool⟩, followed, facts⟩ := (Option.any_eq_true _ _).mp ends
  obtain ⟨size, redefined, still, few⟩ := of_decide_eq_true facts
  have ancestors := Loader.linkedBehind_ancestors unit
  have begins : Run rules s [] both := by
    have allowed (thread : Nat) : rules.begins (call thread) s.world :=
      ⟨Loader.inMemory_call _ ancestors _ _ _, thread, rfl⟩
    have first : Run rules s [] (Pool.put ⟨s, fun _ => none⟩ 0 ⟨call 0, .check, 1⟩ s) :=
      .step .start (.begin rfl (allowed 0))
    exact .step first (.begin rfl (allowed 1))
  have run : Run rules s trace pool := by simpa using begins.follow followed
  have memory : rules.Memory := ⟨fun _ _ allowed => allowed.1, fun _ _ allowed => allowed.1⟩
  have sharing : rules.Sharing .processWide {⟨0⟩} := by
    refine ⟨?_, fun _ _ allowed => allowed.2.2⟩
    rintro _ _ ⟨-, thread, rfl⟩
    exact iff_of_true (Finset.mem_singleton_self _) rfl
  have serialize : ∀ begun w, rules.begins begun w → begun.loader.cache = .processWide →
      begun.loader.settings.serialize = true := by
    rintro _ _ ⟨-, thread, rfl⟩ -
    rfl
  have keep : rules.KeepLocks := by
    refine ⟨?_, fun _ _ allowed => allowed.2.1⟩
    rintro _ _ ⟨-, thread, rfl⟩
    exact Loader.keepsLocks_call _ _ _ _
  have settled : pool.Settled := by
    refine settled_of_follow followed (fun index unlisted => ?_) still
    have others : index ≠ 1 ∧ index ≠ 0 := by
      constructor <;> (rintro rfl; simp [schedule] at unlisted)
    rw [put_calls_of_ne _ _ _ others.1, put_calls_of_ne _ _ _ others.2]
  have spares : ∀ move ∈ trace, move.Spares .processWide {⟨0⟩} :=
    run.spares memory (fun _ _ allowed => allowed.2.2) (fun _ _ => rfl)
      (fun _ _ _ entry => by cases entry)
  have conserves := define_conserves sharing rfl (fun _ _ counter _ => by cases counter <;> rfl)
    run spares
    (fun id listed counter entries => by
      rw [Finset.mem_singleton.mp listed]
      cases counter with
      | definitions | redefinitions | entriesSwept => simp only [] at few ⊢; omega
      | definitionFailures | cacheHits | guardedMisses => cases entries) settled
  exact ⟨trace, pool, run, settled, size, redefined, conserves.2 (.serialized keep serialize)⟩

end Pool

end Reload
