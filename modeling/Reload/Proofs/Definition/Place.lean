import Reload.Loader

/-!
The places of a definition. The program of a definition is a chain of atomic steps, with the steps
of the packer and the host in between. A `Place` says how far a definition has come, and `advance`
tells what its next step does and where it leads. `define_eq_checking` and `rest_of_advance` say that
the places spell the program of `Loader.define`, step by step; all that is said about definitions
that run beside each other is said about places.
-/

namespace Reload

/-- How the steps under the marker end: with a panic, with a failure, or with an artifact and the
    number of entries that its publishing swept. -/
abbrev Result : Type := Except Panic (Except Failure (Artifact × Nat))

abbrev Ending : Type := Except Panic (Except DefinitionFailure Artifact)

/-- One step: the states that are ready for it, what it changes, and where it leads from the state
    before the change. -/
structure Turn (σ π : Type) where
  ready : σ → Bool
  act : σ → σ
  next : σ → π

def Turn.program {σ α : Type} (turn : Turn σ (Program σ α)) : Program σ α :=
  .step turn.ready turn.act turn.next

/-- A turn that waits for nothing and changes the shared state. -/
def Turn.change {ρ π : Type} (f : World → World) (next : π) : Turn (System ρ) π :=
  ⟨fun _ => true, fun s => { s with world := f s.world }, fun _ => next⟩

/-- What a definition notes down about itself. -/
inductive Note where
  | count (counter : Counter) (amount : UInt64)
  | record (event : Event)

def Note.apply (counters : CountersId) : Note → World → World
  | count counter amount, w => w.count counters counter amount
  | record event, w => w.record event

/-- The notes on a definition that ended so. A panic is not noted. -/
def Result.notes (name : Name) : Result → List Note
  | .error _ => []
  | .ok (.error cause) => [.count .definitionFailures 1, .record (Loader.failureEvent name cause)]
  | .ok (.ok (artifact, swept)) =>
    [.count .definitions 1, .count .entriesSwept (UInt64.ofNat swept),
      .record (.defined name artifact swept)]

/-- The end of the definition of a name whose steps under the marker end so. -/
def Result.ending (name : Name) : Result → Ending
  | .error panic => .error panic
  | .ok (.error cause) => .ok (.error ⟨name, cause⟩)
  | .ok (.ok (artifact, _)) => .ok (.ok artifact)

def Ending.panicked : Ending → Bool
  | .error _ => true
  | .ok _ => false

/-- What is called when a unit is defined. -/
structure Call (ρ κ : Type) where
  loader : Loader (Packer ρ) (Host ρ κ)
  thread : ThreadId
  name : Name
  raw : Bytes

/-- How far the steps have come that a definition lock guards: what is done next, or which callback
    is running. -/
inductive Stage (ρ κ : Type) where
  | mark
  | forget
  /-- About to note that an entry was removed. -/
  | note (first : Note) (others : List Note)
  | pack (turn : Turn (System ρ) (Program (System ρ) (Except Panic (Except Failure Bytes))))
  /-- Inside the host, which builds a context. -/
  | instantiate (turn : Turn (System ρ) (Program (System ρ) (Except Panic (Except Failure κ))))
  /-- Inside the host, which loads the artifact. -/
  | load (context : κ)
      (turn : Turn (System ρ) (Program (System ρ) (Except Panic (Except Failure (Option Artifact)))))
  | publish (context : κ) (artifact : Artifact)
  | close (context : κ) (result : Result)
  | unmark (result : Result)
  /-- About to note how the definition ended. -/
  | report (first : Note) (others : List Note) (ending : Ending)

/-- How far a definition has come. -/
inductive Place (ρ κ : Type) where
  /-- About to look whether the thread has a marker. -/
  | check
  /-- About to ask for a handle to the definition lock. -/
  | take
  | wait (lock : LockId)
  /-- Past the lock, if the loader serializes. -/
  | inside (lock : Option LockId) (stage : Stage ρ κ)
  | unlock (lock : LockId) (ending : Ending)
  | drop (lock : LockId) (ending : Ending)
  | ended (ending : Ending)

namespace Call

variable {ρ κ α : Type} (call : Call ρ κ)

/-!
### The programs at the places

Each is the rest of a definition from a place on: `packing` that of one about to ask its packer,
`packed` that of one whose packer has ended. Where a definition goes next is told by `after`.
-/

def changing (f : World → World) (rest : Program (System ρ) α) : Program (System ρ) α :=
  (Turn.change f rest).program

def noting (notes : List Note) (rest : Program (System ρ) α) : Program (System ρ) α :=
  notes.foldr (fun note rest => changing (note.apply call.loader.counters) rest) rest

/-- The rest of a definition after its notes. -/
def leaving (ending : Ending) : Option LockId → Program (System ρ) Ending
  | none => .done ending
  | some lock =>
    changing (fun w => w.unlock lock ending.panicked)
      (changing (fun w => w.dropHandle lock) (.done ending))

def reporting (lock : Option LockId) (result : Result) : Program (System ρ) Ending :=
  call.noting (result.notes call.name) (leaving (result.ending call.name) lock)

def unmarking (lock : Option LockId) (result : Result) : Program (System ρ) Ending :=
  changing (fun w => w.unmark call.thread) (call.reporting lock result)

def closing (context : κ) (after : Result → Program (System ρ) α) (result : Result) :
    Program (System ρ) α :=
  changing (fun w => call.loader.host.close context w) (after result)

/-- The rest of a definition that has loaded its artifact. -/
def publishing (context : κ) (after : Result → Program (System ρ) α) (artifact : Artifact) :
    Program (System ρ) α :=
  .step (fun _ => true)
    (fun s => { s with world := (s.world.publish call.loader.cache call.name artifact).2 })
    fun s => call.closing context after
      (.ok (.ok (artifact, (s.world.publish call.loader.cache call.name artifact).1)))

def loaded (context : κ) (after : Result → Program (System ρ) α) :
    Except Panic (Except Failure (Option Artifact)) → Program (System ρ) α
  | .error panic => call.closing context after (.error panic)
  | .ok (.error cause) => call.closing context after (.ok (.error cause))
  | .ok (.ok none) => call.closing context after (.ok (.error .emptyResult))
  | .ok (.ok (some artifact)) => call.publishing context after artifact

def loading (context : κ) (after : Result → Program (System ρ) α) : Program (System ρ) α :=
  (call.loader.host.load call.thread context call.name).run.run >>= call.loaded context after

def instantiated (after : Result → Program (System ρ) α) :
    Except Panic (Except Failure κ) → Program (System ρ) α
  | .error panic => after (.error panic)
  | .ok (.error cause) => after (.ok (.error cause))
  | .ok (.ok context) => call.loading context after

def instantiating (image : Bytes) (after : Result → Program (System ρ) α) : Program (System ρ) α :=
  (call.loader.host.instantiate call.thread image call.loader.resolver).run.run >>=
    call.instantiated after

def packed (after : Result → Program (System ρ) α) :
    Except Panic (Except Failure Bytes) → Program (System ρ) α
  | .error panic => after (.error panic)
  | .ok (.error cause) => after (.ok (.error cause))
  | .ok (.ok image) => call.instantiating image after

def packing (after : Result → Program (System ρ) α) : Program (System ρ) α :=
  (call.loader.packer.pack call.thread call.name call.raw).run.run >>= call.packed after

/-- The notes on the removal of an entry, if there was one. -/
def forgetNotes (present : Bool) : List Note :=
  if present then [.count .redefinitions 1, .record (.invalidated call.name)] else []

def forgetting (after : Result → Program (System ρ) α) : Program (System ρ) α :=
  .step (fun _ => true)
    (fun s => { s with world := (s.world.invalidate call.loader.cache call.name).2 })
    fun s => call.noting (call.forgetNotes (s.world.contains call.loader.cache call.name))
      (call.packing after)

def marking (lock : Option LockId) : Program (System ρ) Ending :=
  .step (fun _ => true)
    (fun s => { s with world := (s.world.mark call.thread call.name).2 })
    fun s => match (s.world.mark call.thread call.name).1 with
      | .error running => call.reporting lock (.ok (.error (.inFlight running)))
      | .ok () => call.forgetting (call.unmarking lock)

def waiting (lock : LockId) : Program (System ρ) Ending :=
  .step (fun s => s.world.isFree lock)
    (fun s => { s with world := s.world.acquire lock call.thread })
    fun _ => call.marking (some lock)

def taking : Program (System ρ) Ending :=
  .step (fun _ => true)
    (fun s => { s with world := (s.world.lockFor call.loader.cache.locks call.name).2 })
    fun s => call.waiting (s.world.lockFor call.loader.cache.locks call.name).1

def checking : Program (System ρ) Ending :=
  .step (fun _ => true) id fun s => match s.world.marker call.thread with
    | some running => call.reporting none (.ok (.error (.inFlight running)))
    | none => if call.loader.settings.serialize then call.taking else call.marking none

/-! ### The program of a definition -/

/-- What a definition does under its marker once the entry of the name is removed. -/
def work : Attempt ρ (Artifact × Nat) := do
  let image ← call.loader.packer.pack call.thread call.name call.raw
  let context ← call.loader.host.instantiate call.thread image call.loader.resolver
  call.loader.publishFrom call.thread call.name context

private theorem ensuring_bind {β : Type} (body : Action (System ρ) β) (f : World → World)
    (after : Except Panic β → Program (System ρ) α) :
    (body.ensuring fun _ => Action.changing f).run >>= after =
      body.run >>= fun result => changing f (after result) := by
  simp only [Action.ensuring, ExceptT.run_mk, bind_assoc]
  rfl

private theorem publishFrom_bind (context : κ) (after : Result → Program (System ρ) α) :
    (call.loader.publishFrom call.thread call.name context).run.run >>= after =
      call.loading context after := by
  unfold Loader.publishFrom loading
  simp only [ExceptT.run_mk, ensuring_bind, ExceptT.run_bind, bind_assoc]
  congr 1
  funext loaded
  rcases loaded with panic | cause | _ | artifact <;> rfl

/-- The rest of a definition that turns to its packer is its work, and what comes after it. -/
theorem work_bind (after : Result → Program (System ρ) α) :
    call.work.run.run >>= after = call.packing after := by
  unfold work packing
  simp only [ExceptT.run_bind, bind_assoc]
  congr 1
  funext packed
  rcases packed with panic | cause | image
  · rfl
  · rfl
  · show _ = call.instantiating image after
    unfold instantiating
    simp only [ExceptT.run_bind, bind_assoc]
    congr 1
    funext instantiated
    rcases instantiated with panic | cause | context
    · rfl
    · rfl
    · exact call.publishFrom_bind context after

private theorem forget_bind (rest : Attempt ρ (Artifact × Nat))
    (after : Result → Program (System ρ) α) :
    (do
      ExceptT.lift (call.loader.forget call.name)
      rest).run.run >>= after =
      .step (fun _ => true)
        (fun s => { s with world := (s.world.invalidate call.loader.cache call.name).2 })
        fun s => call.noting (call.forgetNotes (s.world.contains call.loader.cache call.name))
          (rest.run.run >>= after) := by
  refine congrArg (Program.step _ _) (funext fun s => ?_)
  unfold forgetNotes
  simp only [World.invalidate]
  cases s.world.contains call.loader.cache call.name <;> rfl

private theorem defineMarked_bind (lock : Option LockId) :
    (call.loader.defineMarked call.thread call.name call.raw).run.run >>= call.reporting lock =
      call.marking lock := by
  refine congrArg (Program.step _ _) (funext fun s => ?_)
  simp only []
  cases (s.world.mark call.thread call.name).1 with
  | error running => rfl
  | ok _ =>
    refine (ensuring_bind _ _ _).trans ?_
    unfold forgetting
    rw [call.forget_bind, ← call.work_bind]
    rfl

/-- The steps under the lock, and the notes on how they ended. -/
private def guardedBody : Action (System ρ) (Except DefinitionFailure Artifact) := do
  match ← (call.loader.defineMarked call.thread call.name call.raw).run with
  | .ok (artifact, swept) => call.loader.succeed call.name artifact swept
  | .error cause => call.loader.fail call.name cause

private theorem guardedBody_bind (lock : Option LockId) :
    call.guardedBody.run >>= (fun ending => leaving ending lock) = call.marking lock := by
  unfold guardedBody
  rw [ExceptT.run_bind, bind_assoc, ← call.defineMarked_bind]
  congr 1
  funext result
  rcases result with panic | cause | ⟨artifact, swept⟩ <;> rfl

private theorem serialized_eq (serialize : call.loader.settings.serialize = true) :
    (call.loader.serialized call.thread call.name call.guardedBody).run = call.taking := by
  unfold Loader.serialized
  rw [if_pos serialize]
  refine congrArg (Program.step _ _) (funext fun before => ?_)
  refine congrArg (Program.step _ _) (funext fun _ => ?_)
  refine Eq.trans ?_ (call.guardedBody_bind (some (before.world.lockFor _ _).1))
  refine congrArg (call.guardedBody.run >>= ·) (funext fun ending => ?_)
  cases ending <;> rfl

/-- The places spell the program of a definition from its first step on. -/
theorem define_eq_checking :
    (call.loader.define call.thread call.name call.raw).run = call.checking := by
  refine congrArg (Program.step _ _) (funext fun s => ?_)
  simp only []
  cases s.world.marker call.thread with
  | some running => rfl
  | none =>
    show (call.loader.serialized call.thread call.name call.guardedBody).run = _
    by_cases serialize : call.loader.settings.serialize = true
    · simp only [serialize, if_true]
      exact call.serialized_eq serialize
    · simp only [serialize]
      unfold Loader.serialized
      rw [if_neg serialize, ← call.guardedBody_bind none]
      exact (bind_pure _).symm

/-!
### The place after a step

Where a definition goes with the programs above: `atPacking` with `packing`, `atPacked` with `packed`.
-/

/-- Where a definition goes once it has reported. -/
def atLeaving (ending : Ending) : Option LockId → Place ρ κ
  | none => .ended ending
  | some lock => .unlock lock ending

/-- Where a definition goes that has these notes left to take before it leaves. -/
def atReporting (lock : Option LockId) (ending : Ending) : List Note → Place ρ κ
  | [] => atLeaving ending lock
  | first :: others => .inside lock (.report first others ending)

def atReport (lock : Option LockId) (result : Result) : Place ρ κ :=
  atReporting lock (result.ending call.name) (result.notes call.name)

def atLoaded (lock : Option LockId) (context : κ) :
    Except Panic (Except Failure (Option Artifact)) → Place ρ κ
  | .error panic => .inside lock (.close context (.error panic))
  | .ok (.error cause) => .inside lock (.close context (.ok (.error cause)))
  | .ok (.ok none) => .inside lock (.close context (.ok (.error .emptyResult)))
  | .ok (.ok (some artifact)) => .inside lock (.publish context artifact)

def atLoading (lock : Option LockId) (context : κ) :
    Program (System ρ) (Except Panic (Except Failure (Option Artifact))) → Place ρ κ
  | .done loaded => atLoaded lock context loaded
  | .step ready act next => .inside lock (.load context ⟨ready, act, next⟩)

def atInstantiated (lock : Option LockId) : Except Panic (Except Failure κ) → Place ρ κ
  | .error panic => .inside lock (.unmark (.error panic))
  | .ok (.error cause) => .inside lock (.unmark (.ok (.error cause)))
  | .ok (.ok context) =>
    atLoading lock context (call.loader.host.load call.thread context call.name).run.run

def atInstantiating (lock : Option LockId) :
    Program (System ρ) (Except Panic (Except Failure κ)) → Place ρ κ
  | .done instantiated => call.atInstantiated lock instantiated
  | .step ready act next => .inside lock (.instantiate ⟨ready, act, next⟩)

def atPacked (lock : Option LockId) : Except Panic (Except Failure Bytes) → Place ρ κ
  | .error panic => .inside lock (.unmark (.error panic))
  | .ok (.error cause) => .inside lock (.unmark (.ok (.error cause)))
  | .ok (.ok image) => call.atInstantiating lock
      (call.loader.host.instantiate call.thread image call.loader.resolver).run.run

def atPacking (lock : Option LockId) :
    Program (System ρ) (Except Panic (Except Failure Bytes)) → Place ρ κ
  | .done packed => call.atPacked lock packed
  | .step ready act next => .inside lock (.pack ⟨ready, act, next⟩)

def atNoting (lock : Option LockId) : List Note → Place ρ κ
  | [] => call.atPacking lock (call.loader.packer.pack call.thread call.name call.raw).run.run
  | first :: others => .inside lock (.note first others)

def advanceStage (lock : Option LockId) : Stage ρ κ → Turn (System ρ) (Place ρ κ)
  | .mark =>
    ⟨fun _ => true, fun s => { s with world := (s.world.mark call.thread call.name).2 },
      fun s => match (s.world.mark call.thread call.name).1 with
        | .error running => call.atReport lock (.ok (.error (.inFlight running)))
        | .ok () => .inside lock .forget⟩
  | .forget =>
    ⟨fun _ => true,
      fun s => { s with world := (s.world.invalidate call.loader.cache call.name).2 },
      fun s => call.atNoting lock
        (call.forgetNotes (s.world.contains call.loader.cache call.name))⟩
  | .note first others => .change (first.apply call.loader.counters) (call.atNoting lock others)
  | .pack turn => ⟨turn.ready, turn.act, fun s => call.atPacking lock (turn.next s)⟩
  | .instantiate turn => ⟨turn.ready, turn.act, fun s => call.atInstantiating lock (turn.next s)⟩
  | .load context turn => ⟨turn.ready, turn.act, fun s => atLoading lock context (turn.next s)⟩
  | .publish context artifact =>
    ⟨fun _ => true,
      fun s => { s with world := (s.world.publish call.loader.cache call.name artifact).2 },
      fun s => .inside lock (.close context
        (.ok (.ok (artifact, (s.world.publish call.loader.cache call.name artifact).1))))⟩
  | .close context result =>
    .change (fun w => call.loader.host.close context w) (.inside lock (.unmark result))
  | .unmark result => .change (fun w => w.unmark call.thread) (call.atReport lock result)
  | .report first others ending =>
    .change (first.apply call.loader.counters) (atReporting lock ending others)

/-- The step of a definition at a place. A definition that has ended takes no step. -/
def advance : Place ρ κ → Option (Turn (System ρ) (Place ρ κ))
  | .check => some
    ⟨fun _ => true, id, fun s => match s.world.marker call.thread with
      | some running => call.atReport none (.ok (.error (.inFlight running)))
      | none => if call.loader.settings.serialize then .take else .inside none .mark⟩
  | .take => some
    ⟨fun _ => true,
      fun s => { s with world := (s.world.lockFor call.loader.cache.locks call.name).2 },
      fun s => .wait (s.world.lockFor call.loader.cache.locks call.name).1⟩
  | .wait lock => some
    ⟨fun s => s.world.isFree lock,
      fun s => { s with world := s.world.acquire lock call.thread },
      fun _ => .inside (some lock) .mark⟩
  | .inside lock stage => some (call.advanceStage lock stage)
  | .unlock lock ending =>
    some (.change (fun w => w.unlock lock ending.panicked) (.drop lock ending))
  | .drop lock ending => some (.change (fun w => w.dropHandle lock) (.ended ending))
  | .ended _ => none

def restStage (lock : Option LockId) : Stage ρ κ → Program (System ρ) Ending
  | .mark => call.marking lock
  | .forget => call.forgetting (call.unmarking lock)
  | .note first others => call.noting (first :: others) (call.packing (call.unmarking lock))
  | .pack turn => turn.program >>= call.packed (call.unmarking lock)
  | .instantiate turn => turn.program >>= call.instantiated (call.unmarking lock)
  | .load context turn => turn.program >>= call.loaded context (call.unmarking lock)
  | .publish context artifact => call.publishing context (call.unmarking lock) artifact
  | .close context result => call.closing context (call.unmarking lock) result
  | .unmark result => call.unmarking lock result
  | .report first others ending => call.noting (first :: others) (leaving ending lock)

/-- The rest of a definition at a place. -/
def rest : Place ρ κ → Program (System ρ) Ending
  | .check => call.checking
  | .take => call.taking
  | .wait lock => call.waiting lock
  | .inside lock stage => call.restStage lock stage
  | .unlock lock ending => leaving ending (some lock)
  | .drop lock ending => changing (fun w => w.dropHandle lock) (.done ending)
  | .ended ending => .done ending

/-! ### The step at a place is the first step of the rest -/

@[simp] private theorem rest_atLeaving (ending : Ending) (lock : Option LockId) :
    call.rest (atLeaving ending lock) = leaving ending lock := by
  cases lock <;> rfl

@[simp] private theorem rest_atReporting (lock : Option LockId) (ending : Ending)
    (notes : List Note) :
    call.rest (atReporting lock ending notes) = call.noting notes (leaving ending lock) := by
  cases notes with
  | nil => exact call.rest_atLeaving ending lock
  | cons first others => rfl

@[simp] private theorem rest_atReport (lock : Option LockId) (result : Result) :
    call.rest (call.atReport lock result) = call.reporting lock result :=
  call.rest_atReporting lock _ _

@[simp] private theorem rest_atLoaded (lock : Option LockId) (context : κ)
    (loaded : Except Panic (Except Failure (Option Artifact))) :
    call.rest (atLoaded lock context loaded) =
      call.loaded context (call.unmarking lock) loaded := by
  rcases loaded with panic | cause | _ | artifact <;> rfl

@[simp] private theorem rest_atLoading (lock : Option LockId) (context : κ)
    (program : Program (System ρ) (Except Panic (Except Failure (Option Artifact)))) :
    call.rest (atLoading lock context program) =
      program >>= call.loaded context (call.unmarking lock) := by
  cases program with
  | done loaded => exact call.rest_atLoaded lock context loaded
  | step ready act next => rfl

@[simp] private theorem rest_atInstantiated (lock : Option LockId)
    (instantiated : Except Panic (Except Failure κ)) :
    call.rest (call.atInstantiated lock instantiated) =
      call.instantiated (call.unmarking lock) instantiated := by
  rcases instantiated with panic | cause | context
  · rfl
  · rfl
  · exact call.rest_atLoading lock context _

@[simp] private theorem rest_atInstantiating (lock : Option LockId)
    (program : Program (System ρ) (Except Panic (Except Failure κ))) :
    call.rest (call.atInstantiating lock program) =
      program >>= call.instantiated (call.unmarking lock) := by
  cases program with
  | done instantiated => exact call.rest_atInstantiated lock instantiated
  | step ready act next => rfl

@[simp] private theorem rest_atPacked (lock : Option LockId)
    (packed : Except Panic (Except Failure Bytes)) :
    call.rest (call.atPacked lock packed) = call.packed (call.unmarking lock) packed := by
  rcases packed with panic | cause | image
  · rfl
  · rfl
  · exact call.rest_atInstantiating lock _

@[simp] private theorem rest_atPacking (lock : Option LockId)
    (program : Program (System ρ) (Except Panic (Except Failure Bytes))) :
    call.rest (call.atPacking lock program) = program >>= call.packed (call.unmarking lock) := by
  cases program with
  | done packed => exact call.rest_atPacked lock packed
  | step ready act next => rfl

@[simp] private theorem rest_atNoting (lock : Option LockId) (notes : List Note) :
    call.rest (call.atNoting lock notes) =
      call.noting notes (call.packing (call.unmarking lock)) := by
  cases notes with
  | nil => exact call.rest_atPacking lock _
  | cons first others => rfl

private theorem restStage_of_advance (lock : Option LockId) (stage : Stage ρ κ) :
    call.restStage lock stage =
      .step (call.advanceStage lock stage).ready (call.advanceStage lock stage).act
        fun s => call.rest ((call.advanceStage lock stage).next s) := by
  cases stage with
  | mark =>
    refine congrArg (Program.step _ _) (funext fun s => ?_)
    simp only [advanceStage]
    cases (s.world.mark call.thread call.name).1 with
    | error running => exact (call.rest_atReport lock _).symm
    | ok _ => rfl
  | forget => simp [restStage, advanceStage, forgetting]
  | note first others => simp [restStage, advanceStage, noting, changing, Turn.program, Turn.change]
  | pack turn => simp [restStage, advanceStage, Turn.program]
  | instantiate turn => simp [restStage, advanceStage, Turn.program]
  | load context turn => simp [restStage, advanceStage, Turn.program]
  | publish context artifact => rfl
  | close context result => rfl
  | unmark result =>
    simp [restStage, advanceStage, unmarking, changing, Turn.program, Turn.change]
  | report first others ending =>
    simp [restStage, advanceStage, noting, changing, Turn.program, Turn.change]

theorem ended_or_advances (place : Place ρ κ) :
    (∃ ending, place = .ended ending) ∨ ∃ turn, call.advance place = some turn := by
  cases place with
  | ended ending => exact .inl ⟨ending, rfl⟩
  | check | take | wait | inside | unlock | drop => exact .inr ⟨_, rfl⟩

/-- What is left of a definition at a place begins with the step at that place, and goes on with
    what is left at the next place. -/
theorem rest_of_advance {place : Place ρ κ} {turn : Turn (System ρ) (Place ρ κ)}
    (advances : call.advance place = some turn) :
    call.rest place = .step turn.ready turn.act fun s => call.rest (turn.next s) := by
  cases place with
  | check =>
    cases advances
    refine congrArg (Program.step _ _) (funext fun s => ?_)
    simp only []
    cases s.world.marker call.thread with
    | some running => exact (call.rest_atReport none _).symm
    | none => cases call.loader.settings.serialize <;> rfl
  | take => cases advances; rfl
  | wait lock => cases advances; rfl
  | inside lock stage => cases advances; exact call.restStage_of_advance lock stage
  | unlock lock ending => cases advances; rfl
  | drop lock ending => cases advances; rfl
  | ended ending => cases advances

end Call

namespace Place

variable {ρ κ : Type}

/-- Whether the thread is marked by this definition. -/
def marked : Place ρ κ → Bool
  | .inside _ .mark | .inside _ (.report ..) => false
  | .inside _ _ => true
  | _ => false

/-- Whether the next step is one of the packer, the host or a context. -/
def callback : Place ρ κ → Bool
  | .inside _ (.pack _) | .inside _ (.instantiate _) | .inside _ (.load ..)
  | .inside _ (.close ..) => true
  | _ => false

end Place

end Reload
