import Reload.Proofs.Definition.Alike
import Reload.Proofs.Definition.Whole

/-!
A thread that is defining a unit defines no other. An attempt is refused before it waits for anything or
asks its packer: it counts one failure, records a warning, and changes nothing else
(`Call.run_refused`). So a definition whose callbacks make any number of attempts ends as it does
without them, in states that differ at most in what was counted and recorded about the attempts
(`Call.run_attempting`).
-/

namespace Reload

namespace Program

variable {σ α : Type}

/-- A program that waits in no state, and each of whose steps changes a state as it may be changed.
    Anything may happen between the steps. -/
def Sparing (may : σ → σ → Prop) : Program σ α → Prop
  | done _ => True
  | step ready act next => ∀ s, ready s = true ∧ may s (act s) ∧ (next s).Sparing may

/-- The same of a program that begins in a given state. -/
def SparingFrom (may : σ → σ → Prop) (s : σ) : Program σ α → Prop
  | done _ => True
  | step ready act next => ready s = true ∧ may s (act s) ∧ (next s).Sparing may

end Program

/-! ### The refusal -/

/-- States whose worlds are alike, and in which the clients keep the same. -/
def System.Spared {ρ : Type} (s s' : System ρ) : Prop :=
  s'.client = s.client ∧ s.world.Alike s'.world

namespace Call

variable {ρ κ κ' : Type} (call : Call ρ κ)

/-- The same call of a loader with another packer and another host. -/
def calling (packer : Packer ρ) (host : Host ρ κ') : Call ρ κ' :=
  { call with loader := { call.loader with packer, host } }

/-- The end of a definition that runs alone, and the state that it leaves. -/
def defines (s : System ρ) : Option (Ending × System ρ) :=
  (call.loader.define call.thread call.name call.raw).run.run s

/-- The state after a refusal. -/
def refuse (running : Name) (w : World) : World :=
  (w.count call.loader.counters .definitionFailures 1).record (.refusedReentrant call.name running)

theorem run_refused {s : System ρ} {running : Name}
    (marked : s.world.marker call.thread = some running) :
    call.defines s = some (.ok (.error ⟨call.name, .inFlight running⟩),
      { s with world := call.refuse running s.world }) := by
  unfold defines
  rw [call.define_eq_checking]
  simp only [checking, Program.run, if_true, marked, id]
  rfl

/-- A refused definition waits for nothing, and it counts and records only its refusal. -/
theorem sparing_refused {s : System ρ} {running : Name}
    (marked : s.world.marker call.thread = some running) :
    (call.loader.define call.thread call.name call.raw).run.SparingFrom System.Spared s := by
  rw [call.define_eq_checking]
  refine ⟨rfl, ⟨rfl, .refl _⟩, ?_⟩
  simp only [marked]
  intro s
  refine ⟨rfl, ⟨rfl, .count_failures s.world call.loader.counters 1⟩, fun s => ?_⟩
  exact ⟨rfl, ⟨rfl, .record_reentrance s.world call.name running⟩, trivial⟩

/-- What a refused definition changes: one failure of its loader is counted, and one warning is
    recorded. -/
structure Refused (running : Name) (w w' : World) : Prop where
  frame : w' = { w with counters := w'.counters, journal := w'.journal }
  counted : ∀ id counter, w'.counter id counter = w.counter id counter +
    if id = call.loader.counters ∧ counter = .definitionFailures then 1 else 0
  warned : ∃ event : Event, event.level = .warn ∧
    event = .refusedReentrant call.name running ∧ w'.journal = event :: w.journal

theorem refused_refuse (running : Name) (w : World) : call.Refused running w (call.refuse running w) where
  frame := rfl
  counted id counter := by
    show (w.count call.loader.counters .definitionFailures 1).counter id counter = _
    by_cases own : id = call.loader.counters
    · rw [own, World.counter_count]
      by_cases failures : counter = .definitionFailures <;> simp [failures]
    · rw [w.counter_count_of_ne _ _ _ own]
      simp [own]
  warned := ⟨_, rfl, rfl, rfl⟩

theorem alike_refuse (running : Name) (w : World) : w.Alike (call.refuse running w) :=
  (World.Alike.count_failures w _ _).trans (.record_reentrance _ _ _)

end Call

/-! ### Programs that make attempts -/

variable {ρ κ ν α β : Type}

/-- Two runs in the callbacks of a definition, which see states that are alike. The thread is marked.
    What the callbacks look at in what the clients keep is the same. -/
structure System.Alike (view : ρ → ν) (thread : ThreadId) (running : Name) (s s' : System ρ) :
    Prop where
  world : s.world.Alike s'.world
  view : view s'.client = view s.client
  marked : s.world.marker thread = some running

namespace Program

variable (view : ρ → ν) (thread : ThreadId) (running : Name)

/-- A program that does what another one does, and attempts definitions on a thread in between. Both
    look at nothing that an attempt changes. It may keep for itself what the attempts answered. The
    packers and hosts of the attempts are never asked, so it does not matter which they are. -/
inductive Attempting : Program (System ρ) α → Program (System ρ) α → Prop where
  | done (value : α) : Attempting (.done value) (.done value)
  | step {ready ready' : System ρ → Bool} {act act' : System ρ → System ρ}
      {next next' : System ρ → Program (System ρ) α}
      (waits : ∀ s s', s.Alike view thread running s' → ready' s' = ready s)
      (acts : ∀ s s', s.Alike view thread running s' → ready s →
        (act s).Alike view thread running (act' s'))
      (rest : ∀ s s', s.Alike view thread running s' → ready s → Attempting (next s) (next' s')) :
      Attempting (.step ready act next) (.step ready' act' next')
  | attempt {κ' : Type} {program : Program (System ρ) α} {next : Ending → Program (System ρ) α}
      (nested : Call ρ κ') (here : nested.thread = thread)
      (rest : Attempting program (next (.ok (.error ⟨nested.name, .inFlight running⟩)))) :
      Attempting program
        ((nested.loader.define nested.thread nested.name nested.raw).run >>= next)
  | keep {act : System ρ → System ρ} {program : Program (System ρ) α}
      {next : System ρ → Program (System ρ) α}
      (world : ∀ s, (act s).world = s.world) (client : ∀ s, view (act s).client = view s.client)
      (rest : ∀ s, Attempting program (next s)) :
      Attempting program (.step (fun _ => true) act next)

/-- Two programs that end alike from states that are alike. -/
def Agree (first second : Program (System ρ) α) : Prop :=
  ∀ s s', s.Alike view thread running s' → Option.Rel
    (fun end_ end' => end'.1 = end_.1 ∧ end_.2.Alike view thread running end'.2)
    (first.run s) (second.run s')

variable {view thread running}

theorem Agree.done (value : α) : Agree view thread running (.done value) (.done value) :=
  fun _ _ alike => .some ⟨rfl, alike⟩

theorem Agree.step {ready ready' : System ρ → Bool} {act act' : System ρ → System ρ}
    {next next' : System ρ → Program (System ρ) α}
    (waits : ∀ s s', s.Alike view thread running s' → ready' s' = ready s)
    (acts : ∀ s s', s.Alike view thread running s' → ready s →
      (act s).Alike view thread running (act' s'))
    (rest : ∀ s s', s.Alike view thread running s' → ready s →
      Agree view thread running (next s) (next' s')) :
    Agree view thread running (.step ready act next) (.step ready' act' next') := by
  intro s s' alike
  simp only [run, waits s s' alike]
  split
  · next isReady => exact rest s s' alike isReady _ _ (acts s s' alike isReady)
  · exact .none

theorem Agree.bind {first second : Program (System ρ) α} {f g : α → Program (System ρ) β}
    (agree : Agree view thread running first second)
    (rest : ∀ value, Agree view thread running (f value) (g value)) :
    Agree view thread running (first >>= f) (second >>= g) := by
  intro s s' alike
  rw [run_bind, run_bind]
  have ends := agree s s' alike
  generalize first.run s = end_ at ends
  generalize second.run s' = end' at ends
  cases ends with
  | none => exact .none
  | @some a b related =>
    obtain ⟨value, after⟩ := related
    simp only [Option.bind_some, value]
    exact rest a.1 _ _ after

/-- What the attempts of a program change is not seen in how it ends. -/
theorem Attempting.agree {first second : Program (System ρ) α}
    (attempting : Attempting view thread running first second) :
    Agree view thread running first second := by
  induction attempting with
  | done value => exact .done value
  | step waits acts rest ih => exact .step waits acts ih
  | attempt nested here rest ih =>
    intro s s' alike
    have marked : s'.world.marker nested.thread = some running := by
      rw [here, alike.world.read (f := fun w => w.marker thread) fun _ _ _ => rfl]
      exact alike.marked
    rw [run_bind, show Program.run _ s' = _ from nested.run_refused marked]
    exact ih s _ ⟨alike.world.trans (nested.alike_refuse running s'.world), alike.view, alike.marked⟩
  | keep world client rest ih =>
    intro s s' alike
    refine ih s' s _ ⟨?_, ?_, alike.marked⟩
    · rw [world]
      exact alike.world
    · rw [client]
      exact alike.view

theorem Attempting.bind {first second : Program (System ρ) α} {f g : α → Program (System ρ) β}
    (attempting : Attempting view thread running first second)
    (rest : ∀ value, Attempting view thread running (f value) (g value)) :
    Attempting view thread running (first >>= f) (second >>= g) := by
  induction attempting with
  | done value => exact rest value
  | step waits acts after ih => exact .step waits acts ih
  | attempt nested here after ih =>
    rw [bind_assoc]
    exact .attempt nested here ih
  | keep world client after ih => exact .keep world client ih

/-- A callback of one blind step that leaves the markers alone. -/
theorem Attempting.onWorld {f : World → α × World} (blind : World.Blind f)
    (marker : ∀ w, (f w).2.marker = w.marker) :
    Attempting view thread running (Action.onWorld (ρ := ρ) f).run (Action.onWorld f).run := by
  refine .step (fun _ _ _ => rfl) (fun s s' alike _ => ?_) fun s s' alike _ => ?_
  · refine ⟨blind.after alike.world, alike.view, ?_⟩
    exact (congrFun (marker s.world) thread).trans alike.marked
  · show Attempting view thread running (.done (Except.ok (f s.world).1))
      (.done (Except.ok (f s'.world).1))
    rw [blind.answer alike.world]
    exact .done _

end Program

/-! ### Definitions whose callbacks make attempts -/

namespace Call

variable (call : Call ρ κ) {view : ρ → ν} {packer : Packer ρ} {host : Host ρ κ}

/-- A packer and a host that do what those of a definition do, and attempt definitions in between. -/
structure Attempts (view : ρ → ν) (packer : Packer ρ) (host : Host ρ κ) : Prop where
  pack : Program.Attempting view call.thread call.name
    (call.loader.packer.pack call.thread call.name call.raw).run.run
    (packer.pack call.thread call.name call.raw).run.run
  instantiate : ∀ image, Program.Attempting view call.thread call.name
    (call.loader.host.instantiate call.thread image call.loader.resolver).run.run
    (host.instantiate call.thread image call.loader.resolver).run.run
  load : ∀ context, Program.Attempting view call.thread call.name
    (call.loader.host.load call.thread context call.name).run.run
    (host.load call.thread context call.name).run.run
  close : ∀ context (s s' : System ρ), s.Alike view call.thread call.name s' →
    System.Alike view call.thread call.name
      { s with world := call.loader.host.close context s.world }
      { s' with world := host.close context s'.world }

theorem Attempts.closing (attempts : call.Attempts view packer host) (context : κ) (result : Result) :
    Program.Agree view call.thread call.name (call.closing context .done result)
      ((call.calling packer host).closing context .done result) :=
  .step (fun _ _ _ => rfl) (fun s s' alike _ => attempts.close context s s' alike)
    fun _ _ _ _ => .done result

theorem Attempts.publishing (attempts : call.Attempts view packer host) (context : κ)
    (artifact : Artifact) :
    Program.Agree view call.thread call.name (call.publishing context .done artifact)
      ((call.calling packer host).publishing context .done artifact) := by
  have blind := World.Blind.publish call.loader.cache call.name artifact
  refine .step (fun _ _ _ => rfl)
    (fun s s' alike _ => ⟨blind.after alike.world, alike.view, alike.marked⟩) fun s s' alike _ => ?_
  show Program.Agree view call.thread call.name _ ((call.calling packer host).closing context .done
    (.ok (.ok (artifact, (s'.world.publish call.loader.cache call.name artifact).1))))
  rw [blind.answer alike.world]
  exact attempts.closing call context _

/-- The work of a definition ends as it does without attempts. -/
theorem Attempts.work (attempts : call.Attempts view packer host) :
    Program.Agree view call.thread call.name call.work.run.run
      (call.calling packer host).work.run.run := by
  rw [work_eq, work_eq]
  refine attempts.pack.agree.bind fun packed => ?_
  rcases packed with panic | cause | image
  · exact .done _
  · exact .done _
  refine (attempts.instantiate image).agree.bind fun built => ?_
  rcases built with panic | cause | context
  · exact .done _
  · exact .done _
  refine (attempts.load context).agree.bind fun loaded => ?_
  rcases loaded with panic | cause | _ | artifact
  · exact attempts.closing call context _
  · exact attempts.closing call context _
  · exact attempts.closing call context _
  · exact attempts.publishing call context artifact

/-- A definition waits for its lock, if the lock is held. -/
theorem run_held {s : System ρ} (unmarked : s.world.marker call.thread = none) {lock : LockId}
    (taken : lock ∈ call.lock? s.world) (held : ¬s.world.isFree lock) : call.defines s = none := by
  unfold lock? at taken
  split at taken
  · next serialize =>
    obtain rfl := Option.some.inj taken
    unfold defines
    rw [call.define_eq_checking]
    simp only [checking, Program.run, if_true, unmarked, serialize, taking, waiting, id]
    exact if_neg (by simpa [World.isFree] using held)
  · cases taken

theorem blind_left (lock : Option LockId) (result : Result) :
    World.Blind fun w => ((), call.left lock result w) := by
  have unmarks : World.Blind fun w : World => ((), w.unmark call.thread) :=
    .of_apart fun _ _ _ => rfl
  have unlocks : World.Blind fun w => ((), unlocked result.panicked lock w) := by
    cases lock <;> exact .of_apart fun _ _ _ => rfl
  have notes : ∀ notes : List Note, World.Blind fun w => ((), call.noted notes w) := by
    intro notes
    induction notes with
    | nil => exact .pure ()
    | cons first others ih =>
      cases first with
      | count counter amount => exact (World.Blind.count ..).bind fun _ => ih
      | record event => exact (World.Blind.record event).bind fun _ => ih
  exact (unmarks.bind fun _ => notes (result.notes call.name)).bind fun _ => unlocks

theorem run_attempting (attempts : call.Attempts view packer host) (s : System ρ) :
    Option.Rel (fun end_ end' => end'.1 = end_.1 ∧ end_.2.world.Alike end'.2.world ∧
        view end'.2.client = view end_.2.client)
      (call.defines s) ((call.calling packer host).defines s) := by
  cases marker : s.world.marker call.thread with
  | some running =>
    rw [call.run_refused marker, (call.calling packer host).run_refused marker]
    exact .some ⟨rfl, .refl _, rfl⟩
  | none =>
    by_cases free : ∀ lock ∈ call.lock? s.world, s.world.isFree lock
    · have entered : System.Alike view call.thread call.name
          { s with world := call.entered s.world }
          { s with world := (call.calling packer host).entered s.world } := by
        refine ⟨.refl _, rfl, ?_⟩
        rw [call.entered_marker marker]
        exact replace_self ..
      have ends := attempts.work call _ _ entered
      unfold defines
      rw [call.run_define s marker free, (call.calling packer host).run_define s marker free]
      generalize call.work.run.run.run _ = end_ at ends ⊢
      generalize (call.calling packer host).work.run.run.run _ = end' at ends ⊢
      cases ends with
      | none => exact .none
      | @some end_ end' related =>
        obtain ⟨result, after⟩ := related
        refine .some ⟨congrArg (Result.ending call.name) result, ?_, after.view⟩
        show (call.left (call.lock? s.world) end_.1 end_.2.world).Alike
          (call.left (call.lock? s.world) end'.1 end'.2.world)
        rw [result]
        exact (call.blind_left _ _).after after.world
    · obtain ⟨lock, stuck⟩ := Classical.not_forall.mp free
      obtain ⟨taken, held⟩ := Classical.not_imp.mp stuck
      rw [call.run_held marker taken held, (call.calling packer host).run_held marker taken held]
      exact .none

end Call

/-! ### Attempts in memory -/

/-- An action after attempts to define units. -/
def Action.attempting (nested : List (Call ρ κ)) (body : Action (System ρ) α) :
    Action (System ρ) α :=
  nested.foldr (fun call rest => do
    let _ ← call.loader.define call.thread call.name call.raw
    rest) body

/-- The packer that attempts definitions first, each time it is asked. -/
def Packer.attempting (nested : List (Call ρ κ)) (packer : Packer ρ) : Packer ρ where
  pack thread name raw := ExceptT.mk (Action.attempting nested (packer.pack thread name raw).run)

/-- The host that attempts definitions first, each time it builds a context or one of its contexts
    loads. -/
def Host.attempting {κ' : Type} (nested : List (Call ρ κ)) (host : Host ρ κ') : Host ρ κ' where
  instantiate thread image parent :=
    ExceptT.mk (Action.attempting nested (host.instantiate thread image parent).run)
  load thread context name :=
    ExceptT.mk (Action.attempting nested (host.load thread context name).run)
  close := host.close

theorem Action.attempting_attempting {view : ρ → ν} {thread : ThreadId} {running : Name}
    {nested : List (Call ρ κ)} (here : ∀ call ∈ nested, call.thread = thread)
    {body body' : Action (System ρ) α}
    (attempting : Program.Attempting view thread running body.run body'.run) :
    Program.Attempting view thread running body.run (Action.attempting nested body').run := by
  induction nested with
  | nil => exact attempting
  | cons call others ih =>
    rw [List.forall_mem_cons] at here
    exact .attempt call here.1 (ih here.2)

/-- In memory, a packer and a host may attempt any definitions at each callback. -/
theorem Loader.attempts_call (loader : Loader Settings UInt16) (thread : ThreadId) (name : Name)
    (raw : Bytes) (view : ρ → ν) {packing hosting : List (Call ρ κ)}
    (packs : ∀ call ∈ packing, call.thread = thread)
    (hosts : ∀ call ∈ hosting, call.thread = thread) :
    (loader.call thread name raw).Attempts view
      ((Packer.standard loader.packer).attempting packing)
      ((Host.memory loader.host).attempting hosting) where
  pack := Action.attempting_attempting packs (.done _)
  instantiate image := by
    refine Action.attempting_attempting hosts (.onWorld (MemoryContext.blind_instantiate ..) ?_)
    intro w
    have kept : Confined loader.counters _ w _ :=
      (MemoryContext.instantiate_growing loader.host image loader.resolver w).toConfined
    exact kept.marker
  load context := by
    refine Action.attempting_attempting hosts ?_
    refine (Program.Attempting.onWorld (context.blind_load thread name)
      (context.load_marker thread name)).bind fun loaded => ?_
    rcases loaded with panic | cause | artifact
    · exact .done _
    · exact .done _
    · exact .done _
  close context s s' alike := by
    refine ⟨context.blind_close.after alike.world, alike.view, ?_⟩
    have kept : Confined loader.counters [] s.world (context.close s.world) :=
      context.close_confined s.world
    exact (congrFun kept.marker thread).trans alike.marked

namespace Call

/-- Whatever a thread is defining, another definition on it is refused: it waits for nothing, asks
    neither packer nor host, and changes one counter and the journal. So a definition whose callbacks
    attempt definitions ends as it does without the attempts, or like it never ends, and it leaves a
    state that differs at most in what was counted and recorded about them. -/
theorem define_reentrant (call : Call ρ κ) (view : ρ → ν) :
    (∀ (s : System ρ) (running : Name), s.world.marker call.thread = some running →
      (∃ w, call.defines s = some (.ok (.error ⟨call.name, .inFlight running⟩),
        { s with world := w }) ∧ call.Refused running s.world w) ∧
      (call.loader.define call.thread call.name call.raw).run.SparingFrom System.Spared s ∧
      ∀ (κ' : Type) (packer : Packer ρ) (host : Host ρ κ'),
        (call.calling packer host).defines s = call.defines s) ∧
    ∀ (packer : Packer ρ) (host : Host ρ κ), call.Attempts view packer host → ∀ s : System ρ,
      Option.Rel (fun end_ end' => end'.1 = end_.1 ∧ end_.2.world.Alike end'.2.world ∧
          view end'.2.client = view end_.2.client)
        (call.defines s) ((call.calling packer host).defines s) := by
  refine ⟨fun s running marked => ⟨?_, call.sparing_refused marked, fun κ' packer host => ?_⟩,
    fun packer host attempts => call.run_attempting attempts⟩
  · exact ⟨_, call.run_refused marked, call.refused_refuse running s.world⟩
  · rw [call.run_refused marked, (call.calling packer host).run_refused marked]
    rfl

/-- A serialized definition whose packer and host attempt to define the same name and another one. -/
theorem define_reentrant_linkedBehind :
    let unit : Artifact := ⟨1, ⟨"a", by decide⟩, 0, .nothing⟩
    let loader := Loader.linkedBehind unit
    let call : Call Unit MemoryContext :=
      loader.call .first unit.name [0x48, 0x53, 0x55, 0x31, 0, 0, 7]
    let other : Call Unit MemoryContext := loader.call .first ⟨"b", by decide⟩ []
    let reentrant := call.calling ((Packer.standard loader.packer).attempting [call, other])
      ((Host.memory loader.host).attempting [other, call])
    let s : System Unit := ⟨{ created := 1, held := [1] }, ()⟩
    let s' : System Unit := { s with world := (s.world.mark .first unit.name).2 }
    (∃ w, other.defines s' = some (.ok (.error ⟨other.name, .inFlight unit.name⟩),
      { s' with world := w }) ∧ other.Refused unit.name s'.world w) ∧
    ∃ artifact s₁ s₂, call.defines s = some (.ok (.ok artifact), s₁) ∧
      reentrant.defines s = some (.ok (.ok artifact), s₂) ∧ s₁.world.Alike s₂.world := by
  intro unit loader call other reentrant s s'
  refine ⟨((define_reentrant other id).1 s' unit.name rfl).1, ?_⟩
  obtain ⟨image, packed⟩ : ∃ image, loader.packer.pack unit.name call.raw = .ok image :=
    Settings.exists_pack ⟨"", [7]⟩ rfl (by decide) nofun (by decide) (by decide)
  have free : s.world.FreeLocks loader.cache.locks := by
    refine ⟨fun name lock tabled => ?_, fun _ _ => rfl⟩
    cases tabled
  obtain ⟨artifact, s₁, alone, -⟩ := loader.define_succeeds .first unit.name call.raw rfl free
    (fun _ _ => rfl) packed (by decide) (Loader.linkedBehind_ancestors unit)
  have packs : ∀ nested ∈ [call, other], nested.thread = .first := by
    simp [call, other, Loader.call]
  have hosts : ∀ nested ∈ [other, call], nested.thread = .first := by
    simp [call, other, Loader.call]
  have ends : Option.Rel _ (call.defines s) (reentrant.defines s) := (define_reentrant call id).2 _ _
    (loader.attempts_call .first unit.name call.raw id packs hosts) s
  rw [show call.defines s = _ from alone] at ends
  generalize ran : reentrant.defines s = end_ at ends
  cases ends with
  | @some _ end' related =>
    obtain ⟨same, alike, -⟩ := related
    exact ⟨artifact, s₁, end'.2, alone, congrArg some (Prod.ext same rfl), alike⟩

end Call

end Reload
