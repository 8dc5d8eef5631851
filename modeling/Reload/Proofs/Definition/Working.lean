import Reload.Proofs.Definition.Place

/-!
Where the work of a definition goes. Once the entry of the name is removed, a definition packs,
instantiates, loads, publishes, closes and clears its marker, whatever its packer and its host
answer; and what it does next has nothing to do with the lock that it holds (`Call.works_atPacking`).
What holds of the programs of its callbacks, and of all that is left of them, holds at each place
(`Call.Runs.advance`).
-/

namespace Reload

variable {ρ κ : Type}

/-- The stages from the packer to the clearing of the marker. -/
def Stage.working : Stage ρ κ → Bool
  | .pack _ | .instantiate _ | .load .. | .publish .. | .close .. | .unmark _ => true
  | .mark | .forget | .note .. | .report .. => false

/-- One place for each lock: those of a working stage. -/
def Place.Works (places : Option LockId → Place ρ κ) : Prop :=
  ∃ stage : Stage ρ κ, stage.working ∧ ∀ lock, places lock = .inside lock stage

namespace Call

open Place (Works)

variable (call : Call ρ κ)

theorem works_atLoaded (context : κ) (loaded : Except Panic (Except Failure (Option Artifact))) :
    Works fun lock => (atLoaded lock context loaded : Place ρ κ) := by
  rcases loaded with panic | cause | _ | artifact
  · exact ⟨.close context (.error panic), rfl, fun _ => rfl⟩
  · exact ⟨.close context (.ok (.error cause)), rfl, fun _ => rfl⟩
  · exact ⟨.close context (.ok (.error .emptyResult)), rfl, fun _ => rfl⟩
  · exact ⟨.publish context artifact, rfl, fun _ => rfl⟩

theorem works_atLoading (context : κ)
    (program : Program (System ρ) (Except Panic (Except Failure (Option Artifact)))) :
    Works fun lock => atLoading lock context program := by
  cases program with
  | done loaded => exact works_atLoaded context loaded
  | step ready act next => exact ⟨.load context ⟨ready, act, next⟩, rfl, fun _ => rfl⟩

theorem works_atInstantiated (instantiated : Except Panic (Except Failure κ)) :
    Works fun lock => call.atInstantiated lock instantiated := by
  rcases instantiated with panic | cause | context
  · exact ⟨.unmark (.error panic), rfl, fun _ => rfl⟩
  · exact ⟨.unmark (.ok (.error cause)), rfl, fun _ => rfl⟩
  · exact works_atLoading context _

theorem works_atInstantiating (program : Program (System ρ) (Except Panic (Except Failure κ))) :
    Works fun lock => call.atInstantiating lock program := by
  cases program with
  | done instantiated => exact call.works_atInstantiated instantiated
  | step ready act next => exact ⟨.instantiate ⟨ready, act, next⟩, rfl, fun _ => rfl⟩

theorem works_atPacked (packed : Except Panic (Except Failure Bytes)) :
    Works fun lock => call.atPacked lock packed := by
  rcases packed with panic | cause | image
  · exact ⟨.unmark (.error panic), rfl, fun _ => rfl⟩
  · exact ⟨.unmark (.ok (.error cause)), rfl, fun _ => rfl⟩
  · exact call.works_atInstantiating _

theorem works_atPacking (program : Program (System ρ) (Except Panic (Except Failure Bytes))) :
    Works fun lock => call.atPacking lock program := by
  cases program with
  | done packed => exact call.works_atPacked packed
  | step ready act next => exact ⟨.pack ⟨ready, act, next⟩, rfl, fun _ => rfl⟩

end Call

/-! ### What is left of callbacks -/

/-- A property of programs that passes over to what is left of them, whatever state a step has found. -/
def Program.Lasting (P : ∀ {α : Type}, Program (System ρ) α → Prop) : Prop :=
  ∀ {α : Type} {turn : Turn (System ρ) (Program (System ρ) α)}, P turn.program →
    ∀ s, P (turn.next s)

/-- The callbacks of a definition have the property, besides the closing of contexts. -/
structure Call.Runs (P : ∀ {α : Type}, Program (System ρ) α → Prop) (call : Call ρ κ) : Prop where
  pack : P (call.loader.packer.pack call.thread call.name call.raw).run.run
  instantiate : ∀ image,
    P (call.loader.host.instantiate call.thread image call.loader.resolver).run.run
  load : ∀ context, P (call.loader.host.load call.thread context call.name).run.run

/-- What is left of the callback that is running has the property. -/
def Place.Runs (P : ∀ {α : Type}, Program (System ρ) α → Prop) : Place ρ κ → Prop
  | .inside _ (.pack turn) => P turn.program
  | .inside _ (.instantiate turn) => P turn.program
  | .inside _ (.load _ turn) => P turn.program
  | _ => True

variable {P : ∀ {α : Type}, Program (System ρ) α → Prop}

/-- What is left of a callback does not depend on the lock. -/
theorem Place.Runs.past {lock : Option LockId} {stage : Stage ρ κ}
    (here : (Place.inside lock stage).Runs P) (lock' : Option LockId) :
    (Place.inside lock' stage).Runs P := by
  cases stage <;> exact here

namespace Call

variable {call : Call ρ κ}

private theorem runs_atReporting (lock : Option LockId) (ending : Ending) (notes : List Note) :
    (atReporting lock ending notes : Place ρ κ).Runs P := by
  cases notes with
  | nil => cases lock <;> trivial
  | cons first others => trivial

private theorem runs_atLoading (lock : Option LockId) (context : κ)
    {program : Program (System ρ) (Except Panic (Except Failure (Option Artifact)))}
    (holds : P program) : (atLoading lock context program).Runs P := by
  rcases program with (panic | cause | _ | artifact) | _ <;> trivial

private theorem runs_atInstantiated (runs : call.Runs P) (lock : Option LockId)
    (instantiated : Except Panic (Except Failure κ)) :
    (call.atInstantiated lock instantiated).Runs P := by
  rcases instantiated with panic | cause | context
  · trivial
  · trivial
  · exact runs_atLoading lock context (runs.load context)

private theorem runs_atInstantiating (runs : call.Runs P) (lock : Option LockId)
    {program : Program (System ρ) (Except Panic (Except Failure κ))} (holds : P program) :
    (call.atInstantiating lock program).Runs P := by
  cases program with
  | done instantiated => exact runs_atInstantiated runs lock instantiated
  | step ready act next => exact holds

private theorem runs_atPacked (runs : call.Runs P) (lock : Option LockId)
    (packed : Except Panic (Except Failure Bytes)) : (call.atPacked lock packed).Runs P := by
  rcases packed with panic | cause | image
  · trivial
  · trivial
  · exact runs_atInstantiating runs lock (runs.instantiate image)

private theorem runs_atPacking (runs : call.Runs P) (lock : Option LockId)
    {program : Program (System ρ) (Except Panic (Except Failure Bytes))} (holds : P program) :
    (call.atPacking lock program).Runs P := by
  cases program with
  | done packed => exact runs_atPacked runs lock packed
  | step ready act next => exact holds

private theorem runs_atNoting (runs : call.Runs P) (lock : Option LockId) (notes : List Note) :
    (call.atNoting lock notes).Runs P := by
  cases notes with
  | nil => exact runs_atPacking runs lock runs.pack
  | cons first others => trivial

private theorem runs_stage (lasting : Program.Lasting P) (runs : call.Runs P)
    {lock : Option LockId} {stage : Stage ρ κ} (here : (Place.inside lock stage).Runs P)
    (s : System ρ) : ((call.advanceStage lock stage).next s).Runs P := by
  cases stage with
  | mark =>
    simp only [advanceStage]
    split
    · exact runs_atReporting ..
    · trivial
  | forget => exact runs_atNoting runs lock _
  | note first others => exact runs_atNoting runs lock others
  | pack turn => exact runs_atPacking runs lock (lasting here s)
  | instantiate turn => exact runs_atInstantiating runs lock (lasting here s)
  | load context turn => exact runs_atLoading lock context (lasting here s)
  | publish | close => trivial
  | unmark => exact runs_atReporting ..
  | report => exact runs_atReporting ..

/-- At each place that a definition goes to, what is left of its callback has the property. -/
theorem Runs.advance (lasting : Program.Lasting P) (runs : call.Runs P) {place : Place ρ κ}
    (here : place.Runs P) {turn : Turn (System ρ) (Place ρ κ)}
    (advances : call.advance place = some turn) (s : System ρ) : (turn.next s).Runs P := by
  cases place with
  | check =>
    cases advances
    simp only []
    split
    · exact runs_atReporting ..
    · split <;> trivial
  | inside lock stage => cases advances; exact runs_stage lasting runs here s
  | take | wait | unlock | drop => cases advances; trivial
  | ended => cases advances

end Call

end Reload
