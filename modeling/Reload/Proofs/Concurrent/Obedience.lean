import Reload.Proofs.Concurrent.Hooked
import Reload.Proofs.Definition.Working

/-!
Callbacks that obey a relation. If the programs of the packer, the host and its contexts change the state
only as a relation tells, then so does every step that a definition takes inside a callback, whatever
else happens in between (`Run.obeys`). Of a definition whose host is in memory this is asked of the packer
only, which may be any program besides (`Call.InMemoryHost.obeys`, `Call.InMemoryHost.hosting_of_obeys`).
-/

namespace Reload

variable {ρ κ α : Type} {rel : World → World → Prop}

/-- A program that changes the state only as the relation tells, and ends. -/
def Program.Obeys (rel : World → World → Prop) (program : Program (System ρ) α) : Prop :=
  program.Until (fun s s' => rel s.world s'.world) fun last => ∃ value, last = .done value

theorem Program.Obeys.turn {turn : Turn (System ρ) (Program (System ρ) α)}
    (obeys : turn.program.Obeys rel) :
    (∀ s, turn.ready s → rel s.world (turn.act s).world) ∧ ∀ s, (turn.next s).Obeys rel := by
  cases obeys with
  | last here =>
    obtain ⟨value, done⟩ := here
    cases done
  | step related rest => exact ⟨related, rest⟩

theorem Program.Obeys.imp {rel' : World → World → Prop} {program : Program (System ρ) α}
    (obeys : program.Obeys rel) (weaker : ∀ w w', rel w w' → rel' w w') : program.Obeys rel' := by
  induction obeys with
  | last ended => exact .last ended
  | step related _ ih => exact .step (fun s ready => weaker _ _ (related s ready)) ih

/-- What a program does as the rules allow may come before anything else. -/
theorem Program.Obeys.hooked {call : Call ρ κ} {since : Nat}
    {last : Program (System ρ) (Except Panic α) → Prop}
    {program : Program (System ρ) (Except Panic α)} (obeys : program.Obeys rel)
    (ends : ∀ value, last (.done (.ok value))) : call.Hooked rel last since program := by
  induction obeys generalizing since with
  | last ended =>
    obtain ⟨panic | value, rfl⟩ := ended
    · exact .panic panic
    · exact .last (ends value)
  | step related _ ih => exact .step (fun s _ ready => related s ready) fun s _ _ => ih s

/-- A definition whose callbacks change the state only as the relation tells. -/
structure Call.Obeys (rel : World → World → Prop) (call : Call ρ κ) : Prop
    extends call.Runs (Program.Obeys rel) where
  close : ∀ context (w : World), rel w (call.loader.host.close context w)

/-- A step inside a callback does what the relation tells. -/
theorem Call.Obeys.callback {call : Call ρ κ} (obeys : call.Obeys rel) {place : Place ρ κ}
    (here : place.Runs (Program.Obeys rel)) {turn : Turn (System ρ) (Place ρ κ)}
    (advances : call.advance place = some turn) (calls : place.callback) {s : System ρ}
    (ready : turn.ready s) : rel s.world (turn.act s).world := by
  cases place with
  | check | take | wait | unlock | drop | ended => cases calls
  | inside lock stage =>
    cases advances
    cases stage with
    | pack | instantiate | load => exact (Program.Obeys.turn here).1 s ready
    | close context result => exact obeys.close context s.world
    | mark | forget | note | publish | unmark | report => cases calls

section
variable {call : Call ρ MemoryContext} (memory : call.InMemoryHost)
  (pack : (call.loader.packer.pack call.thread call.name call.raw).run.run.Obeys rel)
include memory pack

/-- A definition in memory obeys what its packer and the operations on contexts obey. -/
theorem Call.InMemoryHost.obeys
    (instantiates : ∀ api image w,
      rel w (MemoryContext.instantiate api image call.loader.resolver w).2)
    (loads : ∀ (context : MemoryContext) w, rel w (context.load call.thread call.name w).2)
    (closes : ∀ (context : MemoryContext) w, rel w (context.close w)) : call.Obeys rel := by
  obtain ⟨api, host⟩ := memory
  refine ⟨⟨pack, fun image => ?_, fun context => ?_⟩, fun context w => ?_⟩
  · rw [host]
    exact .step (fun s _ => instantiates api image s.world) fun _ => .last ⟨_, rfl⟩
  · rw [host, MemoryContext.host_load api context call.thread call.name]
    exact .step (fun s _ => loads context s.world) fun _ => .last ⟨_, rfl⟩
  · rw [host]
    exact closes context w

/-- A definition in memory may have any packer whose steps are allowed. -/
theorem Call.InMemoryHost.hosting_of_obeys {since : Nat}
    (ancestor : ∀ artifact ∈ call.loader.resolver.artifacts, artifact.serial ≤ since) :
    call.Hosting rel .any since := by
  refine memory.hosting ancestor (pack.hooked fun packed => ?_)
  cases packed with
  | error cause => exact .refused cause
  | ok image => exact .image trivial

end

/-- Loaders in memory obey what the operations on contexts obey. -/
theorem Loader.obeys_call
    (instantiates : ∀ api image parent w, rel w (MemoryContext.instantiate api image parent w).2)
    (loads : ∀ (context : MemoryContext) thread name w, rel w (context.load thread name w).2)
    (closes : ∀ (context : MemoryContext) w, rel w (context.close w))
    (loader : Loader Settings UInt16) (thread : ThreadId) (name : Name) (raw : Bytes) :
    (loader.call thread name raw : Call ρ MemoryContext).Obeys rel := by
  have memory : (loader.call thread name raw : Call ρ MemoryContext).InMemoryHost :=
    ⟨loader.host, rfl⟩
  exact memory.obeys (.last ⟨_, rfl⟩) (fun api image w => instantiates api image _ w)
    (fun context w => loads context _ _ w) closes

namespace Pool

variable {rules : Rules ρ κ} {start : System ρ} {trace : List (Move ρ κ)} {pool : Pool ρ κ}

/-- If the callbacks of definitions obey the relation, so do the steps that a run takes inside them. -/
theorem Run.obeys (begins : ∀ call w, rules.begins call w → call.Obeys rel)
    (run : Run rules start trace pool) :
    (∀ index running, pool.calls index = some running →
      running.call.Obeys rel ∧ running.place.Runs (Program.Obeys rel)) ∧
    ∀ move ∈ trace, move.running.place.callback → rel move.before move.after := by
  induction run with
  | start => exact ⟨by simp, by simp⟩
  | step _ next ih =>
    obtain ⟨obeys, moved⟩ := ih
    cases next with
    | begin unused allowed =>
      refine ⟨fun other found there => ?_, moved⟩
      rcases calls_put there with ⟨-, rfl⟩ | ⟨-, before⟩
      · exact ⟨begins _ _ allowed, trivial⟩
      · exact obeys other found before
    | outside allowed => exact ⟨obeys, moved⟩
    | @advance index running turn here advances ready =>
      obtain ⟨own, place⟩ := obeys index running here
      refine ⟨fun other found there => ?_, fun move listed calls => ?_⟩
      · rcases calls_put there with ⟨-, rfl⟩ | ⟨-, before⟩
        · exact ⟨own, own.toRuns.advance (fun rest => rest.turn.2) place advances _⟩
        · exact obeys other found before
      · rcases List.mem_cons.mp listed with rfl | earlier
        · exact own.callback place advances calls ready
        · exact moved move earlier calls

end Pool

end Reload
