import Reload.Proofs.Concurrent.Lifetime
import Reload.Proofs.Concurrent.Markers
import Reload.Proofs.Definition.Making

/-!
Definitions whose images have another name. The loader of such a definition refuses the name as long as
the marker stands, and the context has another unit. So from the host on, each step brings the definition
nearer to one failure, and none publishes anything (`Call.falls_advance`, `Place.Doomed.ends`).
-/

namespace Reload

variable {ρ : Type}

/-! ### Images of other names -/

/-- Why a definition of a name fails if its image has another name: because the host does not take the
    image, or because the image has no such unit. -/
def Image.mismatch (decoded : Image) (hostApi : UInt16) (name : Name) : Failure :=
  if hostApi < decoded.api then .outdatedHost decoded.api hostApi
  else
    match Name.ofText decoded.name with
    | .error invalid => .instantiation invalid.message
    | .ok _ => .notFound ⟨name⟩

/-- A host makes no context of such an image, or one of another unit. -/
private theorem instantiate_mismatch {image : Bytes} {decoded : Image} {name : Name}
    (spells : Image.decode image = .ok decoded) (other : decoded.name ≠ name.text) (api : UInt16)
    (parent : Resolver) (w : World) :
    (MemoryContext.instantiate api image parent w).1 = .error (decoded.mismatch api name) ∨
    ∃ context, (MemoryContext.instantiate api image parent w).1 = .ok context ∧
      context.parent = parent ∧ context.unit ≠ name ∧
      decoded.mismatch api name = .notFound ⟨name⟩ := by
  simp only [MemoryContext.instantiate, spells, Image.mismatch]
  split
  · exact .inl rfl
  · cases named : Name.ofText decoded.name with
    | error invalid => exact .inl rfl
    | ok unit =>
      refine .inr ⟨_, rfl, rfl, ?_, rfl⟩
      rintro rfl
      exact other (Name.ofText_eq_ok_iff.mp named)

/-- While the marker of a definition stands, a context of another unit gives nothing for its name. -/
private theorem load_mismatch {call : Call ρ MemoryContext} {context : MemoryContext} {w : World}
    (parent : context.parent = call.loader.resolver) (other : context.unit ≠ call.name)
    (marked : w.marker call.thread = some call.name) :
    context.load call.thread call.name w = (.error (.notFound ⟨call.name⟩),
      Resolver.Tree.refuse call.loader.counters call.name w) := by
  have refused : call.loader.resolver.resolve call.thread call.name w =
      (.error ⟨call.name⟩, Resolver.Tree.refuse call.loader.counters call.name w) := by
    rw [call.loader.resolver_eq, Resolver.resolve_guarded, if_pos marked]
  rw [MemoryContext.load, parent, refused]
  exact if_neg (Ne.symm other)

/-! ### Definitions that are bound to fail -/

namespace Place

/-- A place from which a definition fails with this cause, and publishes nothing. -/
inductive Doomed (call : Call ρ MemoryContext) (cause : Failure) : Place ρ MemoryContext → Prop where
  | instantiate {lock : Option LockId} {image : Bytes} {decoded : Image} {api : UInt16}
      (spells : Image.decode image = .ok decoded) (other : decoded.name ≠ call.name.text)
      (same : cause = decoded.mismatch api call.name) : Doomed call cause
    (.inside lock (.instantiate (MemoryContext.makes api image call.loader.resolver)))
  | load {lock : Option LockId} {context : MemoryContext}
      (parent : context.parent = call.loader.resolver) (other : context.unit ≠ call.name)
      (same : cause = .notFound ⟨call.name⟩) : Doomed call cause
    (.inside lock (.load context (context.loads call.thread call.name)))
  | close {lock : Option LockId} {context : MemoryContext} :
    Doomed call cause (.inside lock (.close context (.ok (.error cause))))
  | unmark {lock : Option LockId} : Doomed call cause (.inside lock (.unmark (.ok (.error cause))))
  | report {lock : Option LockId} {first : Note} {others : List Note} :
    Doomed call cause (.inside lock (.report first others (.ok (.error ⟨call.name, cause⟩))))
  | unlock {lock : LockId} : Doomed call cause (.unlock lock (.ok (.error ⟨call.name, cause⟩)))
  | drop {lock : LockId} : Doomed call cause (.drop lock (.ok (.error ⟨call.name, cause⟩)))
  | ended : Doomed call cause (.ended (.ok (.error ⟨call.name, cause⟩)))

/-- How many steps a doomed definition has to go, at most. -/
def toGo : Place ρ MemoryContext → Nat
  | .inside _ (.instantiate _) => 8
  | .inside _ (.load ..) => 7
  | .inside _ (.close ..) => 6
  | .inside _ (.unmark _) => 5
  | .inside _ (.report _ others _) => 3 + others.length
  | .unlock .. => 2
  | .drop .. => 1
  | _ => 0

end Place

namespace Call

variable {call : Call ρ MemoryContext} {cause : Failure} {place : Place ρ MemoryContext}

/-- A step that waits for nothing, writes to no cache, and brings a definition nearer to its failure. -/
structure Falls (call : Call ρ MemoryContext) (cause : Failure) (place : Place ρ MemoryContext)
    (turn : Turn (System ρ) (Place ρ MemoryContext)) (s : System ρ) : Prop where
  ready : turn.ready s
  next : (turn.next s).Doomed call cause
  entries : (turn.act s).world.entries = s.world.entries
  marker : (turn.next s).marked → place.marked ∧ (turn.act s).world.marker = s.world.marker
  nearer : (turn.next s).toGo < place.toGo

private theorem doomed_atReporting (call : Call ρ MemoryContext) (cause : Failure)
    (lock : Option LockId) (notes : List Note) :
    (atReporting lock (.ok (.error ⟨call.name, cause⟩)) notes).Doomed call cause ∧
      (atReporting lock (.ok (.error ⟨call.name, cause⟩)) notes :
        Place ρ MemoryContext).toGo < 3 + notes.length := by
  cases notes with
  | nil =>
    cases lock with
    | none => exact ⟨.ended, by simp [atReporting, atLeaving, Place.toGo]⟩
    | some lock => exact ⟨.unlock, by simp [atReporting, atLeaving, Place.toGo]⟩
  | cons first others => exact ⟨.report, by simp [atReporting, Place.toGo]⟩

/-- A definition whose host has made nothing, or a context of another unit, goes on to its failure. -/
private theorem doomed_atInstantiated (memory : call.InMemoryHost) (lock : Option LockId)
    {instantiated : Except Failure MemoryContext}
    (mismatched : instantiated = .error cause ∨ ∃ context, instantiated = .ok context ∧
      context.parent = call.loader.resolver ∧ context.unit ≠ call.name ∧
      cause = .notFound ⟨call.name⟩) :
    (call.atInstantiated lock (.ok instantiated)).Doomed call cause ∧
      (call.atInstantiated lock (.ok instantiated)).toGo < 8 := by
  rcases mismatched with rfl | ⟨context, rfl, parent, other, same⟩
  · exact ⟨.unmark, by simp [atInstantiated, Place.toGo]⟩
  · obtain ⟨level, host⟩ := memory
    have loads := MemoryContext.host_load (ρ := ρ) level context call.thread call.name
    rw [← host] at loads
    have next : call.atInstantiated lock (.ok (.ok context)) =
        .inside lock (.load context (context.loads call.thread call.name)) := by
      simp only [atInstantiated, loads]
      rfl
    rw [next]
    exact ⟨.load parent other same, by simp [Place.toGo]⟩

private theorem falls_instantiate (memory : call.InMemoryHost) (lock : Option LockId) {image : Bytes}
    {decoded : Image} (spells : Image.decode image = .ok decoded)
    (other : decoded.name ≠ call.name.text) (api : UInt16) (s : System ρ) :
    let stage : Stage ρ MemoryContext :=
      .instantiate (MemoryContext.makes api image call.loader.resolver)
    call.Falls (decoded.mismatch api call.name) (.inside lock stage) (call.advanceStage lock stage)
      s := by
  intro stage
  have growing : Growing call.loader.counters _ s.world _ :=
    MemoryContext.instantiate_growing api image call.loader.resolver s.world
  have frame := growing.frame
  obtain ⟨doomed, nearer⟩ := doomed_atInstantiated memory lock
    (instantiate_mismatch spells other api call.loader.resolver s.world)
  refine ⟨rfl, doomed, ?_, fun _ => ⟨rfl, growing.marker⟩, nearer⟩
  show (MemoryContext.instantiate api image call.loader.resolver s.world).2.entries = _
  rw [frame]

private theorem falls_load (lock : Option LockId) {context : MemoryContext}
    (parent : context.parent = call.loader.resolver) (other : context.unit ≠ call.name)
    {s : System ρ} (marked : s.world.marker call.thread = some call.name) :
    let stage : Stage ρ MemoryContext := .load context (context.loads call.thread call.name)
    call.Falls (.notFound ⟨call.name⟩) (.inside lock stage) (call.advanceStage lock stage) s := by
  intro stage
  have refused := load_mismatch parent other marked
  have next : (call.advanceStage lock stage).next s =
      .inside lock (.close context (.ok (.error (.notFound ⟨call.name⟩)))) := by
    simp only [stage, advanceStage, MemoryContext.loads, refused]
    rfl
  have act : ((call.advanceStage lock stage).act s).world =
      Resolver.Tree.refuse call.loader.counters call.name s.world := by
    simp only [stage, advanceStage, MemoryContext.loads, refused]
  refine ⟨rfl, next ▸ .close, by rw [act]; rfl, fun _ => ⟨rfl, by rw [act]; rfl⟩, ?_⟩
  rw [next]
  exact Nat.lt_succ_self 6

/-- Each step of a doomed definition, taken while its marker stands, brings it nearer to its failure. -/
theorem falls_advance (memory : call.InMemoryHost) (doomed : place.Doomed call cause)
    {turn : Turn (System ρ) (Place ρ MemoryContext)} (advances : call.advance place = some turn)
    {s : System ρ} (marked : place.marked → s.world.marker call.thread = some call.name) :
    call.Falls cause place turn s := by
  cases doomed with
  | @instantiate lock image decoded api spells other same =>
    cases advances
    rw [same]
    exact falls_instantiate memory lock spells other api s
  | @load lock context parent other same =>
    cases advances
    rw [same]
    exact falls_load lock parent other (marked rfl)
  | @close lock context =>
    cases advances
    obtain ⟨api, host⟩ := memory
    have closes : call.loader.host.close context s.world = context.close s.world := by rw [host]; rfl
    refine ⟨rfl, .unmark, ?_, fun _ => ⟨rfl, ?_⟩, Nat.lt_succ_self 5⟩
    · show (call.loader.host.close context s.world).entries = _
      rw [closes, MemoryContext.close_eq]
    · show (call.loader.host.close context s.world).marker = _
      rw [closes, MemoryContext.close_eq]
  | @unmark lock =>
    cases advances
    obtain ⟨doomed, nearer⟩ := doomed_atReporting call cause lock
      (Result.notes call.name (.ok (.error cause)))
    refine ⟨rfl, doomed, rfl, fun still => ?_, nearer⟩
    have cleared : (call.atReport lock (.ok (.error cause))).marked = false := marked_atReporting ..
    cases cleared.symm.trans still
  | @report lock first others =>
    cases advances
    obtain ⟨doomed, nearer⟩ := doomed_atReporting call cause lock others
    refine ⟨rfl, doomed, by cases first <;> rfl, fun still => ?_, nearer⟩
    have unmarked : (atReporting lock (.ok (.error ⟨call.name, cause⟩)) others :
        Place ρ MemoryContext).marked = false := marked_atReporting ..
    cases unmarked.symm.trans still
  | @unlock lock =>
    cases advances
    exact ⟨rfl, .drop, rfl, (fun still => by cases still), Nat.lt_succ_self 1⟩
  | @drop lock =>
    cases advances
    exact ⟨rfl, .ended, rfl, (fun still => by cases still), Nat.lt_succ_self 0⟩
  | ended => cases advances

end Call

/-- A doomed definition that goes on alone fails, and changes no cache. -/
theorem Place.Doomed.ends {call : Call ρ MemoryContext} {cause : Failure}
    {place : Place ρ MemoryContext} (doomed : place.Doomed call cause) (memory : call.InMemoryHost)
    {s : System ρ} (marked : place.marked → s.world.marker call.thread = some call.name) :
    ∃ s', (call.rest place).run s = some (.ok (.error ⟨call.name, cause⟩), s') ∧
      s'.world.entries = s.world.entries := by
  induction steps : place.toGo using Nat.strongRecOn generalizing place s with
  | ind _ ih =>
    rcases call.ended_or_advances place with ⟨ending, rfl⟩ | ⟨turn, advances⟩
    · cases doomed
      exact ⟨s, rfl, rfl⟩
    · have falls := Call.falls_advance memory doomed advances marked
      have still : (turn.next s).marked →
          (turn.act s).world.marker call.thread = some call.name := by
        intro after
        obtain ⟨before, same⟩ := falls.marker after
        rw [same]
        exact marked before
      obtain ⟨s', ran, entries⟩ := ih _ (steps ▸ falls.nearer) falls.next still rfl
      refine ⟨s', ?_, entries.trans falls.entries⟩
      rw [call.rest_of_advance advances, Program.run, if_pos falls.ready]
      exact ran

end Reload
