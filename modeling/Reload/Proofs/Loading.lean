import Reload.Proofs.Definition.Memory

/-!
Loads in the context of an image. A context asks its parent first, and what the parent answers may be
different each time; only a refused load of the context's own unit comes to the image. However these
take turns, the context builds one artifact at the first of them and gives it at all the others, and the
loads use up one serial number together (`MemoryContext.builds_once`).
-/

namespace Reload

/-! ### Loads -/

/-- A load in a context, in the state that it found and the one that it left. A parent may change its mind
    at any time, so each load has the resolver that its parent was then. -/
structure Load where
  thread : ThreadId
  name : Name
  parent : Resolver
  before : World
  answer : Except Failure (Option Artifact)
  after : World

namespace Load

/-- What the parent answered. -/
def asked (load : Load) : Except NotFound Artifact :=
  (load.parent.resolve load.thread load.name load.before).1

/-- The state in which the parent had answered. -/
def heard (load : Load) : World :=
  (load.parent.resolve load.thread load.name load.before).2

/-- Whether a load came to the image of a unit: the name is that of the unit, and the parent refused it. -/
def reaches (unit : Name) (load : Load) : Bool :=
  load.name = unit && !load.asked.isOk

/-- What a context gives whose own artifact is this one. -/
def due (own : Artifact) (load : Load) : Except Failure (Option Artifact) :=
  match load.asked with
  | .ok artifact => .ok (some artifact)
  | .error missing => if load.name = own.name then .ok (some own) else .error (.notFound missing)

/-- The serial numbers that a load used up. -/
def serials (load : Load) : List Nat :=
  List.range' (load.before.created + 1) (load.after.created - load.before.created)

/-- Asking the parent builds nothing and creates nothing. -/
theorem heard_eq (load : Load) : load.heard = { load.before with
    held := load.heard.held, counters := load.heard.counters, journal := load.heard.journal } :=
  (load.parent.answered load.thread load.name load.before).frame

variable {load : Load} {own : Artifact}

theorem serials_of_unchanged (created : load.after.created = load.before.created) :
    load.serials = [] := by
  rw [serials, created, Nat.sub_self]
  rfl

theorem serials_of_succ (created : load.after.created = load.before.created + 1) :
    load.serials = [load.before.created + 1] := by
  rw [serials, created, Nat.add_sub_cancel_left]
  rfl

theorem due_of_found {artifact : Artifact} (found : load.asked = .ok artifact) :
    load.due own = .ok (some artifact) := by
  rw [due, found]

theorem due_of_refused {missing : NotFound} (refused : load.asked = .error missing) :
    load.due own = if load.name = own.name then .ok (some own) else .error (.notFound missing) := by
  rw [due, refused]

theorem reaches_of_found {artifact : Artifact} (found : load.asked = .ok artifact) (unit : Name) :
    load.reaches unit = false := by
  rw [reaches, found]
  exact Bool.and_false _

theorem reaches_of_refused {missing : NotFound} (refused : load.asked = .error missing) (unit : Name) :
    load.reaches unit = decide (load.name = unit) := by
  rw [reaches, refused]
  exact Bool.and_true _

end Load

namespace MemoryContext

variable {ρ : Type} {api : UInt16} {context : MemoryContext} {thread : ThreadId} {name : Name}
  {w : World}

/-- Loads in a context, the latest first. Anything may happen between them, but nobody else touches what
    the context has built. -/
inductive Loads (api : UInt16) (context : MemoryContext) (start : System ρ) :
    List Load → System ρ → Prop where
  | start : Loads api context start [] start
  | meanwhile {loads : List Load} {s : System ρ} (s' : System ρ)
      (before : Loads api context start loads s)
      (untouched : s'.world.built context.id = s.world.built context.id) :
    Loads api context start loads s'
  | load {loads : List Load} {s s' : System ρ} {answer : Except Failure (Option Artifact)}
      (thread : ThreadId) (name : Name) (parent : Resolver)
      (before : Loads api context start loads s)
      (ran : ((Host.memory api).load thread { context with parent } name).run.run.run s =
        some (.ok answer, s')) :
    Loads api context start (⟨thread, name, parent, s.world, answer, s'.world⟩ :: loads) s'

/-! ### One load -/

/-- The load was made in the context, while that had the parent of the load. -/
structure Makes (context : MemoryContext) (load : Load) : Prop where
  answer : load.answer = (MemoryContext.load { context with parent := load.parent } load.thread
    load.name load.before).1.map some
  after : load.after = (MemoryContext.load { context with parent := load.parent } load.thread
    load.name load.before).2

section
variable {load : Load} (makes : context.Makes load)
include makes

/-- What the parent has is the answer, and the context has no part in it. -/
theorem Makes.of_found {artifact : Artifact} (found : load.asked = .ok artifact) :
    load.answer = .ok (some artifact) ∧ load.after = load.heard := by
  obtain ⟨answer, after⟩ := makes
  have asked : load.parent.resolve load.thread load.name load.before = (.ok artifact, load.heard) :=
    Prod.ext found rfl
  simp only [MemoryContext.load, asked] at answer after
  exact ⟨answer, after⟩

/-- The refusal of another name than that of the unit is passed on. -/
theorem Makes.of_refused {missing : NotFound} (refused : load.asked = .error missing)
    (other : load.name ≠ context.unit) :
    load.answer = .error (.notFound missing) ∧ load.after = load.heard := by
  obtain ⟨answer, after⟩ := makes
  have asked : load.parent.resolve load.thread load.name load.before = (.error missing, load.heard) :=
    Prod.ext refused rfl
  simp only [MemoryContext.load, asked, if_neg other] at answer after
  exact ⟨answer, after⟩

/-- What the parent refuses of the unit comes to the image. -/
theorem Makes.of_reached {missing : NotFound} (refused : load.asked = .error missing)
    (same : load.name = context.unit) :
    load.answer = .ok (some (context.own load.heard).1) ∧ load.after = (context.own load.heard).2 := by
  obtain ⟨answer, after⟩ := makes
  have asked : load.parent.resolve load.thread load.name load.before = (.error missing, load.heard) :=
    Prod.ext refused rfl
  simp only [MemoryContext.load, asked, if_pos same] at answer after
  exact ⟨answer, after⟩

end

/-- The artifact of the image of a context. -/
structure Fits (context : MemoryContext) (own : Artifact) : Prop where
  name : own.name = context.unit
  size : own.imageSize = context.imageSize
  payload : own.payload = .body context.body

/-- What becomes of a load: it passes the image by, or gets what was built before, or has it built. -/
inductive Went (context : MemoryContext) (load : Load) : Prop where
  | past (aside : load.reaches context.unit = false)
      (answer : ∀ own, context.Fits own → load.answer = load.due own)
      (built : load.after.built context.id = load.before.built context.id)
      (created : load.after.created = load.before.created)
  | again {own : Artifact} (reached : load.reaches context.unit = true)
      (before : load.before.built context.id = some own)
      (answer : context.Fits own → load.answer = load.due own)
      (built : load.after.built context.id = some own)
      (created : load.after.created = load.before.created)
  | first {own : Artifact} (reached : load.reaches context.unit = true)
      (before : load.before.built context.id = none)
      (fits : context.Fits own)
      (answer : load.answer = load.due own)
      (built : load.after.built context.id = some own)
      (created : load.after.created = load.before.created + 1)
      (serial : own.serial = load.before.created + 1)

/-- A load of the unit that the parent refuses. -/
private theorem went_of_reached {load : Load} (makes : context.Makes load) {missing : NotFound}
    (refused : load.asked = .error missing) (same : load.name = context.unit) : context.Went load := by
  have reached : load.reaches context.unit = true :=
    (Load.reaches_of_refused refused _).trans (decide_eq_true same)
  have due {own : Artifact} (fits : context.Fits own) : load.due own = .ok (some own) := by
    rw [Load.due_of_refused refused, if_pos (same.trans fits.name.symm)]
  obtain ⟨answer, after⟩ := makes.of_reached refused same
  unfold MemoryContext.own at answer after
  have memo : load.heard.built context.id = load.before.built context.id := by rw [load.heard_eq]
  cases before : load.before.built context.id with
  | some own =>
    simp only [memo, before] at answer after
    refine .again reached before (fun fits => answer.trans (due fits).symm) ?_ ?_
    · rw [after]
      exact memo.trans before
    · rw [after, load.heard_eq]
      rfl
  | none =>
    simp only [memo, before] at answer after
    have fits : context.Fits (context.fresh load.heard) := ⟨rfl, rfl, rfl⟩
    refine .first reached before fits (answer.trans (due fits).symm) ?_ ?_ ?_
    · rw [after]
      exact replace_self ..
    · rw [after, load.heard_eq]
      rfl
    · rw [load.heard_eq]
      rfl

theorem went_of_makes {load : Load} (makes : context.Makes load) : context.Went load := by
  have memo : load.heard.built context.id = load.before.built context.id := by rw [load.heard_eq]
  cases asked : load.asked with
  | ok artifact =>
    obtain ⟨answer, after⟩ := makes.of_found asked
    refine .past (Load.reaches_of_found asked _) (fun own _ => ?_) ?_ ?_
    · rw [answer, Load.due_of_found asked]
    · rw [after, memo]
    · rw [after, load.heard_eq]
  | error missing =>
    by_cases same : load.name = context.unit
    · exact went_of_reached makes asked same
    obtain ⟨answer, after⟩ := makes.of_refused asked same
    refine .past ((Load.reaches_of_refused asked _).trans (decide_eq_false same)) (fun own fits => ?_)
      ?_ ?_
    · rw [answer, Load.due_of_refused asked, if_neg fun equal => same (equal.trans fits.name)]
    · rw [after, memo]
    · rw [after, load.heard_eq]

theorem Went.created_le {load : Load} (went : context.Went load) :
    load.before.created ≤ load.after.created := by
  cases went with
  | past _ _ _ created => exact Nat.le_of_eq created.symm
  | again _ _ _ _ created => exact Nat.le_of_eq created.symm
  | first _ _ _ _ _ created _ => exact created ▸ Nat.le_succ _

theorem makes_of_run {parent : Resolver} {s s' : System ρ} {answer : Except Failure (Option Artifact)}
    (ran : ((Host.memory api).load thread { context with parent } name).run.run.run s =
      some (.ok answer, s')) :
    context.Makes ⟨thread, name, parent, s.world, answer, s'.world⟩ := by
  rw [Host.run_load] at ran
  obtain ⟨answered, rfl⟩ := Prod.mk.inj (Option.some.inj ran)
  exact ⟨(Except.ok.inj answered).symm, rfl⟩

/-! ### What a context remembers -/

/-- What a context has built tells its loads: none came to the image if it has built nothing, and else
    all that did got the artifact, the first of them for its serial number. -/
inductive Remembers (context : MemoryContext) (loads : List Load) : Option Artifact → Prop where
  | nothing (answers : ∀ own, context.Fits own → ∀ load ∈ loads, load.answer = load.due own)
      (aside : loads.any (·.reaches context.unit) = false)
      (serials : loads.flatMap Load.serials = []) :
    Remembers context loads none
  | artifact {own : Artifact} (fits : context.Fits own)
      (answers : ∀ load ∈ loads, load.answer = load.due own)
      (reached : loads.any (·.reaches context.unit) = true)
      (serials : loads.flatMap Load.serials = [own.serial]) :
    Remembers context loads (some own)

/-- What is built stays built, and gets no other serial number. -/
private theorem Remembers.again {loads : List Load} {load : Load} {own : Artifact}
    (remembers : context.Remembers loads (some own))
    (answer : context.Fits own → load.answer = load.due own)
    (created : load.after.created = load.before.created) :
    context.Remembers (load :: loads) (some own) := by
  cases remembers with
  | artifact fits answers reached serials =>
    refine .artifact fits ?_ ?_ ?_
    · rw [List.forall_mem_cons]
      exact ⟨answer fits, answers⟩
    · rw [List.any_cons, reached, Bool.or_true]
    · rw [List.flatMap_cons, Load.serials_of_unchanged created, serials, List.nil_append]

theorem Remembers.load {loads : List Load} {load : Load}
    (remembers : context.Remembers loads (load.before.built context.id)) (went : context.Went load) :
    context.Remembers (load :: loads) (load.after.built context.id) := by
  cases went with
  | past aside answer built created =>
    rw [built]
    cases before : load.before.built context.id with
    | some own =>
      rw [before] at remembers
      exact remembers.again (answer own) created
    | none =>
      rw [before] at remembers
      cases remembers with
      | nothing answers aside' serials =>
        refine .nothing (fun own fits => ?_) ?_ ?_
        · rw [List.forall_mem_cons]
          exact ⟨answer own fits, answers own fits⟩
        · rw [List.any_cons, aside, aside', Bool.or_false]
        · rw [List.flatMap_cons, Load.serials_of_unchanged created, serials, List.nil_append]
  | again reached before answer built created =>
    rw [before] at remembers
    rw [built]
    exact remembers.again answer created
  | first reached before fits answer built created serial =>
    rw [before] at remembers
    rw [built]
    cases remembers with
    | nothing answers _ serials =>
      refine .artifact fits ?_ ?_ ?_
      · rw [List.forall_mem_cons]
        exact ⟨answer, answers _ fits⟩
      · rw [List.any_cons, reached, Bool.true_or]
      · rw [List.flatMap_cons, Load.serials_of_succ created, serials, List.append_nil, serial]

/-- A context that had built nothing remembers its loads. -/
theorem Loads.remembers {start s : System ρ} {loads : List Load}
    (unbuilt : start.world.built context.id = none) (run : context.Loads api start loads s) :
    context.Remembers loads (s.world.built context.id) ∧
      ∀ load ∈ loads, load.before.created ≤ load.after.created := by
  induction run with
  | start =>
    rw [unbuilt]
    exact ⟨.nothing (fun _ _ _ listed => absurd listed List.not_mem_nil) rfl rfl,
      fun _ listed => absurd listed List.not_mem_nil⟩
  | meanwhile s' _ untouched ih =>
    rw [untouched]
    exact ih
  | load thread name parent _ ran ih =>
    have went := went_of_makes (makes_of_run ran)
    rw [List.forall_mem_cons]
    exact ⟨ih.1.load went, went.created_le, ih.2⟩

/-- The context of an image builds one artifact at most. Each load gives what the parent answers at that
    moment; what the parent refuses fails as it did there, unless it is the unit of the image, and that is
    always given as the same artifact, with the name and the body that the image spells and the size of
    the whole image. All loads together use up the serial number of that artifact if one of them came to
    the image, and none otherwise. -/
theorem builds_once {image : Bytes} {parent : Resolver} {s s₀ s₁ : System ρ} {loads : List Load}
    (fresh : s.world.FreshContexts)
    (made : ((Host.memory api).instantiate thread image parent).run.run.run s =
      some (.ok (.ok context), s₀))
    (run : context.Loads api s₀ loads s₁) :
    (∀ (thread : ThreadId) (name : Name) (parent : Resolver) (s : System ρ), ∃ answer s',
      ((Host.memory api).load thread { context with parent } name).run.run.run s =
        some (.ok answer, s')) ∧
    ∃ (decoded : Image) (own : Artifact), Image.decode image = .ok decoded ∧
      own.name.text = decoded.name ∧ own.payload = .body decoded.body ∧ own.imageSize = image.length ∧
      (∀ load ∈ loads, load.before.created ≤ load.after.created ∧ load.answer = load.due own) ∧
      loads.flatMap Load.serials =
        if loads.any (·.reaches own.name) then [own.serial] else [] := by
  have made' : instantiate api image parent s.world = (.ok context, s₀.world) := by
    obtain ⟨ended, rfl⟩ := Prod.mk.inj (Option.some.inj made)
    exact Prod.ext (Except.ok.inj ended) rfl
  obtain ⟨decoded, spells, name, body, size⟩ := image_of_instantiate made'
  have unbuilt : s₀.world.built context.id = none := by
    obtain ⟨-, id, -⟩ := instantiate_eq made'
    have built := instantiate_built api image parent s.world
    rw [made'] at built
    rw [built, id]
    exact fresh _ (Nat.le_refl _)
  obtain ⟨remembers, grown⟩ := run.remembers unbuilt
  refine ⟨fun thread name parent s => ⟨_, _, Host.run_load ..⟩, decoded, ?_⟩
  generalize s₁.world.built context.id = memo at remembers
  cases remembers with
  | nothing answers aside serials =>
    have fits : context.Fits (context.fresh s.world) := ⟨rfl, rfl, rfl⟩
    refine ⟨context.fresh s.world, spells, name, congrArg Payload.body body, size, ?_, ?_⟩
    · exact fun load listed => ⟨grown load listed, answers _ fits load listed⟩
    · rw [fits.name, aside, serials]
      rfl
  | @artifact own fits answers reached serials =>
    refine ⟨own, spells, fits.name ▸ name, fits.payload.trans (congrArg Payload.body body),
      fits.size.trans size, ?_, ?_⟩
    · exact fun load listed => ⟨grown load listed, answers load listed⟩
    · rw [fits.name, reached, serials]
      rfl

/-- A context whose parent answers from a cache: it builds its artifact, then finds another one published
    there, and gives its own again when that is invalidated. -/
theorem builds_once_interrupted :
    let name : Name := ⟨"a", by decide⟩
    let image : Bytes := [0x48, 0x53, 0x49, 0x31, 0, 26, 0, 1, 0x61, 0, 0, 0, 1, 7, 0x88, 0x7B, 0x69, 0x44]
    let parent : Resolver := .guarded .processWide none ⟨0⟩
    let own : Artifact := ⟨1, name, 18, .body [7]⟩
    let other : Artifact := ⟨2, name, 0, .nothing⟩
    ∃ (context : MemoryContext) (s₀ s₁ : System Unit) (loads : List Load),
      World.FreshContexts {} ∧
      ((Host.memory 26).instantiate .first image parent).run.run.run ⟨{}, ()⟩ =
        some (.ok (.ok context), s₀) ∧
      context.Loads 26 s₀ loads s₁ ∧
      (∃ artifact : Artifact, artifact.imageSize = image.length ∧
        ∀ load ∈ loads, load.before.created ≤ load.after.created ∧ load.answer = load.due artifact) ∧
      loads.map Load.answer = [.ok (some own), .ok (some other), .ok (some own)] ∧
      loads.flatMap Load.serials = [own.serial] := by
  intro name image parent own other
  have fresh : World.FreshContexts {} := fun _ _ => rfl
  have spells : Image.decode image = .ok ⟨26, "a", [7]⟩ := by decide +kernel
  let context : MemoryContext := ⟨⟨0⟩, parent, name, [7], 18⟩
  let s₀ : System Unit := ⟨context.retain { nextContext := 1 }, ()⟩
  have made : ((Host.memory 26).instantiate .first image parent).run.run.run ⟨{}, ()⟩ =
      some (.ok (.ok context), s₀) := by
    show some (Except.ok (instantiate 26 image parent {}).1, _) = _
    simp only [instantiate, spells]
    rfl
  let s₁ : System Unit := ⟨(context.load .first name s₀.world).2, ()⟩
  have first : context.Loads 26 s₀ _ s₁ := .load .first name parent .start (Host.run_load ..)
  let published := ((s₁.world.create name 0 .nothing).2.publish .processWide name other).2
  let s₂ : System Unit := ⟨(context.load .first name published).2, ()⟩
  have second : context.Loads 26 s₀ _ s₂ :=
    .load .first name parent (.meanwhile ⟨published, ()⟩ first rfl) (Host.run_load ..)
  let invalidated := (s₂.world.invalidate .processWide name).2
  let s₃ : System Unit := ⟨(context.load .first name invalidated).2, ()⟩
  have third : context.Loads 26 s₀ _ s₃ :=
    .load .first name parent (.meanwhile ⟨invalidated, ()⟩ second rfl) (Host.run_load ..)
  obtain ⟨-, -, artifact, -, -, -, size, answers, -⟩ := builds_once fresh made third
  exact ⟨context, s₀, s₃, _, fresh, made, third, ⟨artifact, size, answers⟩, rfl, rfl⟩

end MemoryContext

end Reload
