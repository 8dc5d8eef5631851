import Reload.Proofs.Definition.Outline

/-!
The callbacks of a definition. The packer, the host and the contexts may be anything. All that is
known of them is how they relate the states before and after (`Callbacks`), and what follows for the
whole work of a definition is told once for all such relations (`run_work`).
-/

namespace Reload.Call

variable {ρ κ : Type} (call : Call ρ κ)

/-!
### What a definition calls

The ends of the packer, of the host asked for a context, and of a context asked for the name.
-/

def packs (s : System ρ) : Option (Except Panic (Except Failure Bytes) × System ρ) :=
  (call.loader.packer.pack call.thread call.name call.raw).run.run.run s

def instantiates (image : Bytes) (s : System ρ) :
    Option (Except Panic (Except Failure κ) × System ρ) :=
  (call.loader.host.instantiate call.thread image call.loader.resolver).run.run.run s

def loads (context : κ) (s : System ρ) :
    Option (Except Panic (Except Failure (Option Artifact)) × System ρ) :=
  (call.loader.host.load call.thread context call.name).run.run.run s

/-- The state in which a definition drops a context that has loaded. -/
def published (loaded : Except Panic (Except Failure (Option Artifact))) (w : World) : World :=
  match loaded with
  | .ok (.ok (some artifact)) => (w.publish call.loader.cache call.name artifact).2
  | _ => w

/-- How the steps under the marker end if the context loads so. -/
def loadResult (loaded : Except Panic (Except Failure (Option Artifact))) (w : World) : Result :=
  match loaded with
  | .error panic => .error panic
  | .ok (.error cause) => .ok (.error cause)
  | .ok (.ok none) => .ok (.error .emptyResult)
  | .ok (.ok (some artifact)) =>
    .ok (.ok (artifact, (w.publish call.loader.cache call.name artifact).1))

/-- All callbacks of a definition end, and relate the states before and after. The dropping of a
    context, which may let go of artifacts, has a relation of its own. -/
structure Callbacks (inner last : World → World → Prop) (s : System ρ) : Prop where
  pack : ∃ packed, call.packs s = some packed ∧ inner s.world packed.2.world
  instantiate : ∀ image s₁, call.packs s = some (.ok (.ok image), s₁) →
    ∃ built, call.instantiates image s₁ = some built ∧ inner s₁.world built.2.world
  load : ∀ image s₁ context s₂, call.packs s = some (.ok (.ok image), s₁) →
    call.instantiates image s₁ = some (.ok (.ok context), s₂) →
    ∃ loaded, call.loads context s₂ = some loaded ∧ inner s₂.world loaded.2.world ∧
      last (call.published loaded.1 loaded.2.world)
        (call.loader.host.close context (call.published loaded.1 loaded.2.world))

/-- What callbacks keep can be told otherwise, with the help of what holds all the way. -/
theorem Callbacks.mono {inner last inner' last' : World → World → Prop} {s : System ρ}
    (callbacks : call.Callbacks inner last s) (holds : World → Prop) (start : holds s.world)
    (weaker : ∀ w w', holds w → inner w w' → inner' w w' ∧ holds w')
    (weakerLast : ∀ w w', last w w' → last' w w') : call.Callbacks inner' last' s where
  pack := by
    obtain ⟨packed, ends, kept⟩ := callbacks.pack
    exact ⟨packed, ends, (weaker _ _ start kept).1⟩
  instantiate image s₁ packs := by
    obtain ⟨packed, ends, kept⟩ := callbacks.pack
    obtain rfl := Option.some.inj (packs.symm.trans ends)
    obtain ⟨built, builds, kept₁⟩ := callbacks.instantiate image s₁ packs
    exact ⟨built, builds, (weaker _ _ (weaker _ _ start kept).2 kept₁).1⟩
  load image s₁ context s₂ packs builds := by
    obtain ⟨packed, ends, kept⟩ := callbacks.pack
    obtain rfl := Option.some.inj (packs.symm.trans ends)
    obtain ⟨built, ends₁, kept₁⟩ := callbacks.instantiate image s₁ packs
    obtain rfl := Option.some.inj (builds.symm.trans ends₁)
    obtain ⟨loaded, loads, kept₂, keptLast⟩ := callbacks.load image s₁ context s₂ packs builds
    have before := (weaker _ _ (weaker _ _ start kept).2 kept₁).2
    exact ⟨loaded, loads, (weaker _ _ before kept₂).1, weakerLast _ _ keptLast⟩

/-! ### The work -/

/-- What the work of a definition did: it stopped before there was a context, or a context was
    asked for the artifact, which was published if there was one, and was dropped. -/
inductive Worked (inner last : World → World → Prop) (s : System ρ) : Result → World → Prop where
  | stopped {result : Result} {w : World} (failed : ∀ success, result ≠ .ok (.ok success))
      (kept : inner s.world w) : Worked inner last s result w
  | closed {image : Bytes} {s₁ : System ρ} {context : κ} {s₂ : System ρ}
      {loaded : Except Panic (Except Failure (Option Artifact))} {s₃ : System ρ} {w : World}
      (packs : call.packs s = some (.ok (.ok image), s₁))
      (builds : call.instantiates image s₁ = some (.ok (.ok context), s₂))
      (loads : call.loads context s₂ = some (loaded, s₃))
      (kept : inner s.world s₃.world) (keptLast : last (call.published loaded s₃.world) w) :
      Worked inner last s (call.loadResult loaded s₃.world) w

theorem work_eq : call.work.run.run = call.packing .done :=
  (bind_pure _).symm.trans (call.work_bind .done)

/-! A definition that has called goes on from the end of the callback. -/

theorem run_packing {s s₁ : System ρ} {packed : Except Panic (Except Failure Bytes)}
    (packs : call.packs s = some (packed, s₁)) :
    (call.packing .done).run s = (call.packed .done packed).run s₁ := by
  refine (Program.run_bind _ _ _).trans ?_
  rw [show Program.run _ s = some (packed, s₁) from packs]
  rfl

theorem run_instantiating {image : Bytes} {s s₁ : System ρ}
    {built : Except Panic (Except Failure κ)}
    (builds : call.instantiates image s = some (built, s₁)) :
    (call.instantiating image .done).run s = (call.instantiated .done built).run s₁ := by
  refine (Program.run_bind _ _ _).trans ?_
  rw [show Program.run _ s = some (built, s₁) from builds]
  rfl

theorem run_loading {context : κ} {s s₁ : System ρ}
    {loaded : Except Panic (Except Failure (Option Artifact))}
    (loads : call.loads context s = some (loaded, s₁)) :
    (call.loading context .done).run s = some (call.loadResult loaded s₁.world,
      { s₁ with world := call.loader.host.close context (call.published loaded s₁.world) }) := by
  have loading : (call.loading context .done).run s = (call.loaded context .done loaded).run s₁ := by
    refine (Program.run_bind _ _ _).trans ?_
    rw [show Program.run _ s = some (loaded, s₁) from loads]
    rfl
  rw [loading]
  rcases loaded with panic | cause | _ | artifact <;> rfl

/-- Work whose packer gives an image and whose host makes a context of it ends as that context
    loads. -/
theorem run_work_of_builds {image : Bytes} {s s₁ s₂ s₃ : System ρ} {context : κ}
    {loaded : Except Panic (Except Failure (Option Artifact))}
    (packs : call.packs s = some (.ok (.ok image), s₁))
    (builds : call.instantiates image s₁ = some (.ok (.ok context), s₂))
    (loads : call.loads context s₂ = some (loaded, s₃)) :
    call.work.run.run.run s = some (call.loadResult loaded s₃.world,
      { s₃ with world := call.loader.host.close context (call.published loaded s₃.world) }) := by
  rw [work_eq, call.run_packing packs]
  show (call.instantiating image .done).run s₁ = _
  rw [call.run_instantiating builds]
  exact call.run_loading loads

/-- With callbacks that end, the work ends, and does what the callbacks do, in their order. -/
theorem run_work {inner last : World → World → Prop} {s : System ρ}
    (trans : ∀ {w₁ w₂ w₃}, inner w₁ w₂ → inner w₂ w₃ → inner w₁ w₃)
    (callbacks : call.Callbacks inner last s) :
    ∃ result s', call.work.run.run.run s = some (result, s') ∧
      call.Worked inner last s result s'.world := by
  obtain ⟨⟨packed, s₁⟩, packs, kept₁⟩ := callbacks.pack
  rcases packed with panic | cause | image
  · exact ⟨_, _, by rw [work_eq, call.run_packing packs]; rfl, .stopped (by simp) kept₁⟩
  · exact ⟨_, _, by rw [work_eq, call.run_packing packs]; rfl, .stopped (by simp) kept₁⟩
  obtain ⟨⟨built, s₂⟩, builds, kept₂⟩ := callbacks.instantiate image s₁ packs
  have building : call.work.run.run.run s = (call.instantiated .done built).run s₂ := by
    rw [work_eq, call.run_packing packs]
    exact call.run_instantiating builds
  rcases built with panic | cause | context
  · exact ⟨_, _, by rw [building]; rfl, .stopped (by simp) (trans kept₁ kept₂)⟩
  · exact ⟨_, _, by rw [building]; rfl, .stopped (by simp) (trans kept₁ kept₂)⟩
  obtain ⟨⟨loaded, s₃⟩, loads, kept₃, keptLast⟩ := callbacks.load image s₁ context s₂ packs builds
  exact ⟨_, _, call.run_work_of_builds packs builds loads,
    .closed packs builds loads (trans (trans kept₁ kept₂) kept₃) keptLast⟩

end Reload.Call
