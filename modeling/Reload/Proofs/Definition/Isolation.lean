import Reload.Proofs.Definition.Memory

/-!
What happens on a thread does not depend on the markers of other threads. Two states that differ in
those alone answer alike, and afterwards still differ in those alone. This is shown step by step: a
program is local to its thread if each of its steps is, and then so is the whole (`Local.run`).
-/

namespace Reload

variable {ρ κ α β : Type} {thread : ThreadId}

/-- The state amid these markers of all threads but one. -/
def World.amid (thread : ThreadId) (others : ThreadId → Option Name) (w : World) : World :=
  { w with marker := replace others thread (w.marker thread) }

def System.amid (thread : ThreadId) (others : ThreadId → Option Name) (s : System ρ) : System ρ :=
  { s with world := s.world.amid thread others }

/-! ### Single steps -/

/-- A step that neither looks at the markers of other threads nor changes them. -/
def World.Local (thread : ThreadId) (f : World → α × World) : Prop :=
  ∀ w others, f (w.amid thread others) = ((f w).1, (f w).2.amid thread others)

/-- A change that neither looks at the markers of other threads nor changes them. -/
def World.LocalChange (thread : ThreadId) (f : World → World) : Prop :=
  ∀ w others, f (w.amid thread others) = (f w).amid thread others

namespace World

theorem amid_marker (w : World) (others : ThreadId → Option Name) :
    (w.amid thread others).marker thread = w.marker thread := replace_self ..

theorem LocalChange.comp {f g : World → World} (first : LocalChange thread f)
    (second : LocalChange thread g) : LocalChange thread fun w => g (f w) :=
  fun w others => (congrArg g (first w others)).trans (second (f w) others)

theorem LocalChange.toLocal {f : World → World} (isLocal : LocalChange thread f) :
    Local thread fun w => ((), f w) := fun w others => Prod.ext rfl (isLocal w others)

theorem amid_replace (w : World) (others : ThreadId → Option Name) (value : Option Name) :
    { w.amid thread others with marker := replace (w.amid thread others).marker thread value } =
      { w with marker := replace w.marker thread value }.amid thread others := by
  have same : replace (replace others thread (w.marker thread)) thread value =
      replace others thread (replace w.marker thread value thread) := by
    funext other
    by_cases own : other = thread
    · rw [own, replace_self, replace_self, replace_self]
    · rw [replace_of_ne _ _ own, replace_of_ne _ _ own, replace_of_ne _ _ own]
  simp only [amid, same]

theorem local_mark (name : Name) : Local thread fun w => w.mark thread name := by
  intro w others
  simp only [mark, amid_marker]
  cases w.marker thread with
  | none => exact Prod.ext rfl (w.amid_replace others (some name))
  | some running => rfl

theorem local_unmark : LocalChange thread fun w => w.unmark thread :=
  fun w others => w.amid_replace others none

theorem local_marker : Local thread fun w => (w.marker thread, w) :=
  fun w others => Prod.ext (w.amid_marker others) rfl

theorem local_publish (cache : CacheId) (name : Name) (artifact : Artifact) :
    Local thread fun w => w.publish cache name artifact := fun _ _ => rfl

theorem local_invalidate (cache : CacheId) (name : Name) :
    Local thread fun w => w.invalidate cache name := fun _ _ => rfl

theorem local_lookup (cache : CacheId) (name : Name) :
    Local thread fun w => w.lookup cache name := by
  intro w others
  have same : ((w.amid thread others).lookup cache name).1 = (w.lookup cache name).1 := by
    rw [lookup_eq, lookup_eq]
    rfl
  refine Prod.ext same ?_
  rw [lookup_world, same, lookup_world w]
  cases (w.lookup cache name).1 <;> rfl

theorem local_lockFor (set : LockSetId) (name : Name) :
    Local thread fun w => w.lockFor set name := by
  intro w others
  have same : (w.amid thread others).pruned set = w.pruned set := rfl
  simp only [lockFor, same]
  cases (w.pruned set).get? name <;> rfl

theorem local_releaseAll (artifacts : List Artifact) :
    LocalChange thread fun w => w.releaseAll artifacts := by
  induction artifacts with
  | nil => exact fun _ _ => rfl
  | cons first rest ih => exact fun w others => ih (w.release first) others

theorem local_note (note : Note) (counters : CountersId) :
    LocalChange thread (note.apply counters) := by
  intro w others
  cases note <;> rfl

end World

/-! ### Resolutions and contexts -/

namespace Resolver

private theorem local_guarded {name : Name} {cache : CacheId} {counters : CountersId}
    {next : World → Except NotFound Artifact × World} (asks : World.Local thread next) :
    World.Local thread fun w =>
      if w.marker thread = some name then (.error ⟨name⟩, Tree.refuse counters name w)
      else
        match w.lookup cache name with
        | (some artifact, w) => (.ok artifact, w.count counters .cacheHits 1)
        | (.none, w) => next w := by
  intro w others
  have look : (w.amid thread others).lookup cache name =
      ((w.lookup cache name).1, (w.lookup cache name).2.amid thread others) :=
    World.local_lookup cache name w others
  simp only [World.amid_marker, look]
  split
  · rfl
  · rcases w.lookup cache name with ⟨_ | artifact, w'⟩
    · exact asks w' others
    · rfl

mutual

private theorem local_tree (name : Name) (tree : Tree) :
    World.Local thread fun w => tree.resolve thread name w := by
  match tree with
  | .linked units =>
    simp only [Tree.resolve]
    intro w others
    cases units.get? name <;> rfl
  | .chain links =>
    simp only [Tree.resolve]
    exact local_links name links
  | .guarded cache .none counters =>
    simp only [Tree.resolve]
    exact local_guarded fun _ _ => rfl
  | .guarded cache (some ancestor) counters =>
    simp only [Tree.resolve]
    exact local_guarded (local_tree name ancestor)

private theorem local_links (name : Name) (links : List Tree) :
    World.Local thread fun w => Tree.resolveLinks thread name links w := by
  match links with
  | [] =>
    simp only [Tree.resolveLinks]
    exact fun _ _ => rfl
  | first :: rest =>
    simp only [Tree.resolveLinks]
    intro w others
    simp only [local_tree name first w others]
    rcases first.resolve thread name w with ⟨missing | artifact, w'⟩
    · exact local_links name rest w' others
    · rfl

end

/-- A resolver asks for no marker but that of the thread that it answers. -/
theorem local_resolve (resolver : Resolver) (name : Name) :
    World.Local thread fun w => resolver.resolve thread name w := local_tree name resolver.tree

end Resolver

namespace MemoryContext

theorem local_instantiate (api : UInt16) (image : Bytes) (parent : Resolver) :
    World.Local thread fun w => instantiate api image parent w := by
  intro w others
  unfold instantiate
  split
  · rfl
  · split
    · rfl
    · split
      · rfl
      · simp only [retain, Resolver.retain, World.retainAll_eq]
        rfl

theorem local_load (context : MemoryContext) (name : Name) :
    World.Local thread fun w => context.load thread name w := by
  intro w others
  simp only [load, context.parent.local_resolve name w others]
  rcases context.parent.resolve thread name w with ⟨missing | artifact, w'⟩
  · simp only []
    split
    · have built : (w'.amid thread others).built = w'.built := rfl
      simp only [own, built]
      cases w'.built context.id <;> rfl
    · rfl
  · rfl

theorem local_close (context : MemoryContext) :
    World.LocalChange thread fun w => context.close w := by
  have dropped : World.LocalChange thread fun w : World =>
      { w with contexts := w.contexts.erase context.id } := fun _ _ => rfl
  have letGo : World.LocalChange thread context.letGo := by
    intro w others
    have contexts : (w.amid thread others).contexts = w.contexts := rfl
    have built : (w.amid thread others).built = w.built := rfl
    simp only [MemoryContext.letGo, contexts, built]
    split
    · rfl
    · cases w.built context.id <;> rfl
  exact (dropped.comp (World.local_releaseAll context.parent.artifacts)).comp letGo

end MemoryContext

/-! ### Programs -/

/-- A program whose steps neither look at the markers of other threads nor change them. -/
inductive Program.Local (thread : ThreadId) : Program (System ρ) α → Prop where
  | done (value : α) : Local thread (.done value)
  | step {ready : System ρ → Bool} {act : System ρ → System ρ} {next : System ρ → Program (System ρ) α}
      (waits : ∀ s others, ready (s.amid thread others) = ready s)
      (changes : ∀ s others, act (s.amid thread others) = (act s).amid thread others)
      (goes : ∀ s others, next (s.amid thread others) = next s)
      (rest : ∀ s, Local thread (next s)) : Local thread (.step ready act next)

namespace Program.Local

theorem bind {program : Program (System ρ) α} {f : α → Program (System ρ) β}
    (isLocal : program.Local thread) (rest : ∀ value, (f value).Local thread) :
    (program >>= f).Local thread := by
  induction isLocal with
  | done value => exact rest value
  | step waits changes goes _ ih =>
    exact .step waits changes (fun s others => congrArg (· >>= f) (goes s others)) ih

theorem onWorld {f : World → α × World} (isLocal : World.Local thread f)
    (next : α → Program (System ρ) β) (rest : ∀ value, (next value).Local thread) :
    Program.Local (ρ := ρ) thread (.step (fun _ => true)
      (fun s => { s with world := (f s.world).2 }) fun s => next (f s.world).1) := by
  refine .step (fun _ _ => rfl) (fun s others => ?_) (fun s others => ?_) fun s => rest _
  · exact congrArg (fun world => { s with world }) (congrArg Prod.snd (isLocal s.world others))
  · exact congrArg (fun answer => next answer.1) (isLocal s.world others)

theorem changing {f : World → World} (isLocal : World.LocalChange thread f)
    {program : Program (System ρ) α} (rest : program.Local thread) :
    (Call.changing f program).Local thread :=
  .step (fun _ _ => rfl) (fun s others => congrArg (fun world => { s with world })
    (isLocal s.world others)) (fun _ _ => rfl) fun _ => rest

/-- A local program gives the same value amid any markers of other threads, and leaves the same state
    amid those. -/
theorem run {program : Program (System ρ) α} (isLocal : program.Local thread) (s : System ρ)
    (others : ThreadId → Option Name) :
    program.run (s.amid thread others) =
      (program.run s).map fun end_ => (end_.1, end_.2.amid thread others) := by
  induction isLocal generalizing s with
  | done value => rfl
  | step waits changes goes _ ih =>
    simp only [Program.run, waits, changes, goes]
    split
    · exact ih s _
    · rfl

end Program.Local

/-! ### Definitions -/

/-- A definition whose callbacks are local to its thread. -/
structure Call.Local (call : Call ρ κ) : Prop where
  pack : (call.loader.packer.pack call.thread call.name call.raw).run.run.Local call.thread
  instantiate : ∀ image,
    (call.loader.host.instantiate call.thread image call.loader.resolver).run.run.Local call.thread
  load : ∀ context,
    (call.loader.host.load call.thread context call.name).run.run.Local call.thread
  close : ∀ context, World.LocalChange call.thread (call.loader.host.close context)

namespace Call

variable {call : Call ρ κ}

private theorem local_noting (notes : List Note) {program : Program (System ρ) α}
    (rest : program.Local thread) : (call.noting notes program).Local thread := by
  induction notes with
  | nil => exact rest
  | cons first others ih => exact .changing (World.local_note first _) ih

private theorem local_reporting (lock : Option LockId) (result : Result) :
    (call.reporting lock result).Local thread := by
  refine local_noting _ ?_
  cases lock with
  | none => exact .done _
  | some lock => exact .changing (fun _ _ => rfl) (.changing (fun _ _ => rfl) (.done _))

private theorem local_unmarking (lock : Option LockId) (result : Result) :
    (call.unmarking lock result).Local call.thread :=
  .changing World.local_unmark (local_reporting lock result)

private theorem local_closing (isLocal : call.Local) (context : κ) (lock : Option LockId)
    (result : Result) : (call.closing context (call.unmarking lock) result).Local call.thread :=
  .changing (isLocal.close context) (local_unmarking lock result)

private theorem local_loading (isLocal : call.Local) (context : κ) (lock : Option LockId) :
    (call.loading context (call.unmarking lock)).Local call.thread := by
  refine (isLocal.load context).bind fun loaded => ?_
  rcases loaded with panic | cause | _ | artifact
  · exact local_closing isLocal context lock _
  · exact local_closing isLocal context lock _
  · exact local_closing isLocal context lock _
  · exact .onWorld (World.local_publish call.loader.cache call.name artifact)
      (fun swept => call.closing context (call.unmarking lock) (.ok (.ok (artifact, swept))))
      fun swept => local_closing isLocal context lock _

private theorem local_packing (isLocal : call.Local) (lock : Option LockId) :
    (call.packing (call.unmarking lock)).Local call.thread := by
  refine isLocal.pack.bind fun packed => ?_
  rcases packed with panic | cause | image
  · exact local_unmarking lock _
  · exact local_unmarking lock _
  · refine (isLocal.instantiate image).bind fun instantiated => ?_
    rcases instantiated with panic | cause | context
    · exact local_unmarking lock _
    · exact local_unmarking lock _
    · exact local_loading isLocal context lock

private theorem local_marking (isLocal : call.Local) (lock : Option LockId) :
    (call.marking lock).Local call.thread := by
  have forgets : (call.forgetting (call.unmarking lock)).Local call.thread :=
    .onWorld (World.local_invalidate call.loader.cache call.name)
      (fun present => call.noting (call.forgetNotes present) (call.packing (call.unmarking lock)))
      fun present => local_noting _ (local_packing isLocal lock)
  let next (marked : Except Name Unit) : Program (System ρ) Ending :=
    marked.casesOn (fun running => call.reporting lock (.ok (.error (.inFlight running))))
      fun _ => call.forgetting (call.unmarking lock)
  have spelled : call.marking lock = .step (fun _ => true)
      (fun s => { s with world := (s.world.mark call.thread call.name).2 })
      fun s => next (s.world.mark call.thread call.name).1 := by
    refine congrArg (Program.step _ _) (funext fun s => ?_)
    cases (s.world.mark call.thread call.name).1 <;> rfl
  rw [spelled]
  refine Program.Local.onWorld (World.local_mark call.name) next fun marked => ?_
  cases marked with
  | error running => exact local_reporting lock _
  | ok _ => exact forgets

/-- A definition whose callbacks are local to its thread is local to it. -/
theorem Local.define (isLocal : call.Local) :
    (call.loader.define call.thread call.name call.raw).run.Local call.thread := by
  rw [call.define_eq_checking]
  have takes : call.taking.Local call.thread := by
    refine Program.Local.onWorld (World.local_lockFor _ _) call.waiting fun lock => ?_
    exact .step (fun _ _ => rfl) (fun _ _ => rfl) (fun _ _ => rfl)
      fun _ => local_marking isLocal (some lock)
  refine .step (fun _ _ => rfl) (fun _ _ => rfl) (fun s others => ?_) fun s => ?_
  · have same : (s.amid call.thread others).world.marker call.thread =
        s.world.marker call.thread := s.world.amid_marker others
    simp only [same]
  · cases s.world.marker call.thread with
    | some running => exact local_reporting none _
    | none =>
      simp only []
      split
      · exact takes
      · exact local_marking isLocal none

end Call

/-- Definitions in memory are local to their thread. -/
theorem Loader.local_call (loader : Loader Settings UInt16) (thread : ThreadId) (name : Name)
    (raw : Bytes) : (loader.call thread name raw : Call ρ MemoryContext).Local where
  pack := .done _
  instantiate image :=
    .onWorld (MemoryContext.local_instantiate loader.host image loader.resolver)
      (fun instantiated => .done (Except.ok instantiated)) fun _ => .done _
  load context := by
    refine Program.Local.bind (Program.Local.onWorld (context.local_load name)
      (fun loaded => .done (Except.ok loaded)) fun _ => .done _) fun loaded => ?_
    rcases loaded with panic | cause | artifact <;> exact .done _
  close context := context.local_close

/-! ### Operations of a thread -/

/-- What a thread may do, one after the other. -/
inductive ThreadOp (ρ κ : Type) where
  /-- Begins a scope. -/
  | enter (name : Name)
  /-- Drops its scope. -/
  | leave
  | current
  | define (loader : Loader (Packer ρ) (Host ρ κ)) (name : Name) (raw : Bytes)
  | resolve (resolver : Resolver) (name : Name)
  | lookup (cache : CacheId) (name : Name)
  | publish (cache : CacheId) (name : Name) (artifact : Artifact)
  | invalidate (cache : CacheId) (name : Name)
  | release (artifact : Artifact)

inductive ThreadAnswer where
  | entered (result : Except Name Unit)
  | done
  | current (running : Option Name)
  | defined (ending : Ending)
  | resolved (result : Except NotFound Artifact)
  | found (artifact : Option Artifact)
  | swept (count : Nat)
  | invalidated (present : Bool)

namespace ThreadOp

/-- A program of one step that answers. -/
def answering (f : World → α × World) (answer : α → ThreadAnswer) :
    Program (System ρ) ThreadAnswer :=
  .step (fun _ => true) (fun s => { s with world := (f s.world).2 }) fun s =>
    .done (answer (f s.world).1)

def perform (thread : ThreadId) : ThreadOp ρ κ → Program (System ρ) ThreadAnswer
  | enter name => answering (fun w => w.mark thread name) .entered
  | leave => answering (fun w => ((), w.unmark thread)) fun _ => .done
  | current => answering (fun w => (w.marker thread, w)) .current
  | define loader name raw => (loader.define thread name raw).run >>= fun ending =>
    .done (.defined ending)
  | resolve resolver name => answering (fun w => resolver.resolve thread name w) .resolved
  | lookup cache name => answering (fun w => w.lookup cache name) .found
  | publish cache name artifact => answering (fun w => w.publish cache name artifact) .swept
  | invalidate cache name => answering (fun w => w.invalidate cache name) .invalidated
  | release artifact => answering (fun w => ((), w.release artifact)) fun _ => .done

/-- The answers to operations, in their order. -/
def performAll (thread : ThreadId) (ops : List (ThreadOp ρ κ)) :
    Program (System ρ) (List ThreadAnswer) :=
  ops.mapM (perform thread)

/-- The callbacks of definitions are local to the thread. -/
def Local (thread : ThreadId) : ThreadOp ρ κ → Prop
  | define loader name raw => (⟨loader, thread, name, raw⟩ : Call ρ κ).Local
  | _ => True

private theorem local_answering {f : World → α × World} (isLocal : World.Local thread f)
    (answer : α → ThreadAnswer) : (answering (ρ := ρ) f answer).Local thread :=
  Program.Local.onWorld isLocal (fun value => .done (answer value)) fun _ => .done _

theorem local_perform {op : ThreadOp ρ κ} (isLocal : op.Local thread) :
    (op.perform thread).Local thread := by
  cases op with
  | enter name => exact local_answering (World.local_mark name) _
  | leave => exact local_answering World.local_unmark.toLocal fun _ => .done
  | current => exact local_answering World.local_marker _
  | define loader name raw => exact (Call.Local.define isLocal).bind fun _ => .done _
  | resolve resolver name => exact local_answering (resolver.local_resolve name) _
  | lookup cache name => exact local_answering (World.local_lookup cache name) _
  | publish cache name artifact => exact local_answering (World.local_publish cache name artifact) _
  | invalidate cache name => exact local_answering (World.local_invalidate cache name) _
  | release artifact =>
    have releases : World.LocalChange thread fun w => w.release artifact := fun _ _ => rfl
    exact local_answering releases.toLocal fun _ => .done

theorem local_performAll {ops : List (ThreadOp ρ κ)} (isLocal : ∀ op ∈ ops, op.Local thread) :
    (performAll thread ops).Local thread := by
  unfold performAll
  induction ops with
  | nil =>
    rw [List.mapM_nil]
    exact .done _
  | cons first rest ih =>
    rw [List.forall_mem_cons] at isLocal
    rw [List.mapM_cons]
    exact (local_perform isLocal.1).bind fun _ => (ih isLocal.2).bind fun _ => .done _

end ThreadOp

end Reload
