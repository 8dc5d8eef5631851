import Reload.Proofs.Concurrent.Hooked
import Reload.Proofs.Definition.Working
import Reload.Proofs.FirstHit

/-!
What happens besides definitions does not depend on definition locks. A program is lockless if each of
its steps does the same under any locks, and leaves them alone. If the callbacks of a definition are
lockless, then past its lock the definition takes the same steps under any locks, with or without one of
its own, and with any settings (`Call.Lockless.stage`).
-/

namespace Reload

variable {ρ κ α β : Type}

/-- The definition locks: those of each set, who holds them, and the handles to them. -/
structure LockState where
  locks : LockSetId → Table Name LockId := fun _ => .empty
  nextLock : Nat := 0
  lock : LockId → Lock := fun _ => {}
  handles : List LockId := []

namespace World

def lockState (w : World) : LockState := ⟨w.locks, w.nextLock, w.lock, w.handles⟩

/-- The state under other locks. -/
def under (w : World) (locks : LockState) : World :=
  { w with
    locks := locks.locks
    nextLock := locks.nextLock
    lock := locks.lock
    handles := locks.handles }

/-- A step that neither looks at locks nor changes them. -/
def Lockless (f : World → α × World) : Prop :=
  ∀ w locks, f (w.under locks) = ((f w).1, (f w).2.under locks)

/-- A change that neither looks at locks nor changes them. -/
def LocklessChange (f : World → World) : Prop :=
  ∀ w locks, f (w.under locks) = (f w).under locks

end World

def System.under (s : System ρ) (locks : LockState) : System ρ :=
  { s with world := s.world.under locks }

/-! ### Single steps -/

namespace World

/-- Asking for a lock changes nothing besides locks. -/
theorem under_lockFor (w : World) (set : LockSetId) (name : Name) (locks : LockState) :
    (w.lockFor set name).2.under locks = w.under locks := by
  rw [lockFor_eq]
  rfl

theorem lockless_mark (thread : ThreadId) (name : Name) : Lockless fun w => w.mark thread name := by
  intro w locks
  have same : (w.under locks).marker = w.marker := rfl
  simp only [mark, same]
  cases w.marker thread <;> rfl

theorem lockless_note (note : Note) (counters : CountersId) :
    LocklessChange (note.apply counters) := by
  intro w locks
  cases note <;> rfl

theorem lockless_releaseAll (artifacts : List Artifact) :
    LocklessChange fun w => w.releaseAll artifacts := by
  induction artifacts with
  | nil => exact fun _ _ => rfl
  | cons first rest ih => exact fun w locks => ih (w.release first) locks

end World

private theorem Source.lockless_ask (source : Source) (name : Name) :
    World.Lockless fun w => source.ask name w := by
  intro w locks
  have same : source.hit? name (w.under locks) = source.hit? name w := by cases source <;> rfl
  cases hit : source.hit? name w with
  | some artifact =>
    simp only [ask_of_hit (same.trans hit), ask_of_hit hit]
    cases source.hitCounters? <;> rfl
  | none =>
    simp only [ask_of_miss (same.trans hit), ask_of_miss hit]
    cases source.refusalCounters? <;> rfl

/-- Resolvers answer alike under any locks. -/
theorem Resolver.lockless_resolve (resolver : Resolver) (thread : ThreadId) (name : Name) :
    World.Lockless fun w => resolver.resolve thread name w := by
  intro w locks
  have same : (w.under locks).marker = w.marker := rfl
  simp only [resolve, Tree.resolve_eq_askAll, same]
  induction resolver.tree.sources (decide (w.marker thread = some name)) generalizing w with
  | nil => rfl
  | cons source rest ih =>
    simp only [Source.askAll, source.lockless_ask name w locks]
    rcases source.ask name w with ⟨_ | artifact, w'⟩
    · exact ih w' rfl
    · rfl

namespace MemoryContext

theorem lockless_instantiate (api : UInt16) (image : Bytes) (parent : Resolver) :
    World.Lockless fun w => instantiate api image parent w := by
  intro w locks
  unfold instantiate
  split
  · rfl
  · split
    · rfl
    · split
      · rfl
      · simp only [retain, Resolver.retain, World.retainAll_eq]
        rfl

theorem lockless_load (context : MemoryContext) (thread : ThreadId) (name : Name) :
    World.Lockless fun w => context.load thread name w := by
  intro w locks
  simp only [load, context.parent.lockless_resolve thread name w locks]
  rcases context.parent.resolve thread name w with ⟨missing | artifact, w'⟩
  · simp only []
    split
    · have built : (w'.under locks).built = w'.built := rfl
      simp only [own, built]
      cases w'.built context.id <;> rfl
    · rfl
  · rfl

theorem lockless_close (context : MemoryContext) : World.LocklessChange context.close := by
  have letGo : World.LocklessChange context.letGo := by
    intro w locks
    have contexts : (w.under locks).contexts = w.contexts := rfl
    have built : (w.under locks).built = w.built := rfl
    simp only [MemoryContext.letGo, contexts, built]
    split
    · rfl
    · cases w.built context.id <;> rfl
  intro w locks
  have dropped := World.lockless_releaseAll context.parent.artifacts
    { w with contexts := w.contexts.erase context.id } locks
  exact (congrArg context.letGo dropped).trans (letGo _ locks)

end MemoryContext

/-! ### Programs -/

/-- A program whose steps neither look at locks nor change them. -/
inductive Program.Lockless : {α : Type} → Program (System ρ) α → Prop where
  | done {α : Type} (value : α) : Lockless (.done value)
  | step {α : Type} {ready : System ρ → Bool} {act : System ρ → System ρ}
      {next : System ρ → Program (System ρ) α} (waits : ∀ s locks, ready (s.under locks) = ready s)
      (changes : ∀ s locks, act (s.under locks) = (act s).under locks)
      (goes : ∀ s locks, next (s.under locks) = next s) (rest : ∀ s, Lockless (next s)) :
      Lockless (.step ready act next)

/-- A turn that neither looks at locks nor changes them. -/
structure Turn.Lockless {π : Type} (turn : Turn (System ρ) π) : Prop where
  waits : ∀ s locks, turn.ready (s.under locks) = turn.ready s
  changes : ∀ s locks, turn.act (s.under locks) = (turn.act s).under locks
  goes : ∀ s locks, turn.next (s.under locks) = turn.next s

namespace Program.Lockless

theorem turn {turn : Turn (System ρ) (Program (System ρ) α)} (lockless : turn.program.Lockless) :
    turn.Lockless ∧ ∀ s, (turn.next s).Lockless := by
  cases lockless with
  | step waits changes goes rest => exact ⟨⟨waits, changes, goes⟩, rest⟩

theorem lasting : Program.Lasting (ρ := ρ) Program.Lockless :=
  fun lockless => lockless.turn.2

theorem onWorld {f : World → α × World} (lockless : World.Lockless f)
    (next : α → Program (System ρ) β) (rest : ∀ value, (next value).Lockless) :
    Program.Lockless (ρ := ρ) (.step (fun _ => true)
      (fun s => { s with world := (f s.world).2 }) fun s => next (f s.world).1) := by
  refine .step (fun _ _ => rfl) (fun s locks => ?_) (fun s locks => ?_) fun s => rest _
  · exact congrArg (fun world => { s with world }) (congrArg Prod.snd (lockless s.world locks))
  · exact congrArg (fun answer => next answer.1) (lockless s.world locks)

end Program.Lockless

/-! ### Definitions -/

/-- The loader with other settings. -/
def Loader.configured {τ η : Type} (settings : Settings) (loader : Loader τ η) : Loader τ η :=
  { loader with settings }

def Call.configured (settings : Settings) (call : Call ρ κ) : Call ρ κ :=
  { call with loader := call.loader.configured settings }

/-- A definition whose callbacks neither look at locks nor change them. -/
structure Call.Lockless (call : Call ρ κ) : Prop extends call.Runs Program.Lockless where
  close : ∀ context, World.LocklessChange (call.loader.host.close context)

/-- The places of two definitions past the locks of which nothing but these locks differs. -/
inductive Place.Beside (lock lock' : Option LockId) : Place ρ κ → Place ρ κ → Prop where
  | inside (stage : Stage ρ κ) : Beside lock lock' (.inside lock stage) (.inside lock' stage)
  | leaving (ending : Ending) :
    Beside lock lock' (Call.atLeaving ending lock) (Call.atLeaving ending lock')

/-- A turn, and one under other locks that does the same past another lock. -/
structure Turn.Beside (lock lock' : Option LockId) (turn turn' : Turn (System ρ) (Place ρ κ)) :
    Prop where
  waits : ∀ s locks, turn'.ready (s.under locks) = turn.ready s
  changes : ∀ s locks, turn'.act (s.under locks) = (turn.act s).under locks
  goes : ∀ s locks, (turn.next s).Beside lock lock' (turn'.next (s.under locks))

namespace Call

variable {call : Call ρ κ} {lock lock' : Option LockId}

private theorem beside_atReporting (ending : Ending) (notes : List Note) :
    Place.Beside (ρ := ρ) (κ := κ) lock lock' (atReporting lock ending notes)
      (atReporting lock' ending notes) := by
  cases notes with
  | nil => exact .leaving ending
  | cons first others => exact .inside _

private theorem beside_of_works {places : Option LockId → Place ρ κ} (works : Place.Works places) :
    (places lock).Beside lock lock' (places lock') := by
  obtain ⟨stage, -, inside⟩ := works
  rw [inside, inside]
  exact .inside stage

private theorem beside_atNoting (call : Call ρ κ) (notes : List Note) :
    (call.atNoting lock notes).Beside lock lock' (call.atNoting lock' notes) := by
  cases notes with
  | nil => exact beside_of_works (call.works_atPacking _)
  | cons first others => exact .inside _

private theorem beside_mark (call : Call ρ κ) (settings : Settings) :
    (call.advanceStage lock .mark).Beside lock lock'
      ((call.configured settings).advanceStage lock' .mark) where
  waits _ _ := rfl
  changes s locks := congrArg (fun marked => { s with world := marked.2 })
    (World.lockless_mark call.thread call.name s.world locks)
  goes s locks := by
    have same := congrArg Prod.fst (World.lockless_mark call.thread call.name s.world locks)
    simp only [advanceStage]
    rw [show ((s.under locks).world.mark (call.configured settings).thread
      (call.configured settings).name).1 = (s.world.mark call.thread call.name).1 from same]
    cases (s.world.mark call.thread call.name).1 with
    | error running => exact beside_atReporting _ _
    | ok => exact .inside _

/-- A definition takes the same step past any lock, or past none, under any locks, and with any
    settings. -/
theorem Lockless.stage (lockless : call.Lockless) {stage : Stage ρ κ}
    (here : (Place.inside lock stage).Runs Program.Lockless) (lock' : Option LockId)
    (settings : Settings) :
    (call.advanceStage lock stage).Beside lock lock'
      ((call.configured settings).advanceStage lock' stage) := by
  -- A callback asks neither for the settings nor for the lock.
  have callback {α : Type} {turn : Turn (System ρ) (Program (System ρ) α)}
      (left : turn.program.Lockless) {places : Option LockId → Program (System ρ) α → Place ρ κ}
      (works : ∀ program, Place.Works fun lock => places lock program) :
      Turn.Beside lock lock' ⟨turn.ready, turn.act, fun s => places lock (turn.next s)⟩
        ⟨turn.ready, turn.act, fun s => places lock' (turn.next s)⟩ := by
    refine ⟨left.turn.1.waits, left.turn.1.changes, fun s locks => ?_⟩
    simp only [left.turn.1.goes s locks]
    exact beside_of_works (works _)
  cases stage with
  | mark => exact call.beside_mark settings
  | forget => exact ⟨fun _ _ => rfl, fun _ _ => rfl, fun _ _ => call.beside_atNoting _⟩
  | note first others =>
    exact ⟨fun _ _ => rfl, fun s locks => congrArg (fun world => { s with world })
      (World.lockless_note first _ s.world locks), fun _ _ => call.beside_atNoting others⟩
  | pack turn => exact callback here call.works_atPacking
  | instantiate turn => exact callback here call.works_atInstantiating
  | load context turn => exact callback here (works_atLoading context)
  | publish context artifact => exact ⟨fun _ _ => rfl, fun _ _ => rfl, fun _ _ => .inside _⟩
  | close context result =>
    exact ⟨fun _ _ => rfl, fun s locks => congrArg (fun world => { s with world })
      (lockless.close context s.world locks), fun _ _ => .inside _⟩
  | unmark result => exact ⟨fun _ _ => rfl, fun _ _ => rfl, fun _ _ => beside_atReporting _ _⟩
  | report first others ending =>
    exact ⟨fun _ _ => rfl, fun s locks => congrArg (fun world => { s with world })
      (World.lockless_note first _ s.world locks), fun _ _ => beside_atReporting ending others⟩

end Call

/-- Definitions in memory do not ask for locks besides their own. -/
theorem Loader.lockless_call (loader : Loader Settings UInt16) (thread : ThreadId) (name : Name)
    (raw : Bytes) : (loader.call thread name raw : Call ρ MemoryContext).Lockless where
  pack := .done _
  instantiate image := .onWorld (MemoryContext.lockless_instantiate loader.host image loader.resolver)
    _ fun _ => .done _
  load context := by
    refine Eq.mpr (congrArg Program.Lockless
      (MemoryContext.host_load loader.host context thread name)) ?_
    exact .onWorld (context.lockless_load thread name)
      (fun loaded => .done (Except.ok (loaded.map some))) fun _ => .done _
  close context := context.lockless_close

end Reload
