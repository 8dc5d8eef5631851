import Reload.Proofs.Concurrent.Course
import Reload.Proofs.Dealing

/-!
How long artifacts live. While a definition in memory goes on, it has references of its own, and every
step that it takes is a deal with them (`Call.deals_advance`); when it ends, its caller gets what it has
loaded. So the references that programs have, and those of definitions under way, are always all that
there are (`Pool.Course.balanced`).
-/

namespace Reload

variable {ρ : Type}

/-! ### What definitions have -/

namespace Place

/-- The references that a definition in memory has on its way: to its context, and to what it has
    loaded. -/
def keeps : Place ρ MemoryContext → Multiset Ref
  | .inside _ (.load context _) => {.context context}
  | .inside _ (.publish context artifact) => .context context ::ₘ {.artifact artifact}
  | .inside _ (.close context result) => .context context ::ₘ Ref.given (Result.artifact? result)
  | .ended _ => 0
  | place => Ref.given place.artifact?

/-- What the caller of a definition gets. -/
def gives : Place ρ MemoryContext → Multiset Ref
  | .ended ending => Ref.given (Ending.artifact? ending)
  | _ => 0

/-- Whether the next step is one of the packer. -/
def packs : Place ρ MemoryContext → Bool
  | .inside _ (.pack _) => true
  | _ => false

/-- What the next step of a definition writes. -/
def written (call : Call ρ MemoryContext) : Place ρ MemoryContext → List Write
  | .inside _ .forget => [.invalidate call.loader.cache call.name]
  | .inside _ (.publish _ _) => [.publish call.loader.cache]
  | _ => []

/-- In a callback of its host, a definition does what hosts in memory do. -/
def Hosted (call : Call ρ MemoryContext) : Place ρ MemoryContext → Prop
  | .inside _ (.instantiate turn) =>
    ∃ api image, turn = MemoryContext.makes api image call.loader.resolver
  | .inside _ (.load context turn) => turn = context.loads call.thread call.name
  | _ => True

/-- A place that a definition comes to with these references. -/
structure Comes (call : Call ρ MemoryContext) (refs : Multiset Ref)
    (place : Place ρ MemoryContext) : Prop where
  has : place.keeps + place.gives = refs
  hosted : place.Hosted call

end Place

namespace Call

variable (call : Call ρ MemoryContext)

/-- What a step does with references: it is one of the packer, and the definition gets nothing from
    that, or it is a deal with the references that the definition has. -/
structure Deals (place next : Place ρ MemoryContext) (w w' : World) : Prop where
  hosted : next.Hosted call
  packs : place.packs → next.keeps = place.keeps
  deal : place.packs = false → ∀ {refs : Multiset Ref} {writes : List Write},
    Holding refs call.loader.resolver.artifacts →
    Deal ⟨place.keeps + refs, writes⟩ w
      ⟨next.keeps + next.gives + refs, place.written call ++ writes⟩ w'

variable {call} {lock : Option LockId}

/-! #### Where a definition comes to -/

private theorem comes_atReporting (ending : Ending) (notes : List Note) :
    (atReporting lock ending notes).Comes call (Ref.given ending.artifact?) := by
  cases notes with
  | nil =>
    cases lock with
    | none => exact ⟨zero_add _, trivial⟩
    | some lock => exact ⟨add_zero _, trivial⟩
  | cons first others => exact ⟨add_zero _, trivial⟩

private theorem comes_atReport (result : Result) :
    (call.atReport lock result).Comes call (Ref.given result.artifact?) := by
  rw [← Result.artifact?_ending call.name]
  exact comes_atReporting _ _

private theorem comes_atLoaded (context : MemoryContext) (loaded : Except Failure Artifact) :
    (atLoaded lock context (.ok (loaded.map some))).Comes call
      (.context context ::ₘ Ref.given loaded.toOption) := by
  cases loaded with
  | error cause => exact ⟨add_zero _, trivial⟩
  | ok artifact => exact ⟨add_zero _, trivial⟩

private theorem comes_atInstantiated (memory : call.InMemoryHost)
    (instantiated : Except Failure MemoryContext) :
    (call.atInstantiated lock (.ok instantiated)).Comes call (Ref.made instantiated.toOption) := by
  cases instantiated with
  | error cause => exact ⟨add_zero _, trivial⟩
  | ok context =>
    obtain ⟨api, host⟩ := memory
    have loads := MemoryContext.host_load (ρ := ρ) api context call.thread call.name
    rw [← host] at loads
    simp only [atInstantiated, loads]
    exact ⟨add_zero _, rfl⟩

private theorem comes_atPacked (memory : call.InMemoryHost)
    (packed : Except Panic (Except Failure Bytes)) :
    (call.atPacked lock packed).Comes call 0 := by
  rcases packed with panic | cause | image
  · exact ⟨add_zero _, trivial⟩
  · exact ⟨add_zero _, trivial⟩
  · obtain ⟨api, host⟩ := memory
    simp only [atPacked, host]
    exact ⟨add_zero _, api, image, rfl⟩

private theorem comes_atPacking (memory : call.InMemoryHost)
    (program : Program (System ρ) (Except Panic (Except Failure Bytes))) :
    (call.atPacking lock program).Comes call 0 := by
  cases program with
  | done packed => exact comes_atPacked memory packed
  | step ready act next => exact ⟨add_zero _, trivial⟩

private theorem comes_atNoting (memory : call.InMemoryHost) (notes : List Note) :
    (call.atNoting lock notes).Comes call 0 := by
  cases notes with
  | nil => exact comes_atPacking memory _
  | cons first others => exact ⟨add_zero _, trivial⟩

/-! #### What a step is -/

variable {place next : Place ρ MemoryContext} {w w' : World}

/-- What a step of a definition in memory is, and what the definition has afterwards. -/
inductive Moves (call : Call ρ MemoryContext) (place next : Place ρ MemoryContext) (w w' : World) :
    Prop where
  /-- One of the packer. -/
  | packs (packs : place.packs) (comes : next.Comes call 0)
  | forgets {lock : Option LockId} (here : place = .inside lock .forget)
      (change : w' = (w.invalidate call.loader.cache call.name).2) (comes : next.Comes call 0)
  | opens {lock : Option LockId} {api : UInt16} {image : Bytes}
      (here : place = .inside lock
        (.instantiate (MemoryContext.makes api image call.loader.resolver)))
      (change : w' = (MemoryContext.instantiate api image call.loader.resolver w).2)
      (comes : next.Comes call
        (Ref.made (MemoryContext.instantiate api image call.loader.resolver w).1.toOption))
  | loads {lock : Option LockId} {context : MemoryContext}
      (here : place = .inside lock (.load context (context.loads call.thread call.name)))
      (change : w' = (context.load call.thread call.name w).2)
      (comes : next.Comes call (.context context ::ₘ
        Ref.given (context.load call.thread call.name w).1.toOption))
  | publishes {lock : Option LockId} {context : MemoryContext} {artifact : Artifact}
      (here : place = .inside lock (.publish context artifact))
      (change : w' = (w.publish call.loader.cache call.name artifact).2)
      (comes : next.Comes call place.keeps)
  | closes {lock : Option LockId} {context : MemoryContext} {result : Result}
      (here : place = .inside lock (.close context result)) (change : w' = context.close w)
      (comes : next.Comes call (Ref.given (Result.artifact? result)))
  /-- One that has to do with neither references nor entries. -/
  | aside (own : place.packs = false) (written : place.written call = [])
      (frame : w' = { w with
        nextThread := w'.nextThread
        marker := w'.marker
        nextCache := w'.nextCache
        locks := w'.locks
        nextLock := w'.nextLock
        lock := w'.lock
        handles := w'.handles
        nextCounters := w'.nextCounters
        counters := w'.counters
        journal := w'.journal }) (comes : next.Comes call place.keeps)

private theorem moves_stage (memory : call.InMemoryHost) (lock : Option LockId)
    (stage : Stage ρ MemoryContext) (hosted : (Place.inside lock stage).Hosted call)
    (s : System ρ) :
    call.Moves (.inside lock stage) ((call.advanceStage lock stage).next s) s.world
      ((call.advanceStage lock stage).act s).world := by
  cases stage with
  | mark =>
    simp only [advanceStage, World.mark]
    cases s.world.marker call.thread with
    | none => exact .aside rfl rfl rfl ⟨add_zero _, trivial⟩
    | some running => exact .aside rfl rfl rfl (comes_atReport (.ok (.error (.inFlight running))))
  | forget => exact .forgets rfl rfl (comes_atNoting memory _)
  | note first others =>
    exact .aside rfl rfl (by cases first <;> rfl) (comes_atNoting memory others)
  | pack turn => exact .packs rfl (comes_atPacking memory _)
  | instantiate turn =>
    obtain ⟨api, image, rfl⟩ := hosted
    exact .opens rfl rfl (comes_atInstantiated memory _)
  | load context turn =>
    obtain rfl := hosted
    exact .loads rfl rfl (comes_atLoaded context _)
  | publish context artifact => exact .publishes rfl rfl ⟨add_zero _, trivial⟩
  | close context result =>
    obtain ⟨api, host⟩ := memory
    refine .closes rfl ?_ ⟨add_zero _, trivial⟩
    simp only [advanceStage, Turn.change, host]
    rfl
  | unmark result => exact .aside rfl rfl rfl (comes_atReport result)
  | report first others ending =>
    exact .aside rfl rfl (by cases first <;> rfl) (comes_atReporting ending others)

theorem moves_advance (memory : call.InMemoryHost) (hosted : place.Hosted call)
    {turn : Turn (System ρ) (Place ρ MemoryContext)} (advances : call.advance place = some turn)
    (s : System ρ) : call.Moves place (turn.next s) s.world (turn.act s).world := by
  cases place with
  | check =>
    cases advances
    refine .aside rfl rfl rfl ?_
    simp only []
    split
    · next running _ => exact comes_atReport (.ok (.error (.inFlight running)))
    · split <;> exact ⟨add_zero _, trivial⟩
  | take =>
    cases advances
    refine .aside rfl rfl ?_ ⟨add_zero _, trivial⟩
    simp only []
    rw [World.lockFor_eq]
  | wait lock => cases advances; exact .aside rfl rfl rfl ⟨add_zero _, trivial⟩
  | inside lock stage => cases advances; exact moves_stage memory lock stage hosted s
  | unlock lock ending => cases advances; exact .aside rfl rfl rfl ⟨add_zero _, trivial⟩
  | drop lock ending => cases advances; exact .aside rfl rfl rfl ⟨zero_add _, trivial⟩
  | ended ending => cases advances

/-! #### Steps are deals -/

/-- A step of the definition itself. -/
private theorem Deals.own {refs : Multiset Ref} (comes : next.Comes call refs)
    (own : place.packs = false)
    (deal : ∀ {more : Multiset Ref} {writes : List Write},
      Holding more call.loader.resolver.artifacts →
      Deal ⟨place.keeps + more, writes⟩ w ⟨refs + more, place.written call ++ writes⟩ w') :
    call.Deals place next w w' := by
  refine ⟨comes.hosted, fun packs => ?_, fun _ => ?_⟩
  · rw [own] at packs
    cases packs
  · rw [comes.has]
    exact deal

/-- A definition that comes from its packer has what it had before: nothing. -/
private theorem keeps_of_packs (packs : place.packs) : place.keeps = 0 := by
  cases place with
  | inside lock stage => cases stage <;> first | rfl | cases packs
  | check | take | wait | unlock | drop | ended => cases packs

private theorem deals_of_moves (moves : call.Moves place next w w') : call.Deals place next w w' := by
  cases moves with
  | packs packs comes =>
    refine ⟨comes.hosted, fun _ => ?_, fun own => ?_⟩
    · rw [keeps_of_packs packs]
      exact Multiset.le_zero.mp (comes.has ▸ Multiset.le_add_right ..)
    · rw [packs] at own
      cases own
  | forgets here change comes =>
    subst here change
    exact .own comes rfl fun _ => .invalidate call.loader.cache call.name
  | @opens lock api image here change comes =>
    subst here change
    refine .own comes rfl fun lent => ?_
    rw [show (Place.inside lock _ : Place ρ MemoryContext).keeps = 0 from rfl, zero_add]
    exact .instantiate api image call.loader.resolver lent
  | @loads lock context here change comes =>
    subst here change
    refine .own comes rfl fun {more} {writes} _ => ?_
    have deal : Deal ⟨.context context ::ₘ more, writes⟩ w _ _ :=
      .load (Multiset.mem_cons_self ..) call.thread call.name
    rw [Multiset.cons_add, ← Multiset.add_cons]
    exact deal
  | @publishes lock context artifact here change comes =>
    subst here change
    refine .own comes rfl fun _ => ?_
    refine .publish call.loader.cache call.name fun one listed => ?_
    obtain rfl := List.mem_singleton.mp listed
    exact ⟨.artifact one, by simp [Place.keeps], List.mem_singleton_self one⟩
  | @closes lock context result here change comes =>
    subst here change
    refine .own comes rfl fun {more} {writes} _ => ?_
    rw [show (Place.inside lock (.close context result) : Place ρ MemoryContext).keeps =
      .context context ::ₘ Ref.given (Result.artifact? result) from rfl, Multiset.cons_add]
    exact .drop (.context context)
  | aside own written frame comes =>
    refine .own comes own fun _ => ?_
    rw [written]
    exact .aside frame

/-- Every step of a definition is a deal with what it has, but for those of its packer. -/
theorem deals_advance (memory : call.InMemoryHost) (hosted : place.Hosted call)
    {turn : Turn (System ρ) (Place ρ MemoryContext)} (advances : call.advance place = some turn)
    (s : System ρ) : call.Deals place (turn.next s) s.world (turn.act s).world :=
  deals_of_moves (moves_advance memory hosted advances s)

end Call

/-- Definitions in memory may begin at any time, and anything else may happen. -/
def Rules.inMemory : Rules ρ MemoryContext := ⟨fun call _ => call.InMemoryHost, fun _ _ => True⟩

namespace Pool

variable {pool pool' : Pool ρ MemoryContext} {ledger ledger' : Ledger}
  {move : Option (Move ρ MemoryContext)}

/-! ### The ledger of a pool -/

/-- Loaders are lent to the definitions under way: what their resolvers hold stays held. -/
def Lent (pool : Pool ρ MemoryContext) (refs : Multiset Ref) : Prop :=
  ∀ index running, pool.calls index = some running →
    (∀ ending, running.place ≠ .ended ending) →
    Holding refs running.call.loader.resolver.artifacts

/-- What the definition at an index gives to its caller. -/
def gives (pool : Pool ρ MemoryContext) (index : Nat) : Multiset Ref :=
  ((pool.calls index).map fun running => running.place.gives).getD 0

/-- How a ledger is kept. What is done outside of definitions, and by packers, are deals. The steps of
    definitions give their callers what they have loaded, and their writes are noted. -/
inductive Account (pool : Pool ρ MemoryContext) (ledger : Ledger) :
    Option (Move ρ MemoryContext) → Pool ρ MemoryContext → Ledger → Prop where
  | deal {move : Option (Move ρ MemoryContext)} {pool' : Pool ρ MemoryContext} {ledger' : Ledger}
      (free : ∀ own, move = some own → own.running.place.packs)
      (deal : Deal ledger pool.world ledger' pool'.world) (lent : pool'.Lent ledger'.refs) :
      Account pool ledger move pool' ledger'
  | own {move : Move ρ MemoryContext} {pool' : Pool ρ MemoryContext}
      (own : move.running.place.packs = false) :
      Account pool ledger (some move) pool'
        ⟨pool'.gives move.index + ledger.refs,
          move.running.place.written move.running.call ++ ledger.writes⟩

/-- The references that the definitions at these indices have. -/
def keeps (indices : Finset Nat) (pool : Pool ρ MemoryContext) : Multiset Ref :=
  pool.total (fun running => running.place.keeps) indices

/-- The references of a ledger and those that definitions have are all that there are. -/
structure Balanced (pool : Pool ρ MemoryContext) (ledger : Ledger) : Prop where
  counts : ∀ indices, pool.Covers indices → ledger.Counts (pool.keeps indices) pool.world
  covered : ∃ indices, pool.Covers indices
  lent : pool.Lent ledger.refs
  hosted : ∀ index running, pool.calls index = some running →
    running.call.InMemoryHost ∧ running.place.Hosted running.call

/-! #### One step -/

/-- A deal with the references of the ledger, in which definitions get nothing. -/
private theorem Balanced.deal (balanced : pool.Balanced ledger)
    (deal : Deal ledger pool.world ledger' pool'.world)
    (covers : ∀ indices, pool'.Covers indices →
      pool.Covers indices ∧ pool'.keeps indices = pool.keeps indices)
    (covered : ∃ indices, pool'.Covers indices) (lent : pool'.Lent ledger'.refs)
    (hosted : ∀ index running, pool'.calls index = some running →
      running.call.InMemoryHost ∧ running.place.Hosted running.call) :
    pool'.Balanced ledger' ∧ ledger.Succeeds pool.world ledger' pool'.world := by
  refine ⟨⟨fun indices covers' => ?_, covered, lent, hosted⟩, ?_⟩
  · obtain ⟨before, same⟩ := covers indices covers'
    rw [same]
    exact (deal.passed (balanced.counts indices before)).counts
  · obtain ⟨indices, before⟩ := balanced.covered
    exact (deal.passed (balanced.counts indices before)).succeeds

/-- A step in which a definition deals with what it has. -/
private theorem Balanced.own (balanced : pool.Balanced ledger) {index : Nat}
    {running : Running ρ MemoryContext} (here : pool.calls index = some running)
    (goesOn : ∀ ending, running.place ≠ .ended ending) {place : Place ρ MemoryContext}
    {system : System ρ}
    (deals : running.call.Deals running.place place pool.world system.world)
    (own : running.place.packs = false) :
    (pool.put index { running with place } system).Balanced
        ⟨place.gives + ledger.refs, running.place.written running.call ++ ledger.writes⟩ ∧
      ledger.Succeeds pool.world
        ⟨place.gives + ledger.refs, running.place.written running.call ++ ledger.writes⟩
        system.world := by
  have lent := balanced.lent index running here goesOn
  -- What the others have is beside what the definition deals with.
  have passed (indices : Finset Nat) (listed : index ∈ indices) (covers : pool.Covers indices) :
      ∃ others, (pool.put index { running with place } system).keeps indices =
          others + place.keeps ∧
        Ledger.Passed ⟨running.place.keeps + ledger.refs, ledger.writes⟩ others pool.world
          ⟨place.keeps + place.gives + ledger.refs,
            running.place.written running.call ++ ledger.writes⟩ system.world := by
    obtain ⟨others, before, after⟩ :=
      pool.total_split (fun running => running.place.keeps) listed here
    refine ⟨others, after _ _, (deals.deal own lent).passed ?_⟩
    refine (balanced.counts indices covers).regroup ?_
    rw [keeps, before]
    show running.place.keeps + ledger.refs + others = ledger.refs + (others + running.place.keeps)
    ac_rfl
  obtain ⟨indices, covers⟩ := balanced.covered
  refine ⟨⟨fun all coversAll => ?_, ⟨_, covers.put _ _ _⟩, ?_, ?_⟩, ?_⟩
  · obtain ⟨listed, coversBefore⟩ := coversAll.of_put
    obtain ⟨others, after, passed⟩ := passed all listed coversBefore
    refine passed.counts.regroup ?_
    rw [after]
    show place.gives + ledger.refs + (others + place.keeps) =
      place.keeps + place.gives + ledger.refs + others
    ac_rfl
  · intro other found there still
    have held : Holding ledger.refs found.call.loader.resolver.artifacts := by
      rcases calls_put there with ⟨-, rfl⟩ | ⟨-, before⟩
      · exact lent
      · exact balanced.lent other found before still
    rw [add_comm]
    exact held.add _
  · intro other found there
    rcases calls_put there with ⟨-, rfl⟩ | ⟨-, before⟩
    · exact ⟨(balanced.hosted index running here).1, deals.hosted⟩
    · exact balanced.hosted other found before
  · obtain ⟨-, -, -, succeeds⟩ := passed indices (covers index (by rw [here]; rfl)) covers
    exact ⟨succeeds.buries, succeeds.fades⟩

private theorem balanced_step (balanced : pool.Balanced ledger)
    (next : Step Rules.inMemory pool move pool') (account : pool.Account ledger move pool' ledger') :
    pool'.Balanced ledger' ∧ ledger.Succeeds pool.world ledger' pool'.world := by
  have covered := next.covered balanced.covered
  cases next with
  | begin unused allowed =>
    cases account with
    | deal free deal lent =>
      refine balanced.deal deal (fun indices covers => ?_) covered lent fun other found there => ?_
      · obtain ⟨listed, before⟩ := covers.of_put
        exact ⟨before, (total_begin listed unused).trans (add_zero _)⟩
      · rcases calls_put there with ⟨-, rfl⟩ | ⟨-, before⟩
        · exact ⟨allowed, trivial⟩
        · exact balanced.hosted other found before
  | outside =>
    cases account with
    | deal free deal lent =>
      exact balanced.deal deal (fun _ covers => ⟨covers, rfl⟩) covered lent balanced.hosted
  | @advance index running turn here advances ready =>
    obtain ⟨host, hosted⟩ := balanced.hosted index running here
    have deals := Call.deals_advance host hosted advances pool.system
    cases account with
    | deal free deal lent =>
      have keeps := deals.packs (free _ rfl)
      refine balanced.deal deal (fun indices covers => ?_) covered lent fun other found there => ?_
      · obtain ⟨listed, before⟩ := covers.of_put
        obtain ⟨others, same, after⟩ :=
          pool.total_split (fun running => running.place.keeps) listed here
        refine ⟨before, (after _ _).trans (Eq.trans ?_ same.symm)⟩
        exact congrArg (others + ·) keeps
      · rcases calls_put there with ⟨-, rfl⟩ | ⟨-, before⟩
        · exact ⟨host, deals.hosted⟩
        · exact balanced.hosted other found before
    | own own =>
      have gives : (pool.put index { running with place := turn.next pool.system }
          (turn.act pool.system)).gives index = (turn.next pool.system).gives := by
        rw [Pool.gives, put_calls_self]
        rfl
      rw [gives]
      refine balanced.own here ?_ deals own
      rintro ending ended
      rw [ended] at advances
      cases advances

/-! #### Whole courses -/

/-- However a run goes on, its ledger stays balanced. -/
theorem Course.balanced {start : Pool ρ MemoryContext} {first : Ledger}
    {trace : List (Move ρ MemoryContext)}
    (course : Course Rules.inMemory Account start first trace pool ledger)
    (balanced : start.Balanced first) :
    pool.Balanced ledger ∧ first.Succeeds start.world ledger pool.world := by
  induction course with
  | start => exact ⟨balanced, .refl _ _⟩
  | step _ next account ih =>
    obtain ⟨before, earlier⟩ := ih
    obtain ⟨after, later⟩ := balanced_step before next account
    exact ⟨after, earlier.trans later⟩

/-- In the beginning there are no references. -/
theorem balanced_start (client : ρ) :
    Balanced (⟨⟨{}, client⟩, fun _ => none⟩ : Pool ρ MemoryContext) ⟨0, []⟩ where
  counts indices _ := by
    have nothing : keeps indices (⟨⟨{}, client⟩, fun _ => none⟩ : Pool ρ MemoryContext) = 0 :=
      total_eq_zero fun _ _ here => by cases here
    rw [nothing]
    refine ⟨⟨rfl, rfl, fun _ _ built => ?_, fun _ listed => ?_⟩, fun _ listed => ?_,
      fun _ _ _ entry => ?_⟩
    · cases built
    · cases listed
    · cases listed
    · cases entry
  covered := ⟨∅, fun _ there => by cases there⟩
  lent _ _ here := by cases here
  hosted _ _ here := by cases here

/-! ### A definition that runs alone -/

/-- The pool after a change of the shared state. -/
def inWorld (pool : Pool ρ MemoryContext) (w : World) : Pool ρ MemoryContext :=
  ⟨{ pool.system with world := w }, pool.calls⟩

section
variable {start : Pool ρ MemoryContext} {first : Ledger} {trace : List (Move ρ MemoryContext)}

/-- While no definition is in progress, programs can deal. -/
private theorem Course.deal (before : Course Rules.inMemory Account start first trace pool ledger)
    (settled : pool.Settled) {w : World} (deal : Deal ledger pool.world ledger' w) :
    Course Rules.inMemory Account start first trace (pool.inWorld w) ledger' := by
  refine before.outside _ trivial (.deal (fun _ own => by cases own) deal ?_)
  intro index running here still
  obtain ⟨ending, ended⟩ := settled index running here
  exact absurd ended (still ending)

/-- When definitions go on by steps of their own, what they give is in the ledger. -/
private theorem Course.follow {schedule : List Nat} {moves : List (Move ρ MemoryContext)}
    (before : Course Rules.inMemory Account start first trace pool ledger)
    (followed : Pool.follow schedule pool = some (moves, pool'))
    (own : ∀ move ∈ moves, move.running.place.packs = false)
    (given : ∀ index running, pool.calls index = some running →
      running.place.gives ≤ ledger.refs) : ∃ ledger',
      Course Rules.inMemory Account start first (moves ++ trace) pool' ledger' ∧
      ∀ index running, pool'.calls index = some running → running.place.gives ≤ ledger'.refs := by
  induction schedule generalizing trace moves pool ledger with
  | nil =>
    cases followed
    exact ⟨ledger, before, given⟩
  | cons index later ih =>
    obtain ⟨⟨move, next⟩, advanced, followed⟩ := Option.bind_eq_some_iff.mp followed
    obtain ⟨⟨moves, last⟩, rest, ended⟩ := Option.map_eq_some_iff.mp followed
    cases ended
    have goesOn := before.advance index advanced
      (.own (own move (List.mem_append_right _ (List.mem_singleton_self move))))
    have moved : move.index = index ∧ ∀ other, other ≠ index →
        next.calls other = pool.calls other := by
      obtain ⟨running, turn, -, -, -, rfl, rfl⟩ := cases_advanced advanced
      exact ⟨rfl, fun other different => put_calls_of_ne _ _ _ different⟩
    have gives : ∀ other running, next.calls other = some running →
        running.place.gives ≤ next.gives move.index + ledger.refs := by
      intro other running there
      by_cases same : other = index
      · have here : next.gives move.index = running.place.gives := by
          rw [Pool.gives, moved.1, ← same, there]
          rfl
        rw [← here]
        exact Multiset.le_add_right ..
      · rw [moved.2 other same] at there
        exact (given other running there).trans (Multiset.le_add_left ..)
    rw [List.append_assoc]
    exact ih goesOn rest (fun move listed => own move (List.mem_append_left _ listed)) gives

end

/-- When the only reference to an artifact is dropped, it dies. -/
private theorem not_alive_of_only {w : World} {artifact : Artifact}
    (only : w.held = [artifact.serial]) : ¬(w.release artifact).alive artifact := by
  rw [World.alive_iff, World.release, only, List.erase_cons_head]
  exact List.not_mem_nil

private theorem defined_alone : ∃ trace pool refs writes artifact,
    Course Rules.inMemory Account ⟨⟨{}, ()⟩, fun _ => none⟩ ⟨0, []⟩ trace pool
      ⟨.artifact artifact ::ₘ refs, writes⟩ ∧ pool.Settled ∧
    pool.gives 0 = {.artifact artifact} ∧ pool.world.held = [artifact.serial] ∧
    (pool.world.entries .processWide).get? ⟨"a", by decide⟩ = some artifact := by
  let name : Name := ⟨"a", by decide⟩
  let loader : Loader Settings UInt16 := (Loader.create {} defaultHostApi {} {}).1
  let call : Call Unit MemoryContext := loader.call ⟨0⟩ name [0x48, 0x53, 0x55, 0x31, 0, 0, 7]
  let bare : Pool Unit MemoryContext := ⟨⟨{}, ()⟩, fun _ => none⟩
  let begun := bare.put 0 ⟨call, .check, 0⟩ bare.system
  have ends : (begun.follow (List.replicate 11 0)).any (fun ended =>
      (∀ move ∈ ended.1, move.running.place.packs = false) ∧
      (ended.2.calls 0).any fun running => (running.call.advance running.place).isNone ∧
        running.place.artifact?.any fun artifact => ended.2.world.held = [artifact.serial] ∧
          (ended.2.world.entries .processWide).get? name = some artifact) = true := by
    decide +kernel
  obtain ⟨⟨trace, pool⟩, followed, facts⟩ := (Option.any_eq_true _ _).mp ends
  obtain ⟨own, facts⟩ := of_decide_eq_true facts
  obtain ⟨running, here, facts⟩ := (Option.any_eq_true _ _).mp facts
  obtain ⟨stays, facts⟩ := of_decide_eq_true facts
  obtain ⟨artifact, loaded, facts⟩ := (Option.any_eq_true _ _).mp facts
  obtain ⟨held, entry⟩ := of_decide_eq_true facts
  have begins : Course Rules.inMemory Account bare ⟨0, []⟩ [] begun ⟨0, []⟩ := by
    refine .begin .start 0 call rfl ⟨_, rfl⟩ (.deal (fun _ own => by cases own) (.aside rfl) ?_)
    intro index running here still artifact has
    rcases calls_put here with ⟨-, rfl⟩ | ⟨-, before⟩
    · cases has
    · cases before
  obtain ⟨ledger, course, gives⟩ := begins.follow followed own fun index running here => by
    rcases calls_put here with ⟨-, rfl⟩ | ⟨-, before⟩
    · exact Multiset.zero_le _
    · cases before
  have settled : pool.Settled := by
    refine settled_of_follow followed (fun index unlisted => ?_) fun index listed => ?_
    · refine put_calls_of_ne _ _ _ ?_
      rintro rfl
      exact unlisted (List.mem_replicate.mpr ⟨by decide, rfl⟩)
    · rw [List.eq_of_mem_replicate listed, here]
      exact stays
  have given : running.place.gives = {.artifact artifact} := by
    obtain ⟨ending, ended⟩ := settled 0 running here
    rw [ended] at loaded ⊢
    exact congrArg Ref.given loaded
  have mine : (.artifact artifact : Ref) ∈ ledger.refs := by
    refine Multiset.mem_of_le (gives 0 running here) ?_
    rw [given]
    exact Multiset.mem_singleton_self _
  obtain ⟨refs, same⟩ := Multiset.exists_cons_of_mem mine
  rw [List.append_nil] at course
  refine ⟨trace, pool, refs, ledger.writes, artifact, ?_, settled, ?_, held, entry⟩
  · rw [← same]
    exact course
  · rw [Pool.gives, here]
    exact given

/-! ### How long artifacts live -/

/-- An artifact is alive exactly as long as somebody holds it; neither caches, loaders and resolvers as
    such nor definitions that have ended do. When it dies while it has an entry, that stays, without
    ever answering, until it is invalidated or its cache is swept or cleared. -/
theorem artifact_lives_while_held {client : ρ} {trace : List (Move ρ MemoryContext)}
    (course : Course Rules.inMemory Account ⟨⟨{}, client⟩, fun _ => none⟩ ⟨0, []⟩ trace pool ledger) :
    (pool.Settled → ∀ artifact : Artifact, pool.world.alive artifact ↔
      Holder ledger.refs pool.world artifact.serial) ∧
    ∀ cache name artifact, (pool.world.entries cache).get? name = some artifact →
      ¬pool.world.alive artifact →
      (pool.world.lookup cache name).1 = none ∧
        ∀ later pool' ledger', Course Rules.inMemory Account pool ledger later pool' ledger' →
          ∃ since, ledger'.writes = since ++ ledger.writes ∧
            World.Fading cache name artifact since pool.world pool'.world := by
  obtain ⟨balanced, -⟩ := course.balanced (balanced_start client)
  obtain ⟨indices, covers⟩ := balanced.covered
  have counts := balanced.counts indices covers
  refine ⟨fun settled artifact => ?_, fun cache name artifact entry lost => ?_⟩
  · have nothing : pool.keeps indices = 0 := by
      refine total_eq_zero fun index running here => ?_
      obtain ⟨ending, ended⟩ := settled index running here
      rw [ended]
      rfl
    have heldBy := counts.heldBy
    rw [nothing, add_zero] at heldBy
    exact heldBy.alive_iff
  · have dead : pool.world.Dead artifact.serial :=
      ⟨counts.grounded cache name artifact entry, fun held => lost (World.alive_iff.mpr held)⟩
    refine ⟨(World.lookup_of_dead dead.2 ⟨artifact, entry, rfl⟩).2, fun later pool' ledger' goesOn => ?_⟩
    obtain ⟨-, buries, since, writes, fades⟩ := goesOn.balanced balanced
    exact ⟨since, writes, fades.fading buries dead entry⟩

/-- A definition whose caller drops what it has got, and then clears the cache. -/
theorem artifact_lives_while_held_dropped :
    let name : Name := ⟨"a", by decide⟩
    ∃ trace pool ledger artifact cleared ledger',
      Course Rules.inMemory Account (⟨⟨{}, ()⟩, fun _ => none⟩ : Pool Unit MemoryContext) ⟨0, []⟩ trace
        pool ledger ∧ pool.Settled ∧ pool.gives 0 = {.artifact artifact} ∧
      (pool.world.entries .processWide).get? name = some artifact ∧
      ¬Holder ledger.refs pool.world artifact.serial ∧
      pool.world.contains .processWide name ∧ (pool.world.lookup .processWide name).1 = none ∧
      Course Rules.inMemory Account pool ledger [] cleared ledger' ∧
      ∀ other, ¬cleared.world.Names .processWide other artifact.serial := by
  intro name
  obtain ⟨trace, pool, refs, writes, artifact, course, settled, given, held, entry⟩ := defined_alone
  let dropped := pool.inWorld (pool.world.release artifact)
  have still : dropped.Settled := settled
  have drops : Course Rules.inMemory Account _ _ trace dropped ⟨refs, writes⟩ :=
    course.deal settled (.drop (.artifact artifact))
  have dead : ¬dropped.world.alive artifact := not_alive_of_only held
  obtain ⟨alive, fades⟩ := artifact_lives_while_held drops
  obtain ⟨silent, later⟩ := fades .processWide name artifact entry dead
  have clears : Course Rules.inMemory Account dropped ⟨refs, writes⟩ []
      (dropped.inWorld (dropped.world.clear .processWide))
      ⟨refs, .clear .processWide :: writes⟩ := Course.start.deal still (.clear .processWide)
  obtain ⟨since, written, fading⟩ := later _ _ _ clears
  obtain rfl : [Write.clear .processWide] = since := List.append_cancel_right written
  obtain ⟨since, nothing, stays⟩ := later _ _ _ .start
  obtain rfl : [] = since := List.append_cancel_right nothing
  exact ⟨trace, dropped, _, artifact, _, _, drops, still, given, entry,
    fun holder => dead ((alive still artifact).mpr holder),
    (stays.stays fun _ listed => by cases listed).1, silent, clears,
    fading.swept ⟨_, List.mem_singleton_self _, rfl⟩⟩

/-- An artifact that was also published under another name has an entry there when it has died and its
    own name is invalidated. -/
theorem invalidated_artifact_has_other_entry :
    let name : Name := ⟨"a", by decide⟩
    let other : Name := ⟨"b", by decide⟩
    ∃ trace pool ledger artifact invalidated ledger',
      Course Rules.inMemory Account (⟨⟨{}, ()⟩, fun _ => none⟩ : Pool Unit MemoryContext) ⟨0, []⟩ trace
        pool ledger ∧ pool.Settled ∧ pool.gives 0 = {.artifact artifact} ∧
      (pool.world.entries .processWide).get? name = some artifact ∧ ¬pool.world.alive artifact ∧
      Course Rules.inMemory Account pool ledger [] invalidated ledger' ∧
      ledger'.writes = .invalidate .processWide name :: ledger.writes ∧
      invalidated.world.Names .processWide other artifact.serial := by
  intro name other
  obtain ⟨trace, pool, refs, writes, artifact, course, settled, given, held, entry⟩ := defined_alone
  let both := pool.inWorld (pool.world.publish .processWide other artifact).2
  have bothSettled : both.Settled := settled
  have publishes : Course Rules.inMemory Account ⟨⟨{}, ()⟩, fun _ => none⟩ ⟨0, []⟩ trace both
      ⟨.artifact artifact ::ₘ refs, .publish .processWide :: writes⟩ := by
    refine course.deal settled (.publish .processWide other fun one listed => ?_)
    obtain rfl := List.mem_singleton.mp listed
    exact ⟨.artifact one, Multiset.mem_cons_self _ _, List.mem_singleton_self one⟩
  let dropped := both.inWorld (both.world.release artifact)
  have still : dropped.Settled := settled
  have drops : Course Rules.inMemory Account ⟨⟨{}, ()⟩, fun _ => none⟩ ⟨0, []⟩ trace dropped
      ⟨refs, .publish .processWide :: writes⟩ :=
    publishes.deal bothSettled (.drop (.artifact artifact))
  have live : pool.world.alive artifact := by
    rw [World.alive_iff, held]
    exact List.mem_singleton_self _
  have table : dropped.world.entries .processWide =
      ((pool.world.entries .processWide).filter pool.world.alive).insert other artifact := by
    show replace pool.world.entries .processWide _ .processWide = _
    exact replace_self ..
  refine ⟨trace, dropped, _, artifact, _, _, drops, still, given, ?_,
    not_alive_of_only held,
    Course.start.deal still (.invalidate .processWide name), rfl, artifact, ?_, rfl⟩
  · rw [table, Table.get?_insert, if_neg (by decide), Table.get?_filter, entry]
    exact Option.filter_eq_some_iff.mpr ⟨rfl, live⟩
  · refine (congrArg (Table.get? · other) (replace_self ..)).trans ?_
    rw [Table.get?_erase, if_neg (by decide), table, Table.get?_insert, if_pos rfl]

end Pool

end Reload
