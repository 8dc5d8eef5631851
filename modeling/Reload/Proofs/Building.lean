import Reload.Proofs.Concurrent.Exclusion
import Reload.Proofs.Definition.Exits
import Reload.Proofs.Resolution

/-!
Loaders after any building. A loader keeps its resolver beside the cache, the ancestor and the counters
that the resolver asks. However it began, and whatever it was given since in whichever order, it writes
the cache that it was given last and reads that same cache (`built_reads_what_it_writes`). A resolver
that was taken from it before stays what it was, and counts into the same counters.
-/

namespace Reload

/-! ### What the parts of a loader are for -/

/-- A resolver that refuses the name that the thread is defining, and answers any other name from the
    cache, or else from the ancestor. These counters tell how often it refused, and how often the cache
    answered. -/
def Resolver.Asks (resolver : Resolver) (cache : CacheId) (ancestor : Option Resolver)
    (counters : CountersId) : Prop :=
  ∀ thread name (w : World), resolver.resolve thread name w =
    if w.marker thread = some name then (.error ⟨name⟩, Tree.refuse counters name w)
    else
      match w.lookup cache name with
      | (some artifact, w) => (.ok artifact, w.count counters .cacheHits 1)
      | (.none, w) =>
        match ancestor with
        | some ancestor => ancestor.resolve thread name w
        | .none => (.error ⟨name⟩, w)

theorem Resolver.asks_guarded (cache : CacheId) (ancestor : Option Resolver) (counters : CountersId) :
    (guarded cache ancestor counters).Asks cache ancestor counters :=
  resolve_guarded cache ancestor counters

variable {ρ κ : Type}

/-- The host that gives each context this parent, and not the one that it is told. -/
def Host.under (host : Host ρ κ) (parent : Resolver) : Host ρ κ :=
  { host with instantiate := fun thread image _ => host.instantiate thread image parent }

/-- What a definition does to the state with its step from a place, if it is for this cache and these
    counters. What its callbacks do is left open. -/
def Call.Does (call : Call ρ κ) (cache : CacheId) (counters : CountersId) (w w' : World) :
    Place ρ κ → Prop
  | .take => w' = (w.lockFor cache.locks call.name).2
  | .inside _ .forget => w' = (w.invalidate cache call.name).2
  | .inside _ (.publish _ artifact) => w' = (w.publish cache call.name artifact).2
  | .inside _ (.note first _) | .inside _ (.report first _ _) => w' = first.apply counters w
  | .inside _ (.pack _) | .inside _ (.instantiate _) => True
  | .inside _ (.load ..) | .inside _ (.close ..) => True
  | _ => w'.entries = w.entries ∧ w'.locks = w.locks ∧ w'.counters = w.counters

/-- A change that leaves other caches and their locks alone, and is counted nowhere else. -/
structure World.Within (cache : CacheId) (counters : CountersId) (w w' : World) : Prop where
  entries : ∀ other, other ≠ cache → w'.entries other = w.entries other
  locks : ∀ other, other ≠ cache → w'.locks other.locks = w.locks other.locks
  counters : ∀ other counter, other ≠ counters → w'.counter other counter = w.counter other counter

namespace World.Within

variable {cache : CacheId} {counters : CountersId} {w w' : World}

theorem of_entries (entries : ∀ other, other ≠ cache → w'.entries other = w.entries other)
    (locks : w'.locks = w.locks) (same : w'.counters = w.counters) : w.Within cache counters w' :=
  ⟨entries, fun _ _ => by rw [locks], fun _ _ _ => by rw [World.counter, same, World.counter]⟩

theorem of_eq (entries : w'.entries = w.entries) (locks : w'.locks = w.locks)
    (same : w'.counters = w.counters) : w.Within cache counters w' :=
  .of_entries (fun _ _ => by rw [entries]) locks same

theorem lockFor (name : Name) : w.Within cache counters (w.lockFor cache.locks name).2 where
  entries other _ := by simp
  locks other different := by
    refine w.locks_lockFor_of_ne name fun same => different ?_
    exact congrArg (CacheId.mk ∘ LockSetId.index) same
  counters other counter _ := by simp [World.counter]

theorem note (note : Note) : w.Within cache counters (note.apply counters w) := by
  cases note with
  | record event => exact .of_eq rfl rfl rfl
  | count noted amount =>
    refine ⟨fun _ _ => rfl, fun _ _ => rfl, fun other counter different => ?_⟩
    exact w.counter_count_of_ne noted counter amount different

end World.Within

namespace Call

variable {call : Call ρ κ} {cache : CacheId} {counters : CountersId} {place : Place ρ κ}
  {w w' : World}

/-- No other cache is written, and nothing is counted elsewhere, unless a callback does it. -/
theorem Does.within (does : call.Does cache counters w w' place) (own : place.callback = false) :
    w.Within cache counters w' := by
  cases place with
  | take => exact does ▸ .lockFor call.name
  | check | wait | unlock | drop | ended => exact .of_eq does.1 does.2.1 does.2.2
  | inside lock stage =>
    cases stage with
    | pack | instantiate | load | close => cases own
    | mark | unmark => exact .of_eq does.1 does.2.1 does.2.2
    | note first | report first => exact does ▸ .note first
    | forget => exact does ▸ .of_entries (fun _ different => replace_of_ne _ _ different) rfl rfl
    | publish => exact does ▸ .of_entries (fun _ different => replace_of_ne _ _ different) rfl rfl

/-- Every step of a definition is for the cache and the counters of its loader. -/
theorem does_advance {turn : Turn (System ρ) (Place ρ κ)} (advances : call.advance place = some turn)
    (s : System ρ) :
    call.Does call.loader.cache call.loader.counters s.world (turn.act s).world place := by
  cases place with
  | take => cases advances; rfl
  | check | wait | unlock | drop => cases advances; exact ⟨rfl, rfl, rfl⟩
  | ended ending => cases advances
  | inside lock stage =>
    cases advances
    cases stage with
    | forget | note | publish | report => rfl
    | pack | instantiate | load | close => trivial
    | unmark result => exact ⟨rfl, rfl, rfl⟩
    | mark =>
      simp only [advanceStage, World.mark]
      split <;> exact ⟨rfl, rfl, rfl⟩

end Call

theorem Pool.Run.does {rules : Rules ρ κ} {start : System ρ} {trace : List (Move ρ κ)}
    {pool : Pool ρ κ} (run : Run rules start trace pool) {move : Move ρ κ} (made : move ∈ trace) :
    move.running.call.Does move.running.call.loader.cache move.running.call.loader.counters
      move.before move.after move.running.place := by
  induction run with
  | start => cases made
  | @step trace pool pool' last before next ih =>
    cases next with
    | begin unused allowed => exact ih made
    | outside allowed => exact ih made
    | @advance index running turn here advances ready =>
      rcases List.mem_cons.mp made with rfl | earlier
      · exact running.call.does_advance advances pool.system
      · exact ih earlier

namespace Loader

/-! ### Working on one cache -/

/-- A loader that writes and reads one cache, falls back to this ancestor, and counts here. -/
structure WorksOn (loader : Loader (Packer ρ) (Host ρ κ)) (cache : CacheId)
    (ancestor : Option Resolver) (counters : CountersId) : Prop where
  writes : loader.cache = cache
  fallsBack : loader.ancestor = ancestor
  counts : loader.counters = counters
  resolves : loader.resolver.Asks cache ancestor counters
  /-- Each context that a definition makes has a parent that asks the same as the loader. -/
  hands : ∀ thread name raw,
    { loader with host := loader.host.under (.guarded cache ancestor counters) }.define thread name raw =
      loader.define thread name raw
  /-- What the definitions do, whatever runs beside them. -/
  does : ∀ {rules : Rules ρ κ} {start : System ρ} {trace : List (Move ρ κ)} {pool : Pool ρ κ},
    Pool.Run rules start trace pool → ∀ move ∈ trace, move.running.call.loader = loader →
      move.running.call.Does cache counters move.before move.after move.running.place ∧
        (move.running.place.callback = false → move.before.Within cache counters move.after)
  /-- The lock that a definition waits for, or has, is the one of its name among those of the cache. -/
  locks : ∀ {rules : Rules ρ κ} {start : System ρ} {trace : List (Move ρ κ)} {pool : Pool ρ κ},
    rules.KeepLocks → Pool.Run rules start trace pool → ∀ index running lock,
      pool.calls index = some running → running.call.loader = loader →
      running.place.handle? = some lock →
      (pool.world.locks cache.locks).get? running.call.name = some lock
  /-- After a definition, the name is resolved with its artifact, as long as that is alive, or else as
      the ancestor resolves it. -/
  reads : ∀ (call : Call ρ κ) (s : System ρ), call.loader = loader →
    s.world.marker call.thread = none → (∀ lock ∈ call.lock? s.world, s.world.isFree lock) →
    call.Callbacks call.Spares call.Keeps { s with world := call.entered s.world } →
    ∃ ending s', (loader.define call.thread call.name call.raw).run.run s = some (ending, s') ∧
      ∀ thread, s'.world.marker thread ≠ some call.name →
        (∀ artifact, ending = .ok (.ok artifact) → s'.world.alive artifact →
          loader.resolve thread call.name s'.world =
            (.ok artifact, (s'.world.retain artifact).count counters .cacheHits 1)) ∧
        ((∀ artifact, ending ≠ .ok (.ok artifact)) →
          loader.resolve thread call.name s'.world =
            match ancestor with
            | some ancestor => ancestor.resolve thread call.name s'.world
            | none => (.error ⟨call.name⟩, s'.world))

variable {τ η : Type}

theorem asks (loader : Loader τ η) :
    loader.resolver.Asks loader.cache loader.ancestor loader.counters := by
  rw [loader.resolver_eq]
  exact Resolver.asks_guarded _ _ _

private theorem reads_of_exit {call : Call ρ κ} {s : System ρ} {ending : Ending} {w : World}
    (exit : call.Exit s ending w) {thread : ThreadId} (unmarked : w.marker thread ≠ some call.name) :
    (∀ artifact, ending = .ok (.ok artifact) → w.alive artifact →
      call.loader.resolve thread call.name w =
        (.ok artifact, (w.retain artifact).count call.loader.counters .cacheHits 1)) ∧
    ((∀ artifact, ending ≠ .ok (.ok artifact)) →
      call.loader.resolve thread call.name w =
        match call.loader.ancestor with
        | some ancestor => ancestor.resolve thread call.name w
        | none => (.error ⟨call.name⟩, w)) := by
  have entry : (w.entries call.loader.cache).get? call.name = ending.artifact? := by
    rw [Call.Exit.get? call exit, if_pos rfl]
  constructor
  · rintro artifact rfl live
    have found : w.lookup call.loader.cache call.name = (some artifact, w.retain artifact) := by
      simp [World.lookup, entry, Ending.artifact?, live]
    rw [resolve, call.loader.asks, if_neg unmarked, found]
  · intro failed
    have nothing : w.lookup call.loader.cache call.name = (none, w) := by
      rcases ending with panic | cause | artifact
      · simp [World.lookup, entry, Ending.artifact?]
      · simp [World.lookup, entry, Ending.artifact?]
      · exact absurd rfl (failed artifact)
    rw [resolve, call.loader.asks, if_neg unmarked, nothing]

/-- A loader works on its own cache, whatever it was built of. -/
theorem worksOn (loader : Loader (Packer ρ) (Host ρ κ)) :
    loader.WorksOn loader.cache loader.ancestor loader.counters where
  writes := rfl
  fallsBack := rfl
  counts := rfl
  resolves := loader.asks
  hands thread name raw := by
    rw [← loader.resolver_eq]
    rfl
  does run move made own := by
    have does := run.does made
    rw [own] at does
    exact ⟨does, does.within⟩
  locks keep run index running lock here own handle := by
    have tabled := (run.locked keep).tabled index running lock here handle
    rw [own] at tabled
    exact tabled
  reads call s own unmarked free callbacks := by
    obtain ⟨ending, s', ran, exit⟩ := call.define_exits s unmarked free callbacks
    subst own
    exact ⟨ending, s', ran, fun thread => reads_of_exit exit⟩

/-! ### Building step by step -/

/-- How a loader begins: with the default settings, with settings for itself alone, or with settings
    that its packer and its host follow. -/
inductive Origin (τ η : Type) where
  | plain (packer : τ) (host : η)
  | custom (settings : Settings) (packer : τ) (host : η)
  | matching (settings : Settings) (packer : Settings → τ) (host : UInt16 → η)

def Origin.create : Origin τ η → World → Loader τ η × World
  | plain packer host => Loader.create packer host {}
  | custom settings packer host => Loader.create packer host settings
  | matching settings packer host => createMatching packer host settings

/-- What a loader may be given once it has begun. -/
inductive Change where
  | cache (cache : CacheId)
  | ancestor (ancestor : Resolver)

def Change.cache? : Change → Option CacheId
  | .cache given => some given
  | .ancestor _ => none

def Change.ancestor? : Change → Option Resolver
  | .cache _ => none
  | .ancestor given => some given

def change (loader : Loader τ η) : Change → Loader τ η
  | .cache cache => loader.withCache cache
  | .ancestor ancestor => loader.withAncestor ancestor

def build (loader : Loader τ η) (changes : List Change) : Loader τ η := changes.foldl change loader

/-- The cache that was given last, if any was. -/
def lastCache? (changes : List Change) : Option CacheId := (changes.filterMap Change.cache?).getLast?

def lastAncestor? (changes : List Change) : Option Resolver :=
  (changes.filterMap Change.ancestor?).getLast?

/-- The same loader with other counters. -/
def countingInto (loader : Loader τ η) (counters : CountersId) : Loader τ η :=
  { packer := loader.packer
    host := loader.host
    cache := loader.cache
    ancestor := loader.ancestor
    settings := loader.settings
    counters }

theorem rebuild_self (loader : Loader τ η) : loader.rebuild loader.cache loader.ancestor = loader := by
  obtain ⟨packer, host, cache, ancestor, settings, counters, resolver, rfl⟩ := loader
  rfl

@[simp] theorem lastCache?_cons (first : Change) (rest : List Change) :
    lastCache? (first :: rest) = (lastCache? rest).or first.cache? := by
  cases first with
  | cache given =>
    have listed : (Change.cache given :: rest).filterMap Change.cache? =
      given :: rest.filterMap Change.cache? := rfl
    simp [lastCache?, listed, List.getLast?_cons, Change.cache?]
  | ancestor given => exact Option.or_none.symm

@[simp] theorem lastAncestor?_cons (first : Change) (rest : List Change) :
    lastAncestor? (first :: rest) = (lastAncestor? rest).or first.ancestor? := by
  cases first with
  | cache given => exact Option.or_none.symm
  | ancestor given =>
    have listed : (Change.ancestor given :: rest).filterMap Change.ancestor? =
      given :: rest.filterMap Change.ancestor? := rfl
    simp [lastAncestor?, listed, List.getLast?_cons, Change.ancestor?]

theorem change_eq (loader : Loader τ η) (change : Change) :
    loader.change change =
      loader.rebuild (change.cache?.getD loader.cache) (change.ancestor?.or loader.ancestor) := by
  cases change <;> rfl

/-- What a loader is given last counts, and what it is not given stays. -/
theorem build_eq (loader : Loader τ η) (changes : List Change) :
    loader.build changes = loader.rebuild ((lastCache? changes).getD loader.cache)
      ((lastAncestor? changes).or loader.ancestor) := by
  induction changes generalizing loader with
  | nil => exact loader.rebuild_self.symm
  | cons first rest ih =>
    calc (loader.change first).build rest
      _ = (loader.change first).rebuild ((lastCache? rest).getD (loader.change first).cache)
            ((lastAncestor? rest).or (loader.change first).ancestor) := ih _
      _ = _ := by simp [change_eq, rebuild, Option.getD_or, Option.or_assoc]

section
variable (origin : Origin τ η) (w : World) (changes : List Change)

theorem built_cache :
    ((origin.create w).1.build changes).cache = (lastCache? changes).getD .processWide := by
  rw [build_eq]
  cases origin <;> rfl

theorem built_ancestor :
    ((origin.create w).1.build changes).ancestor = lastAncestor? changes := by
  rw [build_eq]
  cases origin <;> exact Option.or_none

theorem built_counters : ((origin.create w).1.build changes).counters = ⟨w.nextCounters⟩ := by
  rw [build_eq]
  cases origin <;> rfl

/-- Loaders that begin alike differ in their counters only, also after they are given the same. -/
theorem built_countingInto (v : World) : (origin.create v).1.build changes =
    ((origin.create w).1.build changes).countingInto ⟨v.nextCounters⟩ := by
  rw [build_eq, build_eq]
  cases origin <;> rfl

end

/-- What counts of what a loader is given is the last cache and the last ancestor. -/
theorem build_congr (loader : Loader τ η) {changes changes' : List Change}
    (cache : lastCache? changes' = lastCache? changes)
    (ancestor : lastAncestor? changes' = lastAncestor? changes) :
    loader.build changes' = loader.build changes := by
  rw [build_eq, build_eq, cache, ancestor]

/-- However a loader begins, and whatever it is given since, it works on the cache that it was given
    last, or else on the process-wide one, with the ancestor that it was given last, and counts into new
    counters. What it was given before makes no difference, and two loaders that begin alike and are
    given the same caches and ancestors last differ in their counters only. A resolver that was taken
    from it earlier asks what it asked then, and counts into the same counters. -/
theorem built_reads_what_it_writes (origin : Origin (Packer ρ) (Host ρ κ)) (w : World)
    (changes : List Change) :
    let created := (origin.create w).1
    let built := created.build changes
    built.WorksOn ((lastCache? changes).getD .processWide) (lastAncestor? changes)
      ⟨w.nextCounters⟩ ∧
    (origin.create w).2 = { w with nextCounters := w.nextCounters + 1 } ∧
    (∀ changes', lastCache? changes' = lastCache? changes →
      lastAncestor? changes' = lastAncestor? changes →
      created.build changes' = built ∧
      ∀ v, (origin.create v).1.build changes' = built.countingInto ⟨v.nextCounters⟩) ∧
    (∀ before later, changes = before ++ later →
      (created.build before).resolver.Asks ((lastCache? before).getD .processWide)
        (lastAncestor? before) built.counters) := by
  intro created built
  refine ⟨?_, by cases origin <;> rfl, ?_, ?_⟩
  · rw [← built_cache origin w, ← built_ancestor origin w, ← built_counters origin w changes]
    exact built.worksOn
  · intro changes' cache ancestor
    refine ⟨created.build_congr cache ancestor, fun v => ?_⟩
    rw [built_countingInto origin w, build_congr _ cache ancestor]
  · intro before later _
    have earlier := (created.build before).asks
    rwa [built_cache, built_ancestor, built_counters origin w before,
      ← built_counters origin w changes] at earlier

/-- A loader that was given a cache, an ancestor and then another cache, defines into that one and
    resolves from it, while the resolver that it had with the first cache has nothing. -/
theorem built_reads_what_it_writes_second :
    let name : Name := ⟨"a", by decide⟩
    let call : Call Unit Unit := Call.making name
    let origin : Origin (Packer Unit) (Host Unit Unit) :=
      .custom { serialize := true } call.loader.packer call.loader.host
    let linked : Resolver := .linked (Table.empty.insert name ⟨1, name, 0, .nothing⟩)
    let w : World := { created := 1, held := [1], nextCache := 3 }
    let before := [Change.cache ⟨1⟩]
    let changes := before ++ [.ancestor linked, .cache ⟨2⟩]
    let created := (origin.create w).1
    ∃ artifact s', ((created.build changes).define .first name []).run.run
        ⟨(origin.create w).2, ()⟩ = some (.ok (.ok artifact), s') ∧
      (created.build changes).resolve .first name s'.world =
        (.ok artifact, (s'.world.retain artifact).count ⟨0⟩ .cacheHits 1) ∧
      (created.build before).resolver.resolve .first name s'.world = (.error ⟨name⟩, s'.world) := by
  intro name call origin linked w before changes created
  obtain ⟨works, -, -, earlier⟩ := built_reads_what_it_writes origin w changes
  obtain ⟨ending, s', ran, reads⟩ := works.reads ⟨created.build changes, .first, name, []⟩
    ⟨(origin.create w).2, ()⟩ rfl rfl (fun lock taken => by cases taken; rfl) {
      pack := ⟨_, rfl, ⟨rfl, fun _ _ => rfl⟩, fun _ _ _ => rfl⟩
      instantiate := fun image s₁ packs => ⟨_, rfl, ⟨rfl, fun _ _ => rfl⟩, fun _ _ _ => rfl⟩
      load := by
        intro image s₁ context s₂ packs builds
        cases packs
        cases builds
        refine ⟨_, rfl, ⟨⟨rfl, fun _ _ => rfl⟩, ?_⟩, rfl, fun _ _ => rfl⟩
        intro name artifact entry
        cases entry
    }
  obtain ⟨rfl, rfl⟩ := Prod.mk.inj (Option.some.inj (ran.symm.trans rfl))
  refine ⟨_, _, ran, (reads .first nofun).1 _ rfl rfl, ?_⟩
  rw [earlier before _ rfl]
  rfl

end Loader

end Reload
