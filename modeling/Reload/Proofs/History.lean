import Reload.Proofs.Definition.Whole

/-!
Loaders that share a cache, used one after the other. What a resolution through any of them answers
follows from the history alone: the artifact of the latest definition of the name, as long as
something holds it, and else what the loader's ancestor answers (`resolve_latest`).
-/

namespace Reload

/-- What is done with loaders that share a cache. -/
inductive Op where
  | define (loader : Loader Settings UInt16) (thread : ThreadId) (name : Name) (raw : Bytes)
  | resolve (loader : Loader Settings UInt16) (thread : ThreadId) (name : Name)
  /-- A holder lets go of an artifact. -/
  | release (artifact : Artifact)
  | invalidate (name : Name)
  | clear

/-- What an operation answers. -/
inductive Outcome where
  | defined (ending : Ending)
  | resolved (answer : Except NotFound Artifact)
  | nothing

def Outcome.defined? : Outcome → Option Artifact
  | .defined ending => ending.artifact?
  | _ => none

/-- What was done, and what it answered, the latest operation first. -/
abbrev History : Type := List (Op × Outcome)

/-- The artifact of the latest definition of a name, if that one succeeded and the name was not
    invalidated and the cache not cleared since. -/
def History.latest (name : Name) : History → Option Artifact
  | [] => none
  | (.define _ _ defined _, outcome) :: before =>
    if name = defined then outcome.defined? else latest name before
  | (.invalidate gone, _) :: before => if name = gone then none else latest name before
  | (.clear, _) :: _ => none
  | (.resolve .., _) :: before | (.release _, _) :: before => latest name before

variable {ρ : Type} (cache : CacheId)

def Op.perform (s : System ρ) : Op → Option (Outcome × System ρ)
  | .define loader thread name raw =>
    ((loader.inMemory.define thread name raw).run.run s).map fun end_ => (.defined end_.1, end_.2)
  | .resolve loader thread name =>
    some (.resolved (loader.resolve thread name s.world).1,
      { s with world := (loader.resolve thread name s.world).2 })
  | .release artifact => some (.nothing, { s with world := s.world.release artifact })
  | .invalidate name => some (.nothing, { s with world := (s.world.invalidate cache name).2 })
  | .clear => some (.nothing, { s with world := s.world.clear cache })

def History.run : List Op → History → System ρ → Option (History × System ρ)
  | [], history, s => some (history, s)
  | op :: ops, history, s =>
    (op.perform cache s).bind fun end_ => run ops ((op, end_.1) :: history) end_.2

/-! ### Where a history begins -/

/-- A state in which the cache is empty and no definition of its names is running. Everything that
    the state mentions exists. -/
structure World.Begins (w : World) : Prop where
  empty : ∀ name, (w.entries cache).get? name = none
  locks : w.FreeLocks cache.locks
  contexts : w.FreshContexts
  grounded : w.Grounded

/-- A loader on the cache, with an ancestor that exists in the state, on a thread without a
    marker. -/
structure Loader.Joins (w : World) (loader : Loader Settings UInt16) (thread : ThreadId) : Prop where
  cache : loader.cache = cache
  unmarked : w.marker thread = none
  ancestor : ∀ artifact ∈ loader.resolver.artifacts, artifact.serial ≤ w.created

/-- An operation through a loader is one through a loader of the cache. -/
def Op.Fits (w : World) : Op → Prop
  | .define loader thread _ _ | .resolve loader thread _ => loader.Joins cache w thread
  | .release _ | .invalidate _ | .clear => True

/-! ### What the history tells of the state -/

/-- The entries of the cache are the latest definitions, but for those that nothing holds. -/
structure History.Faithful (start : World) (history : History) (w : World) : Prop where
  entry : ∀ name artifact, (w.entries cache).get? name = some artifact →
    history.latest name = some artifact
  live : ∀ name artifact, history.latest name = some artifact → w.alive artifact →
    (w.entries cache).get? name = some artifact
  new : ∀ name artifact, history.latest name = some artifact →
    start.created < artifact.serial ∧ artifact.serial ≤ w.created
  created : start.created ≤ w.created
  others : ∀ other, other ≠ cache → w.entries other = start.entries other
  marker : w.marker = start.marker
  locks : w.FreeLocks cache.locks
  contexts : w.FreshContexts

namespace History

variable {cache}

theorem faithful_nil {start : World} (begins : start.Begins cache) :
    Faithful cache start [] start where
  entry name artifact entry := by
    rw [begins.empty name] at entry
    cases entry
  live _ _ latest := by cases latest
  new _ _ latest := by cases latest
  created := Nat.le_refl _
  others _ _ := rfl
  marker := rfl
  locks := begins.locks
  contexts := begins.contexts

theorem Faithful.quiet {start w w' : World} {history history' : History} {artifacts : List Artifact}
    (faithful : Faithful cache start history w) (quiet : Quiet cache artifacts w w')
    (existed : ∀ artifact ∈ artifacts, artifact.serial ≤ start.created)
    (entries : w'.entries cache = w.entries cache)
    (marker : w'.marker = w.marker) (locks : w'.FreeLocks cache.locks)
    (latest : ∀ name, history'.latest name = history.latest name) :
    Faithful cache start history' w' where
  entry name artifact entry := by
    rw [latest]
    exact faithful.entry name artifact (entries ▸ entry)
  live name artifact defined live := by
    rw [latest] at defined
    obtain ⟨above, below⟩ := faithful.new name artifact defined
    have unheld : artifact.serial ∉ artifacts.map Artifact.serial := by
      intro listed
      obtain ⟨held, member, same⟩ := List.mem_map.mp listed
      have old := existed held member
      omega
    rw [entries]
    exact faithful.live name artifact defined (quiet.alive artifact below unheld live)
  new name artifact defined := by
    rw [latest] at defined
    obtain ⟨above, below⟩ := faithful.new name artifact defined
    exact ⟨above, Nat.le_trans below quiet.created⟩
  created := Nat.le_trans faithful.created quiet.created
  others other different := (quiet.others other different).trans (faithful.others other different)
  marker := marker.trans faithful.marker
  locks := locks
  contexts := quiet.fresh faithful.contexts

/-! ### One operation -/

variable {start : World} {history : History} {s : System ρ}

theorem faithful_release (faithful : Faithful cache start history s.world) (artifact : Artifact) :
    Faithful cache start ((.release artifact, .nothing) :: history) (s.world.release artifact) := by
  have quiet : Quiet cache [] s.world (s.world.release artifact) :=
    ⟨Nat.le_refl _, fun untouched => untouched, fun _ _ => rfl,
      fun _ _ _ live => World.alive_of_alive_release live⟩
  exact faithful.quiet quiet (by simp) rfl rfl ⟨faithful.locks.tabled, faithful.locks.unmade⟩
    fun _ => rfl

theorem faithful_resolve (faithful : Faithful cache start history s.world)
    {loader : Loader Settings UInt16} {thread : ThreadId} (joins : loader.Joins cache start thread)
    (name : Name) (outcome : Outcome) :
    Faithful cache start ((.resolve loader thread name, outcome) :: history)
      (loader.resolve thread name s.world).2 := by
  have answered := loader.resolver.answered thread name s.world
  have frame := answered.frame
  have quiet : Quiet cache loader.resolver.artifacts s.world
      (loader.resolve thread name s.world).2 := by
    refine ⟨?_, ?_, ?_, ?_⟩
    · exact Nat.le_of_eq (by rw [Loader.resolve, frame])
    · rw [Loader.resolve, frame]
      exact fun untouched => untouched
    · rw [Loader.resolve, frame]
      exact fun _ _ => rfl
    · intro artifact _ unheld live
      exact answered.alive live unheld
  refine faithful.quiet quiet joins.ancestor ?_ ?_ ?_ fun _ => rfl
  · rw [Loader.resolve, frame]
  · rw [Loader.resolve, frame]
  · rw [Loader.resolve, frame]
    exact ⟨faithful.locks.tabled, faithful.locks.unmade⟩

theorem faithful_invalidate (faithful : Faithful cache start history s.world) (gone : Name) :
    Faithful cache start ((.invalidate gone, .nothing) :: history)
      (s.world.invalidate cache gone).2 where
  entry name artifact entry := by
    simp only [World.invalidate, replace_self, Table.get?_erase] at entry
    by_cases same : name = gone
    · simp [same] at entry
    · simp only [same, if_false] at entry
      simpa [latest, same] using faithful.entry name artifact entry
  live name artifact defined live := by
    by_cases same : name = gone
    · simp [latest, same] at defined
    · simp only [latest, same, if_false] at defined
      simpa [World.invalidate, same] using faithful.live name artifact defined live
  new name artifact defined := by
    by_cases same : name = gone
    · simp [latest, same] at defined
    · simp only [latest, same, if_false] at defined
      exact faithful.new name artifact defined
  created := faithful.created
  others other different := (replace_of_ne _ _ different).trans (faithful.others other different)
  marker := faithful.marker
  locks := ⟨faithful.locks.tabled, faithful.locks.unmade⟩
  contexts := faithful.contexts

theorem faithful_clear (faithful : Faithful cache start history s.world) :
    Faithful cache start ((.clear, .nothing) :: history) (s.world.clear cache) where
  entry name artifact entry := by
    simp [World.clear] at entry
  live _ _ defined := by cases defined
  new _ _ defined := by cases defined
  created := faithful.created
  others other different := (replace_of_ne _ _ different).trans (faithful.others other different)
  marker := faithful.marker
  locks := ⟨faithful.locks.tabled, faithful.locks.unmade⟩
  contexts := faithful.contexts

private theorem own_of_faithful (faithful : Faithful cache start history s.world)
    {artifacts : List Artifact} (existed : ∀ artifact ∈ artifacts, artifact.serial ≤ start.created) :
    s.world.OwnEntries cache artifacts := by
  intro name artifact entry
  obtain ⟨above, below⟩ := faithful.new name artifact (faithful.entry name artifact entry)
  refine ⟨below, fun listed => ?_⟩
  obtain ⟨held, member, same⟩ := List.mem_map.mp listed
  have old := existed held member
  omega

theorem latest_define {loader : Loader Settings UInt16} {thread : ThreadId} {defined name : Name}
    {raw : Bytes} {outcome : Outcome} :
    latest name ((.define loader thread defined raw, outcome) :: history) =
      if name = defined then outcome.defined? else latest name history := rfl

private theorem faithful_exit (faithful : Faithful cache start history s.world)
    {loader : Loader Settings UInt16} {thread : ThreadId} (joins : loader.Joins cache start thread)
    {name : Name} {raw : Bytes} {ending : Ending} {w : World}
    (exit : (loader.call thread name raw).Exit s ending w) (defined : loader.Defined s ending w) :
    Faithful cache start ((.define loader thread name raw, .defined ending) :: history) w := by
  obtain rfl := joins.cache
  have own := own_of_faithful faithful joins.ancestor
  have older : ∀ other artifact, history.latest other = some artifact → w.alive artifact →
      s.world.alive artifact := by
    intro other artifact latest live
    obtain ⟨above, below⟩ := faithful.new other artifact latest
    refine defined.quiet.alive artifact below (fun listed => ?_) live
    obtain ⟨held, member, same⟩ := List.mem_map.mp listed
    have old := joins.ancestor held member
    omega
  have entries : ∀ other, (w.entries loader.cache).get? other =
      if other = name then ending.artifact?
      else if ending.artifact?.isSome then
        ((s.world.entries loader.cache).get? other).filter s.world.alive
      else (s.world.entries loader.cache).get? other := fun other => exit.get? _ other
  exact {
    entry := by
      intro other artifact entry
      rw [entries] at entry
      rw [latest_define]
      by_cases same : other = name
      · rwa [if_pos same] at entry ⊢
      · rw [if_neg same] at entry ⊢
        refine faithful.entry other artifact ?_
        split at entry
        · exact (Option.filter_eq_some_iff.mp entry).1
        · exact entry
    live := by
      intro other artifact latest live
      rw [entries]
      rw [latest_define] at latest
      by_cases same : other = name
      · rwa [if_pos same] at latest ⊢
      · rw [if_neg same] at latest ⊢
        have before := older other artifact latest live
        have entry := faithful.live other artifact latest before
        split
        · exact Option.filter_eq_some_iff.mpr ⟨entry, before⟩
        · exact entry
    new := by
      intro other artifact latest
      rw [latest_define] at latest
      by_cases same : other = name
      · rw [if_pos same] at latest
        rcases ending with panic | cause | found
        · cases latest
        · cases latest
        · cases latest
          obtain ⟨above, below⟩ := defined.new artifact rfl
          exact ⟨Nat.lt_of_le_of_lt faithful.created above, below⟩
      · rw [if_neg same] at latest
        obtain ⟨above, below⟩ := faithful.new other artifact latest
        exact ⟨above, Nat.le_trans below defined.quiet.created⟩
    created := Nat.le_trans faithful.created defined.quiet.created
    others := fun other different =>
      (defined.quiet.others other different).trans (faithful.others other different)
    marker := defined.marker.trans faithful.marker
    locks := defined.locks
    contexts := defined.quiet.fresh faithful.contexts
  }

/-- Every operation that fits ends, and the history stays faithful. -/
theorem faithful_perform (faithful : Faithful cache start history s.world) {op : Op}
    (fits : op.Fits cache start) : ∃ outcome s', op.perform cache s = some (outcome, s') ∧
      Faithful cache start ((op, outcome) :: history) s'.world := by
  cases op with
  | define loader thread name raw =>
    have unmarked : s.world.marker thread = none := by
      rw [faithful.marker]
      exact fits.unmarked
    have own := own_of_faithful faithful fits.ancestor
    obtain ⟨ending, s', ran, exit, defined⟩ := loader.define_inMemory thread name raw s unmarked
      (fits.cache ▸ faithful.locks) faithful.contexts (fits.cache ▸ own)
    refine ⟨.defined ending, s', ?_, faithful_exit faithful fits exit defined⟩
    simp [Op.perform, ran]
  | resolve loader thread name => exact ⟨_, _, rfl, faithful_resolve faithful fits name _⟩
  | release artifact => exact ⟨_, _, rfl, faithful_release faithful artifact⟩
  | invalidate name => exact ⟨_, _, rfl, faithful_invalidate faithful name⟩
  | clear => exact ⟨_, _, rfl, faithful_clear faithful⟩

/-- All operations that fit end, one after the other, and the history stays faithful. -/
theorem faithful_run {ops : List Op} (fits : ∀ op ∈ ops, op.Fits cache start)
    (faithful : Faithful cache start history s.world) :
    ∃ history' s', run cache ops history s = some (history', s') ∧
      Faithful cache start history' s'.world := by
  induction ops generalizing history s with
  | nil => exact ⟨history, s, rfl, faithful⟩
  | cons op ops ih =>
    obtain ⟨outcome, s₁, performed, faithful₁⟩ := faithful_perform faithful (fits op (by simp))
    obtain ⟨history', s', ran, faithful'⟩ :=
      ih (fun other member => fits other (List.mem_cons_of_mem _ member)) faithful₁
    refine ⟨history', s', ?_, faithful'⟩
    rw [run, performed]
    exact ran

end History

/-! ### What a resolution answers -/

/-- What the ancestor of a loader answers. Without one, nobody knows any name. -/
def Loader.ancestorAnswer {τ η : Type} (loader : Loader τ η) (thread : ThreadId) (name : Name)
    (w : World) : Except NotFound Artifact :=
  match loader.ancestor with
  | some ancestor => (ancestor.resolve thread name w).1
  | none => .error ⟨name⟩

/-- On a thread without a marker, a loader answers with the live entry of its cache, and else as its
    ancestor does. -/
theorem Loader.resolve_unmarked {τ η : Type} (loader : Loader τ η) {thread : ThreadId} {name : Name}
    {w : World} (unmarked : w.marker thread = none) :
    (loader.resolve thread name w).1 =
      match ((w.entries loader.cache).get? name).filter w.alive with
      | some artifact => .ok artifact
      | none => loader.ancestorAnswer thread name w := by
  have found := w.lookup_eq loader.cache name
  have world := w.lookup_world loader.cache name
  rw [Loader.resolve, loader.resolver_eq, Resolver.resolve_guarded, if_neg (by simp [unmarked]), ← found]
  rcases look : w.lookup loader.cache name with ⟨_ | artifact, w'⟩
  · rw [look] at world
    obtain rfl : w' = w := world
    unfold ancestorAnswer
    cases loader.ancestor <;> rfl
  · rfl

variable {cache}

/-- A faithful history tells the live entry of every name. -/
theorem History.Faithful.filter_alive {start w : World} {history : History}
    (faithful : Faithful cache start history w) (name : Name) :
    ((w.entries cache).get? name).filter w.alive = (history.latest name).filter w.alive := by
  refine Option.ext fun artifact => ?_
  rw [Option.filter_eq_some_iff, Option.filter_eq_some_iff]
  constructor
  · rintro ⟨entry, live⟩
    exact ⟨faithful.entry name artifact entry, live⟩
  · rintro ⟨latest, live⟩
    exact ⟨faithful.live name artifact latest live, live⟩

/-- What resolutions answer after a history. -/
structure History.Answers (cache : CacheId) (start : World) (history : History) (w : World) :
    Prop where
  /-- The answer is the latest definition if that is held, and else what the ancestor answers. -/
  answer : ∀ (loader : Loader Settings UInt16) (thread : ThreadId) (name : Name),
    loader.Joins cache start thread → (loader.resolve thread name w).1 =
      match (history.latest name).filter w.alive with
      | some artifact => .ok artifact
      | none => loader.ancestorAnswer thread name w
  /-- An artifact that was created meanwhile is an answer only while it is the latest definition. -/
  latest : ∀ (loader : Loader Settings UInt16) (thread : ThreadId) (name : Name)
    (artifact : Artifact), loader.Joins cache start thread →
    (loader.resolve thread name w).1 = .ok artifact → start.created < artifact.serial →
    history.latest name = some artifact
  /-- A name without a latest definition has no entry. -/
  unpublished : ∀ name, history.latest name = none → w.contains cache name = false

/-- Loaders that share a cache, begun when it was empty, never read stale. All operations end, and
    after any of them a resolution answers with the artifact of the latest definition of the name if
    that is still held, and else as the loader's own ancestor does. -/
theorem resolve_latest (s : System ρ) (begins : s.world.Begins cache) (ops : List Op)
    (fits : ∀ op ∈ ops, op.Fits cache s.world) :
    ∃ history s', History.run cache ops [] s = some (history, s') ∧
      history.Answers cache s.world s'.world := by
  obtain ⟨history, s', ran, faithful⟩ := History.faithful_run fits (History.faithful_nil begins)
  refine ⟨history, s', ran, ?_, ?_, ?_⟩
  · intro loader thread name joins
    have unmarked : s'.world.marker thread = none := by
      rw [faithful.marker]
      exact joins.unmarked
    rw [loader.resolve_unmarked unmarked, joins.cache, faithful.filter_alive]
  · intro loader thread name artifact joins answer created
    rcases (loader.resolver.answered thread name s'.world).source artifact answer with
      ⟨other, entry, -⟩ | listed
    · by_cases same : other = cache
      · exact faithful.entry name artifact (same ▸ entry)
      · rw [faithful.others other same] at entry
        exact absurd (begins.grounded other name artifact entry) (Nat.not_le.mpr created)
    · exact absurd (joins.ancestor artifact listed) (Nat.not_le.mpr created)
  · intro name undefined
    unfold World.contains Table.contains
    cases found : (s'.world.entries cache).get? name with
    | none => rfl
    | some artifact =>
      have latest := faithful.entry name artifact found
      rw [undefined] at latest
      cases latest

theorem resolve_latest_linkedBehind :
    let unit : Artifact := ⟨1, ⟨"a", by decide⟩, 0, .nothing⟩
    let s : System Unit := ⟨{ created := 1, held := [1] }, ()⟩
    ∃ history s', History.run .processWide
        [.define (.linkedBehind unit) .first unit.name [],
          .resolve (.linkedBehind unit) .first unit.name,
          .invalidate unit.name, .release unit, .clear] [] s = some (history, s') ∧
      history.Answers .processWide s.world s'.world := by
  intro unit s
  have joins : (Loader.linkedBehind unit).Joins .processWide s.world .first :=
    ⟨rfl, rfl, by decide⟩
  refine resolve_latest s ⟨fun _ => rfl, ⟨?_, fun _ _ => rfl⟩, fun _ _ => rfl, ?_⟩ _ ?_
  · intro name lock tabled
    cases tabled
  · intro other name artifact entry
    cases entry
  · intro op member
    simp only [List.mem_cons, List.not_mem_nil, or_false] at member
    rcases member with rfl | rfl | rfl | rfl | rfl
    · exact joins
    · exact joins
    · trivial
    · trivial
    · trivial

end Reload
