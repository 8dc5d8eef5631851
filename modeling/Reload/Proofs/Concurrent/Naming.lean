import Reload.Proofs.Concurrent.Mismatch
import Reload.Proofs.Naming

/-!
Definitions and the names of their artifacts. Packers may put any name into an image. While definitions
run beside each other and beside programs that keep artifacts to their names, whoever asks for a name
gets an artifact of that name or none, and a definition whose image has another name is bound to fail
(`Pool.artifacts_have_the_names_asked_for`).
-/

namespace Reload

variable {ρ : Type}

/-! ### What definitions have -/

namespace Ref

@[simp] theorem artifact_mem_given {artifact : Artifact} {found : Option Artifact} :
    Ref.artifact artifact ∈ given found ↔ found = some artifact := by
  cases found <;> simp [given, eq_comm]

@[simp] theorem context_notMem_given {context : MemoryContext} {found : Option Artifact} :
    Ref.context context ∉ given found := by
  cases found <;> simp [given]

@[simp] theorem context_mem_made {context : MemoryContext} {found : Option MemoryContext} :
    Ref.context context ∈ made found ↔ found = some context := by
  cases found <;> simp [made, eq_comm]

@[simp] theorem artifact_notMem_made {artifact : Artifact} {found : Option MemoryContext} :
    Ref.artifact artifact ∉ made found := by
  cases found <;> simp [made]

end Ref

namespace Place

/-- The context that a definition has made and not dropped. -/
def opened? : Place ρ MemoryContext → Option MemoryContext
  | .inside _ (.load context _) | .inside _ (.publish context _) | .inside _ (.close context _) =>
    some context
  | _ => none

theorem context_mem_keeps {place : Place ρ MemoryContext} {context : MemoryContext} :
    .context context ∈ place.keeps + place.gives ↔ place.opened? = some context := by
  cases place with
  | inside lock stage => cases stage <;> simp [keeps, gives, opened?, eq_comm]
  | _ => simp [keeps, gives, opened?]

theorem artifact_mem_keeps {place : Place ρ MemoryContext} {artifact : Artifact} :
    .artifact artifact ∈ place.keeps + place.gives ↔ place.artifact? = some artifact := by
  cases place with
  | inside lock stage => cases stage <;> simp [keeps, gives, artifact?, eq_comm]
  | _ => simp [keeps, gives, artifact?]

end Place

theorem Place.Comes.opened {call : Call ρ MemoryContext} {refs : Multiset Ref}
    {place : Place ρ MemoryContext} (comes : place.Comes call refs) {context : MemoryContext} :
    place.opened? = some context ↔ .context context ∈ refs := by
  rw [← Place.context_mem_keeps, comes.has]

theorem Place.Comes.artifact {call : Call ρ MemoryContext} {refs : Multiset Ref}
    {place : Place ρ MemoryContext} (comes : place.Comes call refs) {artifact : Artifact} :
    place.artifact? = some artifact ↔ .artifact artifact ∈ refs := by
  rw [← Place.artifact_mem_keeps, comes.has]

/-- A context that is known makes no difference to what is known. -/
theorem Units.add_known {units : Units} {opened : Option MemoryContext}
    (knows : ∀ context, opened = some context → units.Knows context) : units.add opened = units := by
  cases opened with
  | none => rfl
  | some context => exact replace_eq_self (knows context rfl).unit

/-! ### One step of a definition -/

namespace Call

/-- A definition whose host keeps units in memory, and whose loader has an ancestor that was put
    together of what there is, if it has one. Its packer may be any. -/
structure Names (call : Call ρ MemoryContext) : Prop where
  memory : call.InMemoryHost
  ancestor : ∀ ancestor, call.loader.ancestor = some ancestor → ancestor.Assembled

theorem Names.assembled {call : Call ρ MemoryContext} (names : call.Names) :
    call.loader.resolver.Assembled := by
  rw [call.loader.resolver_eq]
  exact .guarded _ _ names.ancestor

/-- A place at which the context of a definition is known, and its artifact has the name that is being
    defined. -/
structure Agrees (units : Units) (call : Call ρ MemoryContext) (place : Place ρ MemoryContext) :
    Prop where
  hosted : place.Hosted call
  knows : ∀ context, place.opened? = some context → units.Knows context
  artifact : ∀ artifact, place.artifact? = some artifact → artifact.name = call.name

variable {call : Call ρ MemoryContext} {units units' : Units} {place next : Place ρ MemoryContext}
  {w w' : World}

theorem Agrees.mono (agrees : call.Agrees units place)
    (kept : ∀ id name, units id = some name → units' id = some name) :
    call.Agrees units' place where
  hosted := agrees.hosted
  knows context opened :=
    ⟨kept _ _ (agrees.knows context opened).unit, (agrees.knows context opened).parent⟩
  artifact := agrees.artifact

/-- A definition that has nothing. -/
theorem agrees_of_nothing (units : Units) (comes : next.Comes call 0) : call.Agrees units next where
  hosted := comes.hosted
  knows context opened := by simpa using comes.opened.mp opened
  artifact artifact found := by simpa using comes.artifact.mp found

/-- A step of the packer leaves a definition with nothing. -/
theorem agrees_of_packs (moves : call.Moves place next w w') (packs : place.packs) :
    call.Agrees units next := by
  cases moves with
  | packs _ comes => exact agrees_of_nothing units comes
  | forgets here | opens here | loads here | publishes here | closes here =>
    rw [here] at packs
    cases packs
  | aside own =>
    rw [own] at packs
    cases packs

/-- A definition that has what it had. -/
theorem Agrees.kept (agrees : call.Agrees units place) (comes : next.Comes call place.keeps) :
    call.Agrees units next where
  hosted := comes.hosted
  knows context opened := by
    refine agrees.knows context (Place.context_mem_keeps.mp ?_)
    exact Multiset.mem_add.mpr (.inl (comes.opened.mp opened))
  artifact artifact found := by
    refine agrees.artifact artifact (Place.artifact_mem_keeps.mp ?_)
    exact Multiset.mem_add.mpr (.inl (comes.artifact.mp found))

private theorem toOption_eq_some {ε α : Type} {answer : Except ε α} {value : α} :
    answer.toOption = some value ↔ answer = .ok value := by
  cases answer <;> simp [Except.toOption]

/-- A step of a definition, if it is none of its packer, keeps artifacts to their names. -/
theorem Moves.acts (moves : call.Moves place next w w') (names : call.Names)
    (agrees : call.Agrees units place) (named : w.Named units) (own : place.packs = false) :
    Acts units w (units.add next.opened?) w' ∧ call.Agrees (units.add next.opened?) next := by
  -- A step that makes no context leaves the names of units as they are.
  have known (goesOn : call.Agrees units next) (acts : Acts units w units w') :
      Acts units w (units.add next.opened?) w' ∧ call.Agrees (units.add next.opened?) next := by
    rw [Units.add_known goesOn.knows]
    exact ⟨acts, goesOn⟩
  cases moves with
  | packs packs => simp [own] at packs
  | forgets here change comes =>
    subst change
    exact known (agrees_of_nothing units comes) (.invalidate ..)
  | @opens lock api image here change comes =>
    subst change
    have opened : next.opened? =
        (MemoryContext.instantiate api image call.loader.resolver w).1.toOption := by
      refine Option.ext fun context => ?_
      rw [comes.opened, Ref.context_mem_made]
    rw [opened]
    refine ⟨.instantiate api image names.assembled, comes.hosted, fun context made => ?_, ?_⟩
    · rw [opened] at made
      rw [made]
      exact (MemoryContext.knows_instantiate units names.assembled (toOption_eq_some.mp made)).1
    · intro artifact found
      simpa using comes.artifact.mp found
  | @loads lock context here change comes =>
    subst here change
    have knows := agrees.knows context rfl
    obtain ⟨loaded, -⟩ := MemoryContext.named_load named knows call.thread call.name
    refine known ⟨comes.hosted, fun other opened => ?_, fun artifact found => ?_⟩ (.load knows ..)
    · obtain rfl : other = context := by simpa using comes.opened.mp opened
      exact knows
    · refine loaded artifact (toOption_eq_some.mp ?_)
      simpa using comes.artifact.mp found
  | @publishes lock context artifact here change comes =>
    subst here change
    have same := agrees.artifact artifact rfl
    refine known (agrees.kept comes) ?_
    rw [← same]
    exact .publish call.loader.cache artifact
  | @closes lock context result here change comes =>
    subst here change
    refine known ⟨comes.hosted, fun other opened => ?_, fun artifact found => ?_⟩ (.close context)
    · simpa using comes.opened.mp opened
    · refine agrees.artifact artifact ?_
      exact Ref.artifact_mem_given.mp (comes.artifact.mp found)
  | aside own written frame comes =>
    refine known (agrees.kept comes) ?_
    rw [frame]
    exact .aside rfl rfl rfl

end Call

/-! ### The names in a pool -/

/-- Definitions in memory may begin at any time, and anything else may happen. -/
def Rules.named : Rules ρ MemoryContext := ⟨fun call _ => call.Names, fun _ _ => True⟩

namespace Pool

variable {pool pool' : Pool ρ MemoryContext} {units units' : Units}
  {move : Option (Move ρ MemoryContext)}

/-- The context that the definition at an index has made and not dropped. -/
def opened? (pool : Pool ρ MemoryContext) (index : Nat) : Option MemoryContext :=
  (pool.calls index).bind fun running => running.place.opened?

/-- How it is recorded which units contexts have. What is done outside of definitions, and by packers,
    keeps artifacts to their names; nothing is asked of the definitions themselves. -/
inductive Recorded (pool : Pool ρ MemoryContext) (units : Units) :
    Option (Move ρ MemoryContext) → Pool ρ MemoryContext → Units → Prop where
  | acts {move : Option (Move ρ MemoryContext)} {pool' : Pool ρ MemoryContext} {units' : Units}
      (free : ∀ own, move = some own → own.running.place.packs)
      (acts : Acts units pool.world units' pool'.world) : Recorded pool units move pool' units'
  | own {move : Move ρ MemoryContext} {pool' : Pool ρ MemoryContext}
      (own : move.running.place.packs = false) :
    Recorded pool units (some move) pool' (units.add (pool'.opened? move.index))

/-- All artifacts in caches, in contexts and in definitions have the names that they are asked for. -/
structure Named (pool : Pool ρ MemoryContext) (units : Units) : Prop where
  world : pool.world.Named units
  calls : ∀ index running, pool.calls index = some running →
    running.call.Names ∧ running.call.Agrees units running.place

/-- A change of the state while one definition goes to another place, where it agrees with what is known
    now. -/
private theorem Named.put (named : pool.Named units) (acts : Acts units pool.world units' pool'.world)
    (goesOn : ∀ index running, pool'.calls index = some running →
      (pool.calls index = some running) ∨
        running.call.Names ∧ running.call.Agrees units' running.place) : pool'.Named units' := by
  obtain ⟨world, kept⟩ := acts.named named.world
  refine ⟨world, fun index running here => ?_⟩
  rcases goesOn index running here with before | after
  · obtain ⟨names, agrees⟩ := named.calls index running before
    exact ⟨names, agrees.mono kept⟩
  · exact after

private theorem named_step (named : pool.Named units) (next : Step Rules.named pool move pool')
    (recorded : pool.Recorded units move pool' units') : pool'.Named units' := by
  cases next with
  | begin unused allowed =>
    cases recorded with
    | acts free acts =>
      refine named.put acts fun other found there => ?_
      rcases calls_put there with ⟨-, rfl⟩ | ⟨-, before⟩
      · exact .inr ⟨allowed, trivial, nofun, nofun⟩
      · exact .inl before
  | outside =>
    cases recorded with
    | acts free acts => exact named.put acts fun _ _ there => .inl there
  | @advance index running turn here advances ready =>
    obtain ⟨names, agrees⟩ := named.calls index running here
    have moves := Call.moves_advance names.memory agrees.hosted advances pool.system
    cases recorded with
    | acts free acts =>
      refine named.put acts fun other found there => ?_
      rcases calls_put there with ⟨-, rfl⟩ | ⟨-, before⟩
      · exact .inr ⟨names, Call.agrees_of_packs moves (free _ rfl)⟩
      · exact .inl before
    | own own =>
      have opened : (pool.put index { running with place := turn.next pool.system }
          (turn.act pool.system)).opened? index = (turn.next pool.system).opened? := by
        rw [Pool.opened?, put_calls_self]
        rfl
      rw [opened]
      obtain ⟨acts, agrees⟩ := moves.acts names agrees named.world own
      refine named.put acts fun other found there => ?_
      rcases calls_put there with ⟨-, rfl⟩ | ⟨-, before⟩
      · exact .inr ⟨names, agrees⟩
      · exact .inl before

/-- In every course from nothing, artifacts keep to their names. -/
private theorem Course.named {client : ρ} {trace : List (Move ρ MemoryContext)}
    (course : Course Rules.named Recorded ⟨⟨{}, client⟩, fun _ => none⟩ (fun _ => none) trace pool
      units) : pool.Named units := by
  induction course with
  | start =>
    refine ⟨.start, fun index running here => ?_⟩
    cases here
  | step _ next recorded ih => exact named_step ih next recorded

/-- Whoever asks for a name in this state gets an artifact of that name, or none. -/
structure Answers (pool : Pool ρ MemoryContext) (units : Units) : Prop where
  looksUp : ∀ cache name artifact, (pool.world.lookup cache name).1 = some artifact →
    artifact.name = name
  resolves : ∀ resolver : Resolver, resolver.Assembled → ∀ thread name artifact,
    (resolver.resolve thread name pool.world).1 = .ok artifact → artifact.name = name
  loads : ∀ context, units.Knows context → ∀ thread name artifact,
    (context.load thread name pool.world).1 = .ok artifact → artifact.name = name
  publishes : ∀ index running, pool.calls index = some running → ∀ lock context artifact,
    running.place = .inside lock (.publish context artifact) → artifact.name = running.call.name
  defines : ∀ index running, pool.calls index = some running → ∀ artifact,
    running.place = .ended (.ok (.ok artifact)) → artifact.name = running.call.name

private theorem Named.answers (named : pool.Named units) : pool.Answers units where
  looksUp _ _ _ found := named.world.lookup found
  resolves _ assembled _ _ _ found := named.world.resolve assembled found
  loads context knows thread name artifact given :=
    (MemoryContext.named_load named.world knows thread name).1 artifact given
  publishes index running here lock context artifact publishes := by
    obtain ⟨-, agrees⟩ := named.calls index running here
    exact agrees.artifact artifact (by rw [publishes]; rfl)
  defines index running here artifact ended := by
    obtain ⟨-, agrees⟩ := named.calls index running here
    exact agrees.artifact artifact (by rw [ended]; rfl)

/-! ### Definitions that are bound to fail, beside others -/

/-- What is kept beside a course: which units contexts have, and which scopes were begun by hand. -/
def Watched (pool : Pool ρ MemoryContext) (now : Units × Scopes) (move : Option (Move ρ MemoryContext))
    (pool' : Pool ρ MemoryContext) (now' : Units × Scopes) : Prop :=
  pool.Recorded now.1 move pool' now'.1 ∧ pool.Disciplined now.2 move pool' now'.2

variable {now now' : Units × Scopes} {trace later : List (Move ρ MemoryContext)} {index : Nat}
  {running : Running ρ MemoryContext} {cause : Failure} {client : ρ}

private theorem Course.recorded {start : Pool ρ MemoryContext}
    (course : Course Rules.named Watched start now trace pool now') :
    Course Rules.named Recorded start now.1 trace pool now'.1 :=
  course.map Prod.fst id fun watched => watched.1

/-- A step of a definition that is none of its callbacks. -/
private theorem watched_own {move : Move ρ MemoryContext} (own : move.running.place.packs = false)
    (quiet : move.running.place.callback = false) :
    pool.Watched now (some move) pool' (now.1.add (pool'.opened? move.index), now.2) :=
  ⟨.own own, by simp [Disciplined, quiet]⟩

/-- The marker of a definition stands as long as its place tells. -/
private theorem marked_of_course
    (course : Course Rules.named Watched ⟨⟨{}, client⟩, fun _ => none⟩
      (fun _ => none, fun _ => none) trace pool now)
    (here : pool.calls index = some running) (marked : running.place.marked) :
    pool.world.marker running.call.thread = some running.call.name := by
  have disciplined : Course Rules.named Disciplined ⟨⟨{}, client⟩, fun _ => none⟩ _ trace pool now.2 :=
    course.map Prod.snd id And.right
  have matching := disciplined.matching fun _ => rfl
  refine matching.marker.mpr ⟨.inr index, ?_⟩
  rw [live, here]
  exact if_pos marked

/-- A doomed definition stays doomed whatever happens beside it, and none of its steps changes a
    cache. -/
private theorem doomed_of_course
    (before : Course Rules.named Watched ⟨⟨{}, client⟩, fun _ => none⟩
      (fun _ => none, fun _ => none) trace pool now)
    (here : pool.calls index = some running) (memory : running.call.InMemoryHost)
    (doomed : running.place.Doomed running.call cause)
    (after : Course Rules.named Watched pool now later pool' now') :
    (∃ place, pool'.calls index = some { running with place } ∧
      place.Doomed running.call cause) ∧
    ∀ move ∈ later, move.index = index → move.after.entries = move.before.entries := by
  induction after with
  | start =>
    refine ⟨⟨running.place, here, doomed⟩, fun move listed => ?_⟩
    cases listed
  | @step earlier middle _ _ _ move goesOn next _ ih =>
    obtain ⟨⟨place, there, doomed⟩, spares⟩ := ih
    have course := before.append goesOn
    cases next with
    | @begin other call unused allowed =>
      have apart : index ≠ other := by
        rintro rfl
        cases unused.symm.trans there
      exact ⟨⟨place, (put_calls_of_ne _ _ _ apart).trans there, doomed⟩, spares⟩
    | outside => exact ⟨⟨place, there, doomed⟩, spares⟩
    | @advance other found turn there' advances ready =>
      by_cases same : index = other
      · subst same
        cases there.symm.trans there'
        have falls := Call.falls_advance memory doomed advances (marked_of_course course there)
        refine ⟨⟨_, put_calls_self .., falls.next⟩, fun move listed own => ?_⟩
        rcases List.mem_cons.mp listed with rfl | listed
        · exact falls.entries
        · exact spares move listed own
      · refine ⟨⟨place, (put_calls_of_ne _ _ _ same).trans there, doomed⟩, fun move listed own => ?_⟩
        rcases List.mem_cons.mp listed with rfl | listed
        · exact absurd own.symm same
        · exact spares move listed own

/-- From here on, whatever happens beside it, the definition at an index changes no cache; left alone,
    it ends with this failure; and if it has ended, then with this failure. -/
def Fails (pool : Pool ρ MemoryContext) (now : Units × Scopes) (index : Nat)
    (failure : DefinitionFailure) : Prop :=
  ∀ later pool' now', Course Rules.named Watched pool now later pool' now' →
    (∀ move ∈ later, move.index = index → move.after.entries = move.before.entries) ∧
    ∃ running, pool'.calls index = some running ∧
      (∃ system, (running.call.rest running.place).run pool'.system =
        some (.ok (.error failure), system) ∧ system.world.entries = pool'.world.entries) ∧
      ∀ ending, running.place = .ended ending → ending = .ok (.error failure)

private theorem fails_of_doomed
    (course : Course Rules.named Watched ⟨⟨{}, client⟩, fun _ => none⟩
      (fun _ => none, fun _ => none) trace pool now)
    (here : pool.calls index = some running) (memory : running.call.InMemoryHost)
    (doomed : running.place.Doomed running.call cause) :
    pool.Fails now index ⟨running.call.name, cause⟩ := by
  intro later pool' now' goesOn
  obtain ⟨⟨place, there, still⟩, spares⟩ := doomed_of_course course here memory doomed goesOn
  obtain ⟨system, ran, entries⟩ := still.ends memory
    (marked_of_course (course.append goesOn) there)
  refine ⟨spares, _, there, ⟨system, ran, entries⟩, ?_⟩
  rintro ending rfl
  cases still
  rfl

/-! ### Artifacts have the names they are asked for -/

/-- However packers name the units of their images: whoever asks for a name gets an artifact of that
    name, or none. And a definition whose packer has given an image of another name fails, because the
    host does not take that image or else because it has no such unit; it publishes nothing. -/
theorem artifacts_have_the_names_asked_for {client : ρ} {trace : List (Move ρ MemoryContext)}
    {pool : Pool ρ MemoryContext} :
    (∀ {units : Units}, Course Rules.named Recorded ⟨⟨{}, client⟩, fun _ => none⟩ (fun _ => none) trace
      pool units → pool.Answers units) ∧
    ∀ {now : Units × Scopes}, Course Rules.named Watched ⟨⟨{}, client⟩, fun _ => none⟩
        (fun _ => none, fun _ => none) trace pool now →
      ∀ index running, pool.calls index = some running → ∀ lock image,
        running.place = running.call.atPacked lock (.ok (.ok image)) →
      ∀ decoded, Image.decode image = .ok decoded → decoded.name ≠ running.call.name.text →
      ∀ api, running.call.loader.host = Host.memory api →
        pool.Fails now index ⟨running.call.name, decoded.mismatch api running.call.name⟩ := by
  refine ⟨fun course => course.named.answers, ?_⟩
  intro now course index running here lock image place decoded spells other api host
  have makes : running.place = .inside lock
      (.instantiate (MemoryContext.makes api image running.call.loader.resolver)) := by
    rw [place]
    simp only [Call.atPacked, host]
    rfl
  refine fails_of_doomed course here ⟨api, host⟩ ?_
  rw [makes]
  exact .instantiate spells other rfl

/-- A definition whose packer gives the image of another unit, beside an artifact that was published. -/
theorem artifacts_have_the_names_asked_for_foreign :
    let unit : Artifact := ⟨1, ⟨"a", by decide⟩, 0, .nothing⟩
    let image : Bytes :=
      [0x48, 0x53, 0x49, 0x31, 0, 26, 0, 1, 0x61, 0, 0, 0, 1, 7, 0x88, 0x7B, 0x69, 0x44]
    let name : Name := ⟨"b", by decide⟩
    let loader : Loader (Packer Unit) (Host Unit MemoryContext) :=
      (Loader.create ⟨fun _ _ raw => pure raw⟩ (Host.memory 26) {} {}).1
    ∃ trace pool now, Course Rules.named Watched ⟨⟨{}, ()⟩, fun _ => none⟩
        (fun _ => none, fun _ => none) trace pool now ∧
      (∃ running, pool.calls 0 = some running ∧ running.call = ⟨loader, .first, name, image⟩ ∧
        running.place = running.call.atPacked none (.ok (.ok image))) ∧
      Image.decode image = .ok ⟨26, "a", [7]⟩ ∧
      (pool.world.lookup .processWide unit.name).1 = some unit ∧ pool.Answers now.1 ∧
      pool.Fails now 0 ⟨name, .notFound ⟨name⟩⟩ := by
  intro unit image name loader
  have names : (⟨loader, .first, name, image⟩ : Call Unit MemoryContext).Names :=
    ⟨⟨26, rfl⟩, fun _ known => by cases known⟩
  have spells : Image.decode image = .ok ⟨26, "a", [7]⟩ := by decide +kernel
  let bare : Pool Unit MemoryContext := ⟨⟨{}, ()⟩, fun _ => none⟩
  let held : World := { created := 1, held := [1] }
  let stocked : Pool Unit MemoryContext :=
    ⟨⟨(held.publish .processWide unit.name unit).2, ()⟩, fun _ => none⟩
  have creates : Acts (fun _ => none) bare.world (fun _ => none) held := .aside rfl rfl rfl
  have publishes : bare.Watched (fun _ => none, fun _ => none) none stocked
      (fun _ => none, fun _ => none) :=
    ⟨.acts (fun _ own => by cases own) (creates.both (.publish .processWide unit)), .aside rfl⟩
  have begins : stocked.Watched (fun _ => none, fun _ => none) none
      (stocked.put 0 ⟨⟨loader, .first, name, image⟩, .check, 1⟩ stocked.system)
      (fun _ => none, fun _ => none) :=
    ⟨.acts (fun _ own => by cases own) (.aside rfl rfl rfl), .aside rfl⟩
  have empty : Course Rules.named Watched bare (fun _ => none, fun _ => none) [] _ _ := .start
  have published := empty.outside stocked.system trivial publishes
  have begun := published.begin 0 ⟨loader, .first, name, image⟩ rfl names begins
  have checked := begun.advance 0 rfl (watched_own rfl rfl)
  have marked := checked.advance 0 rfl (watched_own rfl rfl)
  have packed := marked.advance 0 rfl (watched_own rfl rfl)
  have fails := artifacts_have_the_names_asked_for.2 packed 0 _ rfl none image rfl _ spells
    (by decide) 26 rfl
  exact ⟨_, _, _, packed, ⟨_, rfl, rfl, rfl⟩, spells, rfl,
    artifacts_have_the_names_asked_for.1 packed.recorded, fails⟩

/-- An image of another name that needs a higher level than the host has. The definition fails for the
    level, not because its name is missing. -/
theorem outdated_host_hides_other_name :
    let name : Name := ⟨"a", by decide⟩
    let image : Bytes :=
      [0x48, 0x53, 0x49, 0x31, 0, 99, 0, 1, 0x62, 0, 0, 0, 1, 7, 0x52, 0xEF, 0x6E, 0x64]
    let loader : Loader (Packer Unit) (Host Unit MemoryContext) :=
      (Loader.create ⟨fun _ _ raw => pure raw⟩ (Host.memory 26) {} {}).1
    Image.decode image = .ok ⟨99, "b", [7]⟩ ∧
    ((loader.define .first name image).run.run ⟨{}, ()⟩).map Prod.fst =
      some (.ok (.error ⟨name, .outdatedHost 99 26⟩)) ∧
    Failure.outdatedHost 99 26 ≠ .notFound ⟨name⟩ := by
  intro name image loader
  refine ⟨by decide +kernel, ?_, nofun⟩
  decide +kernel

end Pool

end Reload
