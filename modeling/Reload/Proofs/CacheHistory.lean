import Mathlib.Data.Set.Card
import Reload.Proofs.Resolution

/-!
A cache shows its history and no more. Its entries are weak, dead ones linger until something is
published, and one name may replace what another has made dead; yet what the cache answers follows from
what was done with it, and from which artifacts are alive (`cache_tells_history`). A look-up finds the
artifact that was published last, while that is alive. An entry is there as long as that artifact was
alive whenever something was published since.
-/

namespace Reload

/-! ### Counting entries -/

namespace Table

variable {κ α : Type} [DecidableEq κ]

/-- A table has as many entries as keys. -/
theorem size_eq_ncard (table : Table κ α) : table.size = {key | table.contains key}.ncard := by
  have listed : {key | table.contains key} = (table.keys.toFinset : Set κ) := by
    ext key
    simp only [Set.mem_ofPred_eq, List.coe_toFinset, contains, Option.isSome_iff_exists, keys,
      List.mem_map]
    constructor
    · rintro ⟨value, found⟩
      exact ⟨(key, value), mem_entries_iff.mpr found, rfl⟩
    · rintro ⟨⟨_, value⟩, member, rfl⟩
      exact ⟨value, mem_entries_iff.mp member⟩
  have distinct : table.keys.Nodup := table.nodup
  rw [listed, Set.ncard_coe_finset, List.toFinset_card_of_nodup distinct, keys, List.length_map,
    size]

theorem size_insert (table : Table κ α) (key : κ) (value : α) :
    (table.insert key value).size = (table.erase key).size + 1 := rfl

/-- Erasing a key takes its one entry away, if there is one. -/
theorem size_erase_add (table : Table κ α) (key : κ) :
    (table.erase key).size + (if table.contains key then 1 else 0) = table.size := by
  have listed : key ∈ table.keys ↔ table.contains key := by
    simp only [keys, List.mem_map, contains, Option.isSome_iff_exists]
    constructor
    · rintro ⟨⟨_, value⟩, member, rfl⟩
      exact ⟨value, mem_entries_iff.mp member⟩
    · rintro ⟨value, found⟩
      exact ⟨(key, value), mem_entries_iff.mpr found, rfl⟩
  have once : (if table.contains key then 1 else 0) =
      table.entries.countP fun entry => entry.1 = key := by
    have count := table.nodup.count (a := key)
    rw [List.count, List.countP_map] at count
    simp only [← listed]
    exact count.symm
  have split := List.length_eq_countP_add_countP (l := table.entries) fun entry =>
    decide (entry.1 = key)
  rw [once, size, size, erase, split, ← List.countP_eq_length_filter, Nat.add_comm]
  simp

end Table

/-! ### What is done with a cache -/

/-- What is done with a cache, through any copy of it, and with artifacts. -/
inductive CacheOp where
  | publish (name : Name) (artifact : Artifact)
  | invalidate (name : Name)
  | clear
  | lookup (name : Name)
  | contains (name : Name)
  | size
  /-- Somebody makes an artifact, and holds it. -/
  | create (name : Name) (imageSize : Nat) (payload : Payload)
  /-- One more holder takes an artifact. -/
  | hold (artifact : Artifact)
  | release (artifact : Artifact)

namespace CacheOp

/-- The state after an operation. A look-up leaves one more reference to what it finds. -/
def perform (cache : CacheId) (w : World) : CacheOp → World
  | publish name artifact => (w.publish cache name artifact).2
  | invalidate name => (w.invalidate cache name).2
  | clear => w.clear cache
  | lookup name => (w.lookup cache name).2
  | contains _ | size => w
  | create name imageSize payload => (w.create name imageSize payload).2
  | hold artifact => w.retain artifact
  | release artifact => w.release artifact

/-- Whoever publishes an artifact, or hands it to another holder, holds it. -/
def Held (w : World) : CacheOp → Prop
  | publish _ artifact | hold artifact => w.alive artifact
  | _ => True

end CacheOp

/-- What was done, each with the state in which it was done, the latest first. -/
abbrev CacheHistory : Type := List (CacheOp × World)

namespace CacheHistory

/-- The artifact that was published last under a name, unless the name was invalidated or the cache
    cleared since. -/
def latest (name : Name) : CacheHistory → Option Artifact
  | [] => none
  | (.publish published artifact, _) :: before =>
    if name = published then some artifact else latest name before
  | (.invalidate gone, _) :: before => if name = gone then none else latest name before
  | (.clear, _) :: _ => none
  | (.lookup _, _) :: before | (.contains _, _) :: before | (.size, _) :: before
  | (.create .., _) :: before | (.hold _, _) :: before | (.release _, _) :: before =>
    latest name before

/-- The states in which something was published under other names since a name was published or
    withdrawn. -/
def sweeps (name : Name) : CacheHistory → List World
  | [] => []
  | (.publish published _, w) :: before => if name = published then [] else w :: sweeps name before
  | (.invalidate gone, _) :: before => if name = gone then [] else sweeps name before
  | (.clear, _) :: _ => []
  | (.lookup _, _) :: before | (.contains _, _) :: before | (.size, _) :: before
  | (.create .., _) :: before | (.hold _, _) :: before | (.release _, _) :: before =>
    sweeps name before

/-- The histories of a cache from a state on, and the states that they lead to. -/
inductive Run (cache : CacheId) (start : World) : CacheHistory → World → Prop where
  | start : Run cache start [] start
  | step {history : CacheHistory} {w : World} (op : CacheOp) (before : Run cache start history w)
      (held : op.Held w) : Run cache start ((op, w) :: history) (op.perform cache w)

/-! ### What a cache keeps -/

/-- The entries of a cache are what its history says. No artifact comes back to life. -/
structure Kept (cache : CacheId) (history : CacheHistory) (w : World) : Prop where
  entry : ∀ name artifact, (w.entries cache).get? name = some artifact ↔
    history.latest name = some artifact ∧ ∀ moment ∈ history.sweeps name, moment.alive artifact
  lasting : ∀ name artifact, history.latest name = some artifact → w.alive artifact →
    ∀ moment ∈ history.sweeps name, moment.alive artifact
  old : ∀ name artifact, history.latest name = some artifact → artifact.serial ≤ w.created
  created : ∀ serial ∈ w.held, serial ≤ w.created

variable {cache : CacheId} {history : CacheHistory} {w : World}

/-- What leaves the entries alone, and brings no artifact to life but a new one, keeps what the
    history says. -/
theorem Kept.aside {history' : CacheHistory} {w' : World} (kept : Kept cache history w)
    (latest : ∀ name, history'.latest name = history.latest name)
    (sweeps : ∀ name, history'.sweeps name = history.sweeps name)
    (entries : w'.entries = w.entries) (created : w.created ≤ w'.created)
    (held : ∀ serial ∈ w'.held, serial ∈ w.held ∨ (w.created < serial ∧ serial ≤ w'.created)) :
    Kept cache history' w' where
  entry name artifact := by rw [entries, latest, sweeps]; exact kept.entry name artifact
  lasting name artifact published live moment swept := by
    rw [latest] at published
    rw [sweeps] at swept
    refine kept.lasting name artifact published ?_ moment swept
    rcases held _ (World.alive_iff.mp live) with before | ⟨new, -⟩
    · exact World.alive_iff.mpr before
    · exact absurd (kept.old name artifact published) (Nat.not_le.mpr new)
  old name artifact published := by
    rw [latest] at published
    exact Nat.le_trans (kept.old name artifact published) created
  created serial there := by
    rcases held serial there with before | ⟨-, new⟩
    · exact Nat.le_trans (kept.created serial before) created
    · exact new

theorem kept_publish (kept : Kept cache history w) {published : Name} {artifact : Artifact}
    (live : w.alive artifact) :
    Kept cache ((.publish published artifact, w) :: history)
      (w.publish cache published artifact).2 where
  entry name found := by
    simp only [World.publish, replace_self, Table.get?_insert, Table.get?_filter, latest, sweeps]
    by_cases same : name = published
    · simp [same]
    · simp only [same, if_false, Option.filter_eq_some_iff, kept.entry, List.mem_cons,
        forall_eq_or_imp]
      tauto
  lasting name found here alive moment swept := by
    by_cases same : name = published
    · simp [sweeps, same] at swept
    · simp only [latest, sweeps, same, if_false, List.mem_cons] at here swept
      rcases swept with rfl | earlier
      · exact alive
      · exact kept.lasting name found here alive moment earlier
  old name found here := by
    by_cases same : name = published
    · simp only [latest, same, if_true, Option.some.injEq] at here
      exact here ▸ kept.created _ (World.alive_iff.mp live)
    · simp only [latest, same, if_false] at here
      exact kept.old name found here
  created := kept.created

theorem kept_invalidate (kept : Kept cache history w) (gone : Name) :
    Kept cache ((.invalidate gone, w) :: history) (w.invalidate cache gone).2 where
  entry name found := by
    simp only [World.invalidate, replace_self, Table.get?_erase, latest, sweeps]
    by_cases same : name = gone
    · simp [same]
    · simpa [same] using kept.entry name found
  lasting name found here alive moment swept := by
    by_cases same : name = gone
    · simp [latest, same] at here
    · simp only [latest, sweeps, same, if_false] at here swept
      exact kept.lasting name found here alive moment swept
  old name found here := by
    by_cases same : name = gone
    · simp [latest, same] at here
    · simp only [latest, same, if_false] at here
      exact kept.old name found here
  created := kept.created

theorem kept_clear (kept : Kept cache history w) :
    Kept cache ((.clear, w) :: history) (w.clear cache) where
  entry name found := by simp [World.clear, latest]
  lasting _ _ here := by cases here
  old _ _ here := by cases here
  created := kept.created

theorem kept_lookup (kept : Kept cache history w) (name : Name) :
    Kept cache ((.lookup name, w) :: history) (w.lookup cache name).2 := by
  have found := w.lookup_eq cache name
  rw [w.lookup_world cache name]
  cases look : (w.lookup cache name).1 with
  | none =>
    exact kept.aside (fun _ => rfl) (fun _ => rfl) rfl (Nat.le_refl _) fun _ there => .inl there
  | some artifact =>
    rw [look] at found
    have live := (Option.filter_eq_some_iff.mp found.symm).2
    refine kept.aside (fun _ => rfl) (fun _ => rfl) rfl (Nat.le_refl _) fun serial there => .inl ?_
    rcases List.mem_cons.mp there with rfl | before
    · exact World.alive_iff.mp live
    · exact before

/-- Every operation keeps what the history says. -/
theorem kept_step (kept : Kept cache history w) {op : CacheOp} (held : op.Held w) :
    Kept cache ((op, w) :: history) (op.perform cache w) := by
  cases op with
  | publish name artifact => exact kept_publish kept held
  | invalidate name => exact kept_invalidate kept name
  | clear => exact kept_clear kept
  | lookup name => exact kept_lookup kept name
  | contains name =>
    exact kept.aside (fun _ => rfl) (fun _ => rfl) rfl (Nat.le_refl _) fun _ there => .inl there
  | size =>
    exact kept.aside (fun _ => rfl) (fun _ => rfl) rfl (Nat.le_refl _) fun _ there => .inl there
  | create name imageSize payload =>
    refine kept.aside (fun _ => rfl) (fun _ => rfl) rfl (Nat.le_succ _) fun serial there => ?_
    rcases List.mem_cons.mp there with rfl | before
    · exact .inr ⟨Nat.lt_succ_self _, Nat.le_refl _⟩
    · exact .inl before
  | hold artifact =>
    refine kept.aside (fun _ => rfl) (fun _ => rfl) rfl (Nat.le_refl _) fun serial there => .inl ?_
    rcases List.mem_cons.mp there with rfl | before
    · exact World.alive_iff.mp held
    · exact before
  | release artifact =>
    exact kept.aside (fun _ => rfl) (fun _ => rfl) rfl (Nat.le_refl _) fun _ there =>
      .inl (List.mem_of_mem_erase there)

/-- From an empty cache on, what the history says is kept. -/
theorem Run.kept {start : World} (empty : ∀ name, start.contains cache name = false)
    (created : ∀ serial ∈ start.held, serial ≤ start.created) (run : Run cache start history w) :
    Kept cache history w := by
  induction run with
  | start =>
    refine ⟨fun name artifact => ?_, ?_, ?_, created⟩
    · have absent := empty name
      unfold World.contains Table.contains at absent
      simp only [latest, reduceCtorEq, false_and, iff_false]
      intro entry
      simp [entry] at absent
    · intro _ _ here
      cases here
    · intro _ _ here
      cases here
  | step op before held kept => exact kept_step kept held

/-! ### What a cache answers -/

/-- What a cache answers after a history. -/
structure Told (cache : CacheId) (history : CacheHistory) (w : World) : Prop where
  /-- A look-up finds the artifact that was published last, if that is alive, and nothing else. -/
  lookup : ∀ name artifact, (w.lookup cache name).1 = some artifact ↔
    history.latest name = some artifact ∧ w.alive artifact
  /-- An entry is there if its artifact was alive whenever something was published since. -/
  contains : ∀ name, w.contains cache name ↔ ∃ artifact, history.latest name = some artifact ∧
    ∀ moment ∈ history.sweeps name, moment.alive artifact
  size : w.cacheSize cache = {name | w.contains cache name}.ncard
  /-- Publishing tells the number of dead entries, whether they have the name or another one. -/
  swept : ∀ name artifact, w.alive artifact → (w.publish cache name artifact).1 =
    {other | w.contains cache other ∧ (w.lookup cache other).1 = none}.ncard
  /-- Afterwards every entry is alive. -/
  live : ∀ name artifact, w.alive artifact → ∀ other,
    (w.publish cache name artifact).2.contains cache other →
      ((w.publish cache name artifact).2.lookup cache other).1.isSome
  /-- Afterwards the cache has the live entries of other names, and one more. -/
  sizeAfter : ∀ name artifact, w.alive artifact →
    (w.publish cache name artifact).2.cacheSize cache =
      {other | other ≠ name ∧ (w.lookup cache other).1.isSome}.ncard + 1
  /-- No look-up of another name tells that something was published. -/
  unseen : ∀ name artifact other, other ≠ name →
    ((w.publish cache name artifact).2.lookup cache other).1 = (w.lookup cache other).1

private theorem get?_publish (published name : Name) (artifact : Artifact) :
    ((w.publish cache published artifact).2.entries cache).get? name =
      if name = published then some artifact else (w.lookup cache name).1 := by
  rw [w.lookup_eq]
  simp [World.publish, Table.get?_filter]

theorem Kept.told (kept : Kept cache history w) : Told cache history w where
  lookup name artifact := by
    rw [w.lookup_eq, Option.filter_eq_some_iff, kept.entry]
    constructor
    · rintro ⟨⟨published, -⟩, live⟩
      exact ⟨published, live⟩
    · rintro ⟨published, live⟩
      exact ⟨⟨published, kept.lasting name artifact published live⟩, live⟩
  contains name := by
    unfold World.contains Table.contains
    rw [Option.isSome_iff_exists]
    exact exists_congr fun artifact => kept.entry name artifact
  size := Table.size_eq_ncard _
  swept name artifact live := by
    have split := (w.entries cache).size_filter_add w.alive
    have dead : (w.publish cache name artifact).1 =
        ((w.entries cache).filter fun artifact => !w.alive artifact).size := by
      simp only [World.publish]
      omega
    rw [dead, Table.size_eq_ncard]
    congr 1
    ext other
    simp only [Set.mem_ofPred_eq, World.contains, Table.contains, Table.get?_filter, w.lookup_eq]
    cases (w.entries cache).get? other with
    | none => simp
    | some found => cases alive : w.alive found <;> simp [Option.filter, alive]
  live name artifact live other there := by
    unfold World.contains Table.contains at there
    rw [World.lookup_eq]
    rw [get?_publish] at there ⊢
    by_cases same : other = name
    · have alive : (w.publish cache name artifact).2.alive artifact = true := live
      simp [same, Option.filter, alive]
    · rw [if_neg same] at there ⊢
      obtain ⟨found, look⟩ := Option.isSome_iff_exists.mp there
      rw [look]
      rw [w.lookup_eq, Option.filter_eq_some_iff] at look
      have alive : (w.publish cache name artifact).2.alive found = true := look.2
      simp [Option.filter, alive]
  sizeAfter name artifact live := by
    have entries : (w.publish cache name artifact).2.entries cache =
        ((w.entries cache).filter w.alive).insert name artifact := replace_self ..
    rw [World.cacheSize, entries, Table.size_insert, Table.size_eq_ncard]
    congr 2
    ext other
    simp only [Set.mem_ofPred_eq, Table.contains, Table.get?_erase, Table.get?_filter, w.lookup_eq]
    by_cases same : other = name <;> simp [same]
  unseen name artifact other different := by
    rw [World.lookup_eq, get?_publish, if_neg different, w.lookup_eq]
    have alive : (w.publish cache name artifact).2.alive = w.alive := rfl
    rw [alive, Option.filter_filter]
    simp

end CacheHistory

/-- A cache that was empty tells its history: what it answers to look-ups, which entries it has, and
    what publishing sweeps follow from what was done and from which artifacts are alive. -/
theorem cache_tells_history {cache : CacheId} {start w : World} {history : CacheHistory}
    (empty : ∀ name, start.contains cache name = false)
    (created : ∀ serial ∈ start.held, serial ≤ start.created)
    (run : CacheHistory.Run cache start history w) : history.Told cache w :=
  (run.kept empty created).told

/-- An artifact dies under two names. Publishing under one of them sweeps both entries. -/
theorem cache_tells_history_swept :
    let first : Artifact := ⟨1, ⟨"a", by decide⟩, 0, .nothing⟩
    let second : Artifact := ⟨2, ⟨"b", by decide⟩, 0, .nothing⟩
    ∃ history w, CacheHistory.Run .processWide { created := 2, held := [1, 2] } history w ∧
      history.map Prod.fst = [.publish second.name second, .release first,
        .publish second.name first, .publish first.name first] ∧
      history.Told .processWide w ∧ w.contains .processWide first.name = false := by
  intro first second
  have begun : CacheHistory.Run .processWide { created := 2, held := [1, 2] } []
      { created := 2, held := [1, 2] } := .start
  have published := (begun.step (.publish first.name first) rfl).step (.publish second.name first) rfl
  have run := (published.step (.release first) trivial).step (.publish second.name second) rfl
  exact ⟨_, _, run, rfl, cache_tells_history (fun _ => rfl) (by decide) run, rfl⟩

end Reload
