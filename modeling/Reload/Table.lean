/-!
Finite tables with distinct keys. A table is read through `get?`; the order of its entries has
no meaning.
-/

namespace Reload

/-- A finite table from keys to values. No key occurs twice. -/
structure Table (κ : Type) (α : Type) where
  entries : List (κ × α)
  nodup : (entries.map Prod.fst).Nodup

namespace Table

variable {κ α : Type}

def empty : Table κ α := ⟨[], List.nodup_nil⟩

instance : Inhabited (Table κ α) := ⟨empty⟩

def size (table : Table κ α) : Nat := table.entries.length

def keys (table : Table κ α) : List κ := table.entries.map Prod.fst

def values (table : Table κ α) : List α := table.entries.map Prod.snd

private theorem nodup_keys_filter {entries : List (κ × α)} (p : κ × α → Bool)
    (nodup : (entries.map Prod.fst).Nodup) : ((entries.filter p).map Prod.fst).Nodup :=
  List.Pairwise.sublist (List.filter_sublist.map _) nodup

/-- The entries whose value passes the test. -/
def filter (table : Table κ α) (p : α → Bool) : Table κ α :=
  ⟨table.entries.filter (fun entry => p entry.2), nodup_keys_filter _ table.nodup⟩

/-- Each entry passes a test or fails it. -/
theorem size_filter_add (table : Table κ α) (p : α → Bool) :
    (table.filter p).size + (table.filter fun value => !p value).size = table.size := by
  have split := List.length_eq_countP_add_countP (l := table.entries) fun entry => p entry.2
  simpa [size, filter, ← List.countP_eq_length_filter] using split.symm

variable [DecidableEq κ]

def get? (table : Table κ α) (key : κ) : Option α :=
  (table.entries.find? (fun entry => entry.1 = key)).map Prod.snd

def contains (table : Table κ α) (key : κ) : Bool := (table.get? key).isSome

/-- The table without the entry of a key. -/
def erase (table : Table κ α) (key : κ) : Table κ α :=
  ⟨table.entries.filter (fun entry => entry.1 ≠ key), nodup_keys_filter _ table.nodup⟩

/-- The table with one value at a key, in place of any other. -/
def insert (table : Table κ α) (key : κ) (value : α) : Table κ α :=
  ⟨(key, value) :: (table.erase key).entries, by
    simp [erase, nodup_keys_filter _ table.nodup]⟩

/-! ### Reading a changed table -/

@[simp] theorem get?_empty (key : κ) : (empty : Table κ α).get? key = none := rfl

private theorem find?_filter_ne (entries : List (κ × α)) (erased key : κ) :
    (entries.filter (fun entry => entry.1 ≠ erased)).find? (fun entry => entry.1 = key) =
      if key = erased then none else entries.find? (fun entry => entry.1 = key) := by
  induction entries with
  | nil => simp
  | cons entry rest ih =>
    by_cases atErased : entry.1 = erased <;> by_cases atKey : entry.1 = key <;>
      by_cases same : key = erased <;> simp_all

@[simp] theorem get?_erase (table : Table κ α) (erased key : κ) :
    (table.erase erased).get? key = if key = erased then none else table.get? key := by
  unfold get? erase
  rw [find?_filter_ne]
  split <;> rfl

@[simp] theorem get?_insert (table : Table κ α) (inserted key : κ) (value : α) :
    (table.insert inserted value).get? key =
      if key = inserted then some value else table.get? key := by
  have erased := table.get?_erase inserted key
  unfold get? at erased ⊢
  by_cases same : key = inserted
  · simp [insert, same]
  · have other : ¬ inserted = key := fun equal => same equal.symm
    simpa [insert, same, other] using erased

private theorem find?_filter_value (p : α → Bool) (key : κ) (entries : List (κ × α))
    (nodup : (entries.map Prod.fst).Nodup) :
    ((entries.filter (fun entry => p entry.2)).find? (fun entry => entry.1 = key)).map Prod.snd =
      ((entries.find? (fun entry => entry.1 = key)).map Prod.snd).filter p := by
  induction entries with
  | nil => rfl
  | cons entry rest ih =>
    rw [List.map_cons, List.nodup_cons] at nodup
    by_cases atKey : entry.1 = key
    · have absent : rest.find? (fun entry => entry.1 = key) = none := by
        rw [List.find?_eq_none]
        intro other member
        have listed : other.1 ∈ rest.map Prod.fst := List.mem_map_of_mem member
        have different : other.1 ≠ key := fun same => nodup.1 (by rw [atKey, ← same]; exact listed)
        simpa using different
      have inRest := ih nodup.2
      rw [absent, Option.map_none, Option.filter_none] at inRest
      by_cases passes : p entry.2
      · simp [passes, atKey, Option.filter]
      · rw [List.filter_cons_of_neg (by simpa using passes), inRest]
        simp [passes, atKey, Option.filter]
    · by_cases passes : p entry.2 <;> simpa [passes, atKey] using ih nodup.2

/-- Filtering keeps the entry of a key exactly if its value passes the test. -/
theorem get?_filter (table : Table κ α) (p : α → Bool) (key : κ) :
    (table.filter p).get? key = (table.get? key).filter p :=
  find?_filter_value p key table.entries table.nodup

/-! ### The entries of a table -/

private theorem find?_of_mem (entries : List (κ × α)) (nodup : (entries.map Prod.fst).Nodup)
    {key : κ} {value : α} (member : (key, value) ∈ entries) :
    entries.find? (fun entry => entry.1 = key) = some (key, value) := by
  induction entries with
  | nil => cases member
  | cons entry rest ih =>
    rw [List.map_cons, List.nodup_cons] at nodup
    rcases List.mem_cons.mp member with same | later
    · subst same; simp
    · have listed : key ∈ rest.map Prod.fst := List.mem_map_of_mem later
      have other : ¬ entry.1 = key := fun same => nodup.1 (same ▸ listed)
      simpa [other] using ih nodup.2 later

/-- A table has the entries that it is read to have. -/
theorem mem_entries_iff {table : Table κ α} {key : κ} {value : α} :
    (key, value) ∈ table.entries ↔ table.get? key = some value := by
  constructor
  · intro member
    unfold get?
    rw [find?_of_mem table.entries table.nodup member]
    rfl
  · intro found
    obtain ⟨entry, at_entry, same⟩ := Option.map_eq_some_iff.mp found
    have atKey : entry.1 = key := by simpa using List.find?_some at_entry
    have member := List.mem_of_find?_eq_some at_entry
    rwa [← atKey, ← same]

/-- Filtering depends on the test only at the values that the table has. -/
theorem filter_congr {table : Table κ α} {p q : α → Bool}
    (agree : ∀ key value, table.get? key = some value → p value = q value) :
    table.filter p = table.filter q := by
  have same : table.entries.filter (fun entry => p entry.2) =
      table.entries.filter (fun entry => q entry.2) :=
    List.filter_congr fun entry member => agree entry.1 entry.2 (mem_entries_iff.mp member)
  simp [filter, same]

end Table

end Reload
