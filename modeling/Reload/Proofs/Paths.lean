import Reload.Proofs.Packing

/-!
Names and the paths of units. The path of a name has slashes for its dots, and a path is read with dots
for its slashes, so a name comes back from its path unless it has slashes of its own; those become dots.
What is read from a path has none, and comes back from then on. Two names have one path if and only if
they differ only in slashes for dots, so under strict names a unit is packed under one slashless name at
most (`Name.path_determines_slashless`).
-/

namespace Reload

namespace Name

/-! ### Dots for slashes and slashes for dots -/

theorem dotted_slashed (text : List Char) : dotted (slashed text) = dotted text := by
  rw [dotted, dotted, slashed, List.map_map]
  refine List.map_congr_left fun c _ => ?_
  rw [Function.comp_apply]
  by_cases dot : c = '.'
  · rw [dot]
    rfl
  · rw [if_neg dot]

theorem slashed_dotted (path : List Char) : slashed (dotted path) = slashed path := by
  rw [slashed, slashed, dotted, List.map_map]
  refine List.map_congr_left fun c _ => ?_
  rw [Function.comp_apply]
  by_cases slash : c = '/'
  · rw [slash]
    rfl
  · rw [if_neg slash]

/-- Texts are the same with slashes for dots if and only if they are the same with dots for slashes. -/
theorem slashed_eq_slashed_iff {text other : List Char} :
    slashed text = slashed other ↔ dotted text = dotted other := by
  constructor
  · intro same
    rw [← dotted_slashed text, same, dotted_slashed]
  · intro same
    rw [← slashed_dotted text, same, slashed_dotted]

private theorem map_replaced_eq_self_iff {old new : Char} (differ : new ≠ old) {text : List Char} :
    (text.map fun c => if c = old then new else c) = text ↔ old ∉ text := by
  induction text with
  | nil => simp
  | cons c rest ih =>
    by_cases same : c = old
    · simp [same, differ]
    · have other : ¬old = c := fun equal => same equal.symm
      simp [same, other, ih]

theorem dotted_eq_self_iff {path : List Char} : dotted path = path ↔ '/' ∉ path :=
  map_replaced_eq_self_iff (by decide)

theorem slashed_eq_self_iff {text : List Char} : slashed text = text ↔ '.' ∉ text :=
  map_replaced_eq_self_iff (by decide)

theorem slash_notMem_dotted (path : List Char) : '/' ∉ dotted path := by
  refine dotted_eq_self_iff.mp ?_
  calc dotted (dotted path) = dotted (slashed (dotted path)) := (dotted_slashed _).symm
    _ = dotted (slashed path) := by rw [slashed_dotted]
    _ = dotted path := dotted_slashed path

/-! ### The extension -/

/-- A path with the extension at its end loses it, and no other that stands before it. -/
theorem stem_append (text : List Char) : stem (text ++ extension.toList) = text := by
  have listed : extension.toList.isSuffixOf (text ++ extension.toList) = true :=
    List.isSuffixOf_iff_suffix.mpr (List.suffix_append _ _)
  rw [stem, if_pos listed, List.length_append, String.length_toList, Nat.add_sub_cancel]
  exact List.take_left

theorem toList_path (name : Name) :
    name.path.toList = slashed name.text.toList ++ extension.toList := by
  rw [path, String.toList_append, String.toList_ofList]

/-! ### Names from paths -/

/-- A name is read from its path with dots for its slashes. -/
theorem ofPath_path (name : Name) :
    ofPath name.path = ofText (String.ofList (dotted name.text.toList)) := by
  rw [ofPath, toList_path, stem_append, dotted_slashed]

theorem ofPath_eq_ok_iff {path : String} {name : Name} :
    ofPath path = .ok name ↔ dotted (stem path.toList) = name.text.toList := by
  rw [ofPath, ofText_eq_ok_iff, ← String.toList_inj, String.toList_ofList]

theorem ofPath_path_eq_ok_iff {name : Name} : ofPath name.path = .ok name ↔ '/' ∉ name.text.toList := by
  rw [ofPath_eq_ok_iff, toList_path, stem_append, dotted_slashed, dotted_eq_self_iff]

theorem slash_notMem_of_ofPath {path : String} {name : Name} (read : ofPath path = .ok name) :
    '/' ∉ name.text.toList := by
  rw [← ofPath_eq_ok_iff.mp read]
  exact slash_notMem_dotted _

/-- A name has the path that it was read from, if that ends in the extension and has no other dot. -/
theorem path_eq_iff_of_ofPath {path : String} {name : Name} (read : ofPath path = .ok name) :
    name.path = path ↔ ∃ rest : String, path = rest ++ extension ∧ '.' ∉ rest.toList := by
  have own : name.path.toList = slashed (stem path.toList) ++ extension.toList := by
    rw [toList_path, ← ofPath_eq_ok_iff.mp read, slashed_dotted]
  constructor
  · intro same
    refine ⟨String.ofList (slashed name.text.toList), same.symm, ?_⟩
    rw [String.toList_ofList, ← slashed_eq_self_iff, slashed_eq_slashed_iff, dotted_slashed]
  · rintro ⟨rest, rfl, dotless⟩
    rw [← String.toList_inj, own, String.toList_append, stem_append, slashed_eq_self_iff.mpr dotless]

/-- Two names have the same path if and only if they are the same with dots for slashes. -/
theorem path_eq_path_iff {name other : Name} :
    name.path = other.path ↔ dotted name.text.toList = dotted other.text.toList := by
  rw [← String.toList_inj, toList_path, toList_path, List.append_cancel_right_eq,
    slashed_eq_slashed_iff]

theorem path_injective {name other : Name} (slashless : '/' ∉ name.text.toList)
    (slashless' : '/' ∉ other.text.toList) (same : name.path = other.path) : name = other := by
  rw [path_eq_path_iff, dotted_eq_self_iff.mpr slashless, dotted_eq_self_iff.mpr slashless',
    String.toList_inj] at same
  rw [Name.mk.injEq]
  exact same

end Name

/-- Under strict names, what is packed declares the path of the name. -/
theorem Settings.declares_of_pack {settings : Settings} {name : Name} {raw image : Bytes}
    (strict : settings.strictNames) (packed : settings.pack name raw = .ok image) :
    ∃ unit, SourceUnit.decode raw = .ok unit ∧ unit.path = name.path := by
  obtain ⟨unit, admits, -⟩ := admits_of_pack packed
  exact ⟨unit, admits.decoded, admits.declared strict⟩

namespace Name

/-- Names and paths undo each other where no slash is lost. A name is read from its path with dots for
    its slashes, so it comes back if and only if it has none. What is read from a path has none, and it
    has that path if and only if the path is slashes and segments before the extension. Names have one
    path if they are one name with dots for slashes; so slashless names have paths of their own, and under
    strict names the same bytes are packed under one of them at most. -/
theorem path_determines_slashless (name : Name) (path : String) :
    ofPath name.path = ofText (String.ofList (dotted name.text.toList)) ∧
    (ofPath name.path = .ok name ↔ '/' ∉ name.text.toList) ∧
    (∀ found, ofPath path = .ok found → '/' ∉ found.text.toList ∧ ofPath found.path = .ok found ∧
      (found.path = path ↔ ∃ rest : String, path = rest ++ extension ∧ '.' ∉ rest.toList)) ∧
    (∀ other : Name, name.path = other.path ↔
      dotted name.text.toList = dotted other.text.toList) ∧
    ∀ other : Name, '/' ∉ name.text.toList → '/' ∉ other.text.toList →
      (name.path = other.path → name = other) ∧
      ∀ (settings : Settings) (raw image image' : Bytes), settings.strictNames →
        settings.pack name raw = .ok image → settings.pack other raw = .ok image' → name = other := by
  refine ⟨ofPath_path name, ofPath_path_eq_ok_iff, fun found read => ?_, fun other => path_eq_path_iff,
    fun other slashless slashless' => ⟨path_injective slashless slashless', ?_⟩⟩
  · have slashless := slash_notMem_of_ofPath read
    exact ⟨slashless, ofPath_path_eq_ok_iff.mpr slashless, path_eq_iff_of_ofPath read⟩
  · intro settings raw image image' strict packed packed'
    obtain ⟨unit, decoded, declared⟩ := settings.declares_of_pack strict packed
    obtain ⟨unit', decoded', declared'⟩ := settings.declares_of_pack strict packed'
    obtain rfl := Except.ok.inj (decoded.symm.trans decoded')
    exact path_injective slashless slashless' (declared.symm.trans declared')

/-- A name with a slash, and with the extension at its end, has the path of another name. -/
example : (⟨"a/b.unit", by decide⟩ : Name).path = "a/b/unit.unit" ∧
    ofPath "a/b/unit.unit" = .ok ⟨"a.b.unit", by decide⟩ := by
  decide +kernel

end Name

end Reload
