import Reload.Proofs.Paths

/-!
What is a name. A text is a name if and only if it is segments with dots between them, and then it has no
other segments. A path is read as a name if and only if its stem is segments with slashes or dots between
them. What is refused comes back in the refusal (`Name.accepted_iff_grammar`).
-/

namespace Reload

/-! ### Segments with separators between them -/

/-- Segments with one separator between each two. No segment is empty, and none has a separator. -/
inductive Separated (separates : Char → Bool) : List Char → Prop where
  | one {segment : List Char} (filled : segment ≠ []) (plain : ∀ c ∈ segment, separates c = false) :
    Separated separates segment
  | more {segment rest : List Char} {separator : Char} (filled : segment ≠ [])
      (plain : ∀ c ∈ segment, separates c = false) (between : separates separator = true)
      (later : Separated separates rest) : Separated separates (segment ++ separator :: rest)

namespace Separated

variable {separates : Char → Bool}

/-- The first segment may be longer. -/
theorem cons {c : Char} {text : List Char} (separated : Separated separates text)
    (plain : separates c = false) : Separated separates (c :: text) := by
  cases separated with
  | one _ others => exact .one (List.cons_ne_nil _ _) (List.forall_mem_cons.mpr ⟨plain, others⟩)
  | @more segment rest separator _ others between later =>
    have longer : ∀ d ∈ c :: segment, separates d = false := List.forall_mem_cons.mpr ⟨plain, others⟩
    exact .more (List.cons_ne_nil _ _) longer between later

/-- A text whose parts between separators are all filled is segments with separators between them. -/
private theorem of_splitOnP {text : List Char}
    (filled : ∀ segment ∈ text.splitOnP separates, segment ≠ []) : Separated separates text := by
  -- Of a segment that has begun, the rest may be empty, so the induction looks at two characters.
  induction text using List.twoStepInduction with
  | nil => exact absurd rfl (filled [] (List.mem_singleton_self _))
  | singleton c =>
    cases plain : separates c with
    | true => simp [List.splitOnP_cons_eq_if_modifyHead, plain] at filled
    | false => exact .one (List.cons_ne_nil _ _) (List.forall_mem_singleton.mpr plain)
  | cons_cons c d rest later next =>
    rw [List.splitOnP_cons_eq_if_modifyHead] at filled
    cases plain : separates c with
    | true => simp [plain] at filled
    | false =>
      rw [plain, if_neg Bool.false_ne_true, List.splitOnP_cons_eq_if_modifyHead] at filled
      cases between : separates d with
      | true =>
        rw [between, if_pos rfl, List.modifyHead_cons, List.forall_mem_cons] at filled
        show Separated separates ([c] ++ d :: rest)
        exact .more filled.1 (List.forall_mem_singleton.mpr plain) between (later filled.2)
      | false =>
        refine (next d fun segment part => ?_).cons plain
        obtain ⟨first, others, parts⟩ :=
          List.exists_cons_of_ne_nil (List.splitOnP_ne_nil separates rest)
        rw [between, if_neg Bool.false_ne_true, parts, List.modifyHead_cons, List.modifyHead_cons,
          List.forall_mem_cons] at filled
        rw [List.splitOnP_cons_eq_if_modifyHead, between, if_neg Bool.false_ne_true, parts,
          List.modifyHead_cons, List.mem_cons] at part
        rcases part with rfl | other
        · exact List.cons_ne_nil _ _
        · exact filled.2 segment other

theorem iff_splitOnP {text : List Char} :
    Separated separates text ↔ ∀ segment ∈ text.splitOnP separates, segment ≠ [] := by
  refine ⟨fun separated => ?_, of_splitOnP⟩
  induction separated with
  | one filled plain =>
    rw [List.splitOnP_eq_singleton plain, List.forall_mem_singleton]
    exact filled
  | more filled plain between _ ih =>
    rw [List.splitOnP_append_cons _ _ between, List.splitOnP_eq_singleton plain,
      List.singleton_append, List.forall_mem_cons]
    exact ⟨filled, ih⟩

end Separated

namespace Name

/-! ### The segments of a name -/

/-- Segments that a name may have. -/
structure Segments (segments : List (List Char)) : Prop where
  nonempty : segments ≠ []
  filled : ∀ segment ∈ segments, segment ≠ []
  dotless : ∀ segment ∈ segments, '.' ∉ segment

/-- The text of segments with dots between them. -/
def joined (segments : List (List Char)) : String := String.ofList (['.'].intercalate segments)

theorem joined_segments (text : String) : joined (segments text) = text := by
  rw [joined, segments, List.intercalate_splitOn, String.ofList_toList]

theorem segments_joined {parts : List (List Char)} (nonempty : parts ≠ [])
    (dotless : ∀ segment ∈ parts, '.' ∉ segment) : segments (joined parts) = parts := by
  rw [segments, joined, String.toList_ofList, List.splitOn_intercalate _ dotless nonempty]

private theorem dot_notMem_of_mem_splitOn {text segment : List Char}
    (part : segment ∈ text.splitOn '.') : '.' ∉ segment := by
  induction text generalizing segment with
  | nil =>
    rw [List.splitOn_nil, List.mem_singleton] at part
    rw [part]
    exact List.not_mem_nil
  | cons c rest ih =>
    rw [List.splitOn_cons_eq_if_modifyHead] at part
    by_cases dot : c = '.'
    · rw [if_pos (beq_iff_eq.mpr dot), List.mem_cons] at part
      rcases part with rfl | later
      · exact List.not_mem_nil
      · exact ih later
    · obtain ⟨first, others, parts⟩ := List.exists_cons_of_ne_nil (List.splitOn_ne_nil '.' rest)
      rw [if_neg (by simpa using dot), parts, List.modifyHead_cons, List.mem_cons] at part
      rw [parts] at ih
      rcases part with rfl | later
      · rw [List.mem_cons, not_or]
        exact ⟨fun same => dot same.symm, ih (List.mem_cons_self ..)⟩
      · exact ih (List.mem_cons_of_mem _ later)

/-- A text without empty segments is what its segments spell, and no other text has them. -/
theorem valid_iff_joined {text : String} :
    Valid text ↔ ∃ parts, Segments parts ∧ joined parts = text := by
  constructor
  · intro valid
    exact ⟨segments text, ⟨List.splitOn_ne_nil _ _, valid, fun _ part => dot_notMem_of_mem_splitOn part⟩,
      joined_segments text⟩
  · rintro ⟨parts, spells, rfl⟩
    rw [Valid, segments_joined spells.nonempty spells.dotless]
    exact spells.filled

theorem joined_injective {parts others : List (List Char)} (spells : Segments parts)
    (spells' : Segments others) (same : joined parts = joined others) : parts = others := by
  rw [← segments_joined spells.nonempty spells.dotless, same,
    segments_joined spells'.nonempty spells'.dotless]

/-! ### Where an empty segment stands -/

/-- A segment stands between dots, or at an end of the text. -/
private theorem stands_of_mem {parts : List (List Char)} {segment : List Char}
    (part : segment ∈ parts) : ∃ before after,
      ['.'].intercalate parts = before ++ segment ++ after ∧
      (before = [] ∨ ['.'] <:+ before) ∧ (after = [] ∨ ['.'] <+: after) := by
  induction parts with
  | nil => cases part
  | cons first rest ih =>
    cases rest with
    | nil =>
      rw [List.mem_singleton] at part
      exact ⟨[], [], by simp [part], .inl rfl, .inl rfl⟩
    | cons second others =>
      rw [List.intercalate_cons_cons]
      rcases List.mem_cons.mp part with rfl | later
      · exact ⟨[], ['.'] ++ ['.'].intercalate (second :: others), by simp, .inl rfl,
          .inr (List.prefix_append _ _)⟩
      · obtain ⟨before, after, spelled, ends, begins⟩ := ih later
        refine ⟨first ++ ['.'] ++ before, after, ?_, .inr ?_, begins⟩
        · rw [spelled]
          simp only [List.append_assoc]
        · rcases ends with rfl | dotted
          · rw [List.append_nil]
            exact List.suffix_append _ _
          · exact dotted.trans (List.suffix_append _ _)

private theorem empty_mem_of_cut {text : List Char} (before after : List Char)
    (cut : text = before ++ '.' :: after)
    (empty : [] ∈ before.splitOn '.' ∨ [] ∈ after.splitOn '.') : [] ∈ text.splitOn '.' := by
  rw [cut, List.splitOn_append_cons_self]
  exact List.mem_append.mpr empty

/-- A text has no empty segment if and only if it is not empty, no dot is at its ends, and no two dots
    are beside each other. -/
theorem valid_iff_dots {text : String} : Valid text ↔
    text ≠ "" ∧ ¬['.'] <+: text.toList ∧ ¬['.'] <:+ text.toList ∧ ¬['.', '.'] <:+: text.toList := by
  have nothing : ([] : List Char) ∈ ([] : List Char).splitOn '.' := List.mem_singleton_self _
  constructor
  · intro valid
    refine ⟨?_, ?_, ?_, ?_⟩
    · rintro rfl
      exact valid [] nothing rfl
    · rintro ⟨after, cut⟩
      exact valid [] (empty_mem_of_cut [] after cut.symm (.inl nothing)) rfl
    · rintro ⟨before, cut⟩
      exact valid [] (empty_mem_of_cut before [] cut.symm (.inr nothing)) rfl
    · rintro ⟨before, after, cut⟩
      have inner : [] ∈ ('.' :: after).splitOn '.' :=
        empty_mem_of_cut [] after rfl (.inl nothing)
      refine valid [] (empty_mem_of_cut before ('.' :: after) ?_ (.inr inner)) rfl
      rw [← cut, List.append_assoc]
      rfl
  · rintro ⟨some, unbegun, unended, apart⟩ segment part rfl
    obtain ⟨before, after, spelled, ends, begins⟩ := stands_of_mem part
    rw [segments, List.intercalate_splitOn, List.append_nil] at spelled
    rcases ends with rfl | ⟨before, rfl⟩
    · rcases begins with rfl | begins
      · exact some (String.toList_eq_nil_iff.mp spelled)
      · exact unbegun (spelled ▸ begins)
    · rcases begins with rfl | ⟨after, rfl⟩
      · refine unended ?_
        rw [spelled, List.append_nil]
        exact List.suffix_append _ _
      · refine apart ⟨before, after, ?_⟩
        rw [spelled]
        simp only [List.append_assoc, List.cons_append, List.nil_append]

/-! ### Paths -/

/-- Whether a character stands between the segments of a path. -/
def separates (c : Char) : Bool := c = '/' || c = '.'

/-- The segments of a path with dots for its slashes are the parts between its separators. -/
private theorem splitOn_dotted (path : List Char) :
    (dotted path).splitOn '.' = path.splitOnP separates := by
  induction path with
  | nil => rfl
  | cons c rest ih =>
    have step : dotted (c :: rest) = (if c = '/' then '.' else c) :: dotted rest := rfl
    rw [step, List.splitOn_cons_eq_if_modifyHead, List.splitOnP_cons_eq_if_modifyHead, ih]
    by_cases slash : c = '/'
    · simp [slash, separates]
    · by_cases dot : c = '.' <;> simp [slash, dot, separates]

theorem valid_dotted_iff {path : List Char} :
    Valid (String.ofList (dotted path)) ↔ Separated separates path := by
  rw [Separated.iff_splitOnP, ← splitOn_dotted, Valid, segments, String.toList_ofList]

theorem stem_of_not_suffix {path : List Char} (bare : ¬extension.toList <:+ path) : stem path = path := by
  rw [stem, if_neg fun listed => bare (List.isSuffixOf_iff_suffix.mp listed)]

/-! ### What is accepted -/

theorem exists_ofText_iff {text : String} :
    (∃ name, ofText text = .ok name ∧ name.text = text) ↔ Valid text := by
  constructor
  · rintro ⟨name, -, rfl⟩
    exact name.valid
  · intro valid
    exact ⟨⟨text, valid⟩, dif_pos valid, rfl⟩

theorem ofText_eq_error_iff {text : String} : ofText text = .error ⟨text⟩ ↔ ¬Valid text := by
  refine ⟨fun refused valid => ?_, fun invalid => dif_neg invalid⟩
  rw [ofText, dif_pos valid] at refused
  cases refused

/-- A text is accepted, unchanged, if and only if it is segments with dots between them. These are then its
    only segments. That is to say that it is not empty, neither begins nor ends with a dot, and has no two
    dots beside each other. Any other text is refused, and comes back in the refusal. A path loses one
    extension at its end, and is accepted if and only if the rest is segments with slashes or dots between
    them; a refusal has that rest with dots for its slashes. -/
theorem accepted_iff_grammar (text path : String) :
    ((∃ name, ofText text = .ok name ∧ name.text = text) ↔
      ∃! parts, Segments parts ∧ joined parts = text) ∧
    ((∃ parts, Segments parts ∧ joined parts = text) ↔
      text ≠ "" ∧ ¬['.'] <+: text.toList ∧ ¬['.'] <:+ text.toList ∧ ¬['.', '.'] <:+: text.toList) ∧
    (ofText text = .error ⟨text⟩ ↔ ¬∃ parts, Segments parts ∧ joined parts = text) ∧
    (∀ rest, path = rest ++ extension → stem path.toList = rest.toList) ∧
    ((¬∃ rest, path = rest ++ extension) → stem path.toList = path.toList) ∧
    ((∃ name, ofPath path = .ok name) ↔ Separated separates (stem path.toList)) ∧
    (ofPath path = .error ⟨String.ofList (dotted (stem path.toList))⟩ ↔
      ¬Separated separates (stem path.toList)) := by
  refine ⟨?_, ?_, ?_, ?_, ?_, ?_, ?_⟩
  · rw [exists_ofText_iff, valid_iff_joined]
    constructor
    · rintro ⟨parts, spells, rfl⟩
      exact ⟨parts, ⟨spells, rfl⟩, fun others spelled => joined_injective spelled.1 spells spelled.2⟩
    · exact ExistsUnique.exists
  · rw [← valid_iff_joined, valid_iff_dots]
  · rw [ofText_eq_error_iff, valid_iff_joined]
  · rintro rest rfl
    rw [String.toList_append, stem_append]
  · intro bare
    refine stem_of_not_suffix fun ⟨rest, ends⟩ => bare ⟨String.ofList rest, ?_⟩
    rw [← String.toList_inj, String.toList_append, String.toList_ofList, ends]
  · rw [← valid_dotted_iff, ← exists_ofText_iff]
    refine exists_congr fun name => (and_iff_left_of_imp fun read => ?_).symm
    exact (ofText_eq_ok_iff.mp read).symm
  · rw [ofPath, ofText_eq_error_iff, valid_dotted_iff]

/-- A path may mix slashes and dots, and it loses one extension only. -/
example : ofPath "pkg.sub/Foo.unit.unit" = .ok ⟨"pkg.sub.Foo.unit", by decide⟩ ∧
    ofPath "/Foo.unit" = .error ⟨".Foo"⟩ ∧ ofPath ".unit" = .error ⟨""⟩ := by
  decide +kernel

end Name

end Reload
