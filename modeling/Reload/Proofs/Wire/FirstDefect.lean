import Reload.Proofs.Wire.Canonical

/-!
Bytes are refused for the first thing that is wrong with them. A reader walks over the bytes and does not
know where it stands, yet what it refuses them for can be told from fixed places: each format has its
conditions, in their order, on the bytes at given offsets (`Image.checks`, `SourceUnit.checks`), and the
first one that holds is reported (`Wire.decode_reports_first`).
-/

namespace Reload

namespace Wire

/-! ### Fields at their offsets -/

/-- The bytes of a field that begins at an offset. -/
def fieldAt (offset width : Nat) (bytes : Bytes) : Bytes :=
  (bytes.drop offset).take width

/-- The number that a field spells. -/
def numberAt (offset width : Nat) (bytes : Bytes) : Nat :=
  ofBigEndian (fieldAt offset width bytes)

/-! ### The first of several conditions -/

/-- The defect of the first condition that holds. -/
inductive FirstOf : List (Prop × Defect) → Defect → Prop where
  | here {condition : Prop} {defect : Defect} {rest : List (Prop × Defect)} (holds : condition) :
    FirstOf ((condition, defect) :: rest) defect
  | later {condition : Prop} {other defect : Defect} {rest : List (Prop × Defect)}
      (fails : ¬condition) (first : FirstOf rest defect) :
    FirstOf ((condition, other) :: rest) defect

/-- What is read is refused for the defect of the first condition that holds, and is accepted if none
    does. -/
structure Reports {α : Type} (checks : List (Prop × Defect)) (outcome : Except Defect α) : Prop where
  error : ∀ defect, outcome = .error defect ↔ FirstOf checks defect
  ok : (∃ value, outcome = .ok value) ↔ ∀ check ∈ checks, ¬check.1

variable {α β : Type} {condition : Prop} {defect : Defect} {checks : List (Prop × Defect)}

theorem Reports.passed (value : α) : Reports [] (.ok value : Except Defect α) where
  error defect := by
    constructor
    · intro refused
      cases refused
    · intro first
      cases first
  ok := ⟨fun _ check listed => absurd listed (List.not_mem_nil), fun _ => ⟨value, rfl⟩⟩

theorem Reports.found (holds : condition) :
    Reports ((condition, defect) :: checks) (.error defect : Except Defect α) where
  error other := by
    constructor
    · intro refused
      cases refused
      exact .here holds
    · intro first
      cases first with
      | here => rfl
      | later fails => exact absurd holds fails
  ok := by
    constructor
    · rintro ⟨value, accepted⟩
      cases accepted
    · intro none
      exact absurd holds (none (condition, defect) (by simp))

theorem Reports.next (fails : ¬condition) {outcome : Except Defect α}
    (reports : Reports checks outcome) : Reports ((condition, defect) :: checks) outcome where
  error other := by
    rw [reports.error]
    constructor
    · exact .later fails
    · intro first
      cases first with
      | here holds => exact absurd holds fails
      | later _ first => exact first
  ok := by
    rw [reports.ok, List.forall_mem_cons]
    exact ⟨fun none => ⟨fails, none⟩, fun none => none.2⟩

/-! ### Readers -/

/-- A reader that stands at an offset takes the field there, if the bytes reach to its end. -/
theorem takeBytes_drop (field : String) {offset stop : Nat} (width : Nat) (bytes : Bytes)
    (ends : stop = offset + width) (inside : offset ≤ bytes.length) :
    takeBytes field width (bytes.drop offset) =
      if bytes.length < stop then .error (.truncated field)
      else .ok (fieldAt offset width bytes, bytes.drop stop) := by
  subst ends
  unfold takeBytes fieldAt
  rw [List.length_drop, List.drop_drop]
  by_cases short : bytes.length < offset + width
  · rw [if_pos short, if_neg (by omega)]
  · rw [if_neg short, if_pos (by omega)]

/-- No text has bytes that are not UTF-8. -/
theorem ofUtf8?_eq_none_iff {bytes : Bytes} : ofUtf8? bytes = none ↔ ∀ text, utf8 text ≠ bytes := by
  constructor
  · rintro unspelled text rfl
    rw [ofUtf8?_utf8] at unspelled
    cases unspelled
  · intro unspelled
    cases spelled : ofUtf8? bytes with
    | none => rfl
    | some text => exact absurd (utf8_of_ofUtf8? spelled) (unspelled text)

section
variable {field : String} {offset stop width : Nat} {bytes : Bytes} (ends : stop = offset + width)
  (inside : offset ≤ bytes.length)
include ends inside

/-- Reading a field comes before all that is read behind it. -/
theorem reports_takeBytes {next : Bytes × Bytes → Except Defect α}
    (rest : stop ≤ bytes.length → Reports checks (next (fieldAt offset width bytes, bytes.drop stop))) :
    Reports ((bytes.length < stop, .truncated field) :: checks)
      (takeBytes field width (bytes.drop offset) >>= next) := by
  rw [takeBytes_drop field width bytes ends inside]
  by_cases short : bytes.length < stop
  · rw [if_pos short]
    exact .found short
  · rw [if_neg short]
    exact .next short (rest (Nat.le_of_not_lt short))

theorem reports_takeNumber {next : Nat × Bytes → Except Defect α}
    (rest : stop ≤ bytes.length → Reports checks (next (numberAt offset width bytes, bytes.drop stop))) :
    Reports ((bytes.length < stop, .truncated field) :: checks)
      (takeNumber field width (bytes.drop offset) >>= next) := by
  unfold takeNumber
  rw [bind_assoc]
  exact reports_takeBytes ends inside rest

theorem reports_takeText {next : String × Bytes → Except Defect α}
    (rest : stop ≤ bytes.length → ∀ text, Reports checks (next (text, bytes.drop stop))) :
    Reports ((bytes.length < stop, .truncated field) ::
        (∀ text, utf8 text ≠ fieldAt offset width bytes, .notUtf8 field) :: checks)
      (takeText field width (bytes.drop offset) >>= next) := by
  unfold takeText
  rw [bind_assoc]
  refine reports_takeBytes ends inside fun long => ?_
  cases spelled : ofUtf8? (fieldAt offset width bytes) with
  | none =>
    simp only [spelled]
    exact .found (ofUtf8?_eq_none_iff.mp spelled)
  | some text =>
    simp only [spelled]
    have isText : ¬∀ text, utf8 text ≠ fieldAt offset width bytes := fun unspelled =>
      unspelled text (utf8_of_ofUtf8? spelled)
    exact .next isText (rest long text)

end

theorem reports_takeMagic {field : String} {magic bytes : Bytes} {stop : Nat}
    {next : Bytes → Except Defect α} (ends : stop = magic.length)
    (rest : stop ≤ bytes.length → Reports checks (next (bytes.drop stop))) :
    Reports ((bytes.length < stop, .truncated field) :: (¬magic <+: bytes, .badMagic) :: checks)
      (takeMagic field magic bytes >>= next) := by
  subst ends
  unfold takeMagic
  rw [bind_assoc]
  refine reports_takeBytes (Nat.zero_add _).symm (Nat.zero_le _) fun long => ?_
  have marked : fieldAt 0 magic.length bytes = magic ↔ magic <+: bytes := by
    rw [fieldAt, List.drop_zero, List.prefix_iff_eq_take, eq_comm]
  by_cases begins : magic <+: bytes
  · simp only [if_pos (marked.mpr begins)]
    exact .next (not_not_intro begins) (rest long)
  · simp only [if_neg fun same => begins (marked.mp same)]
    exact .found begins

end Wire

namespace Image

open Wire

/-! ### Images -/

/-- What can be wrong with the fields of an image. -/
def fieldChecks (bytes : Bytes) : List (Prop × Defect) :=
  let name := numberAt 6 2 bytes
  let body := numberAt (8 + name) 4 bytes
  [(bytes.length < 4, .truncated "image magic"),
    (¬magic <+: bytes, .badMagic),
    (bytes.length < 6, .truncated "image API level"),
    (bytes.length < 8, .truncated "image name length"),
    (bytes.length < 8 + name, .truncated "image name"),
    (∀ text, utf8 text ≠ fieldAt 8 name bytes, .notUtf8 "image name"),
    (bytes.length < 12 + name, .truncated "image body length"),
    (bytes.length < 12 + name + body, .truncated "image body"),
    (12 + name + body < bytes.length, .trailingBytes)]

/-- What can be wrong with the bytes of an image. The checksum comes before the fields. -/
def checks (bytes : Bytes) : List (Prop × Defect) :=
  let payload := bytes.take (bytes.length - 4)
  (bytes.length < 4, .truncated "image checksum") ::
    (numberAt (bytes.length - 4) 4 bytes ≠ (Crc32.checksum payload).toNat, .checksumMismatch) ::
      fieldChecks payload

theorem reports_ofFields (bytes : Bytes) : Reports (fieldChecks bytes) (ofFields bytes) := by
  unfold fieldChecks ofFields
  refine reports_takeMagic rfl fun long => ?_
  refine reports_takeNumber (by omega) long fun long => ?_
  refine reports_takeNumber (by omega) long fun long => ?_
  refine reports_takeText (by omega) long fun long name => ?_
  refine reports_takeNumber (by omega) long fun long => ?_
  refine reports_takeBytes rfl long fun long => ?_
  by_cases behind : 12 + numberAt 6 2 bytes + numberAt (8 + numberAt 6 2 bytes) 4 bytes < bytes.length
  · have more : bytes.drop (12 + numberAt 6 2 bytes + numberAt (8 + numberAt 6 2 bytes) 4 bytes) ≠ [] := by
      rw [Ne, List.drop_eq_nil_iff]
      omega
    simp only [if_neg more]
    exact .found behind
  · simp only [if_pos (List.drop_eq_nil_iff.mpr (Nat.le_of_not_lt behind))]
    exact .next behind (.passed _)

theorem reports_decode (bytes : Bytes) : Reports (checks bytes) (decode bytes) := by
  unfold checks decode
  by_cases short : bytes.length < 4
  · rw [if_pos short]
    exact .found short
  rw [if_neg short]
  refine .next short ?_
  -- The last four bytes are all that stands from their offset on.
  have trailer : ofBigEndian (bytes.drop (bytes.length - 4)) = numberAt (bytes.length - 4) 4 bytes := by
    rw [numberAt, fieldAt, List.take_of_length_le (by rw [List.length_drop]; omega)]
  rw [trailer]
  by_cases checked : numberAt (bytes.length - 4) 4 bytes =
      (Crc32.checksum (bytes.take (bytes.length - 4))).toNat
  · rw [if_neg (not_not_intro checked.symm)]
    exact .next (not_not_intro checked) (reports_ofFields _)
  · rw [if_pos (Ne.symm checked)]
    exact .found checked

end Image

namespace SourceUnit

open Wire

/-! ### Source units -/

/-- What can be wrong with the bytes of a source unit. Nothing is wrong with a body. -/
def checks (bytes : Bytes) : List (Prop × Defect) :=
  let path := numberAt 4 2 bytes
  [(bytes.length < 4, .truncated "unit magic"),
    (¬magic <+: bytes, .badMagic),
    (bytes.length < 6, .truncated "unit path length"),
    (bytes.length < 6 + path, .truncated "unit path"),
    (∀ text, utf8 text ≠ fieldAt 6 path bytes, .notUtf8 "unit path")]

theorem reports_decode (bytes : Bytes) : Reports (checks bytes) (decode bytes) := by
  unfold checks decode
  refine reports_takeMagic rfl fun long => ?_
  refine reports_takeNumber (by omega) long fun long => ?_
  exact reports_takeText rfl long fun long path => .passed _

end SourceUnit

/-- Bytes are refused as an image, or as a source unit, for the first of the conditions of the format that
    holds, and for no other reason. They are accepted if and only if none holds. -/
theorem Wire.decode_reports_first (bytes : Bytes) :
    Reports (Image.checks bytes) (Image.decode bytes) ∧
      Reports (SourceUnit.checks bytes) (SourceUnit.decode bytes) :=
  ⟨Image.reports_decode bytes, SourceUnit.reports_decode bytes⟩

/-- Behind a checksum that is right, a name length that reaches into the checksum is told before the name
    is read, and the mark of the format before that length. -/
example : Image.decode (Image.withChecksum [0x48, 0x53, 0x49, 0x31, 0, 26, 0, 1]) =
      .error (.truncated "image name") ∧
    Image.decode (Image.withChecksum [0x48, 0x53, 0x49, 0x32, 0, 26, 0, 1]) = .error .badMagic := by
  decide +kernel

end Reload
