import Reload.Packing
import Reload.Proofs.Wire.Canonical

/-!
What settings pack. A unit is refused for the first of four reasons that applies, and is packed if none
does (`Settings.Verdict`); the verdict is told by what the raw bytes and the image spell, and is the only
one (`Settings.pack_verdict`). Under strict names the path of a unit is as long as its name and an
extension, so two bytes have to count more than the name.
-/

namespace Reload

open Wire

/-! ### Lengths -/

theorem Wire.utf8_append (text other : String) : utf8 (text ++ other) = utf8 text ++ utf8 other := by
  rw [utf8, String.toByteArray_append, ByteArray.data_append, Array.toList_append]
  rfl

theorem Wire.utf8_ofList (text : List Char) :
    utf8 (String.ofList text) = text.flatMap String.utf8EncodeChar := by
  rw [utf8, String.toByteArray_ofList, List.utf8Encode, List.data_toByteArray]

/-- A slash is as long as a dot. -/
private theorem length_utf8_slashed (text : List Char) :
    ((Name.slashed text).flatMap String.utf8EncodeChar).length =
      (text.flatMap String.utf8EncodeChar).length := by
  rw [List.length_flatMap, List.length_flatMap, Name.slashed, List.map_map]
  refine congrArg List.sum (List.map_congr_left fun c _ => ?_)
  rw [Function.comp_apply]
  split
  · next dot => rw [dot]; rfl
  · rfl

/-- The path of a name is longer than the name by the extension. -/
theorem Name.length_path (name : Name) :
    (utf8 name.path).length = (utf8 name.text).length + 5 := by
  have text := utf8_ofList name.text.toList
  rw [String.ofList_toList] at text
  rw [path, utf8_append, List.length_append, utf8_ofList, length_utf8_slashed, text]
  rfl

theorem Image.length_encode {image : Image} {bytes : Bytes} (written : image.encode = .ok bytes) :
    bytes.length = 16 + (utf8 image.name).length + image.body.length := by
  unfold encode at written
  split at written
  · cases written
  · split at written
    · cases written
    · cases written
      simp [withChecksum, fields, magic]
      omega

namespace Settings

variable {settings : Settings} {name : Name} {raw image : Bytes} {unit : SourceUnit}

/-! ### Units that come to be written as images -/

/-- The image that is written for a unit. -/
def imageOf (settings : Settings) (name : Name) (unit : SourceUnit) : Image :=
  { api := settings.minHostApi, name := name.text, body := unit.body }

/-- The raw bytes are few enough and spell the unit, and under strict names it declares the path of the
    name. -/
structure Admits (settings : Settings) (name : Name) (raw : Bytes) (unit : SourceUnit) : Prop where
  fits : raw.length ≤ settings.maxUnitSize
  decoded : SourceUnit.decode raw = .ok unit
  declared : settings.strictNames → unit.path = name.path

theorem pack_of_admits (admits : settings.Admits name raw unit) : settings.pack name raw =
    (settings.imageOf name unit).encode.mapError fun defect => .packing defect.message := by
  have small : settings.isOversized raw.length = false := by simp [isOversized, admits.fits]
  have matching : ¬(settings.strictNames ∧ unit.path ≠ name.path) := fun ⟨strict, differs⟩ =>
    differs (admits.declared strict)
  simp only [pack, small, Bool.false_eq_true, if_false, admits.decoded, if_neg matching]
  unfold imageOf
  split
  · next refused => rw [refused]; rfl
  · next written => rw [written]; rfl

/-- What settings pack is the image of a unit that they admit. -/
theorem admits_of_pack (packed : settings.pack name raw = .ok image) :
    ∃ unit, settings.Admits name raw unit ∧ (settings.imageOf name unit).encode = .ok image := by
  unfold pack at packed
  split at packed
  · cases packed
  · next small =>
    split at packed
    · cases packed
    · next unit decoded =>
      split at packed
      · cases packed
      · next matching =>
        split at packed
        · cases packed
        · next written =>
          cases packed
          refine ⟨unit, ⟨?_, decoded, fun strict => ?_⟩, written⟩
          · simpa [isOversized] using small
          · exact Decidable.not_not.mp fun differs => matching ⟨strict, differs⟩

/-- What settings pack is an image with the body of the unit, under the requested name. -/
theorem encode_of_pack (packed : settings.pack name raw = .ok image) :
    ∃ unit, SourceUnit.decode raw = .ok unit ∧ Image.encode
      { api := settings.minHostApi, name := name.text, body := unit.body } = .ok image := by
  obtain ⟨unit, admits, written⟩ := admits_of_pack packed
  exact ⟨unit, admits.decoded, written⟩

/-- What settings pack spells the name and the body of the unit. -/
theorem decode_pack (packed : settings.pack name raw = .ok image) :
    ∃ unit, SourceUnit.decode raw = .ok unit ∧ Image.decode image =
      .ok { api := settings.minHostApi, name := name.text, body := unit.body } := by
  obtain ⟨unit, decoded, written⟩ := encode_of_pack packed
  exact ⟨unit, decoded, Image.decode_encode written⟩

/-- A unit that fits can be packed. -/
theorem exists_pack (unit : SourceUnit) (written : unit.encode = .ok raw)
    (size : raw.length ≤ settings.maxUnitSize)
    (declared : settings.strictNames → unit.path = name.path)
    (text : (utf8 name.text).length ≤ 65535) (body : unit.body.length ≤ 4294967295) :
    ∃ image, settings.pack name raw = .ok image := by
  rw [pack_of_admits ⟨size, SourceUnit.decode_encode written, declared⟩]
  obtain ⟨image, encoded⟩ : ∃ image, (settings.imageOf name unit).encode = .ok image :=
    Image.encode_ok_iff.mpr ⟨text, Nat.lt_succ_of_le body⟩
  exact ⟨image, by rw [encoded]; rfl⟩

/-- A packer blames the unit, whatever it fails for. -/
theorem blamesUnit_of_pack {cause : Failure} (refused : settings.pack name raw = .error cause) :
    cause.blamesUnit = true := by
  unfold pack at refused
  split at refused
  · cases refused; rfl
  · split at refused
    · cases refused; rfl
    · split at refused
      · cases refused; rfl
      · split at refused
        · cases refused; rfl
        · cases refused

/-! ### The verdict -/

/-- How packing ends. A reason to refuse counts only if none of those before it applies. -/
inductive Verdict (settings : Settings) (name : Name) (raw : Bytes) : Except Failure Bytes → Prop where
  | tooLarge (large : settings.maxUnitSize < raw.length) :
    Verdict settings name raw (.error (.unitTooLarge raw.length settings.maxUnitSize))
  | malformed {defect : Defect} (fits : raw.length ≤ settings.maxUnitSize)
      (spelled : SourceUnit.decode raw = .error defect) :
    Verdict settings name raw (.error (.packing defect.message))
  | misdeclared {unit : SourceUnit} (fits : raw.length ≤ settings.maxUnitSize)
      (spelled : SourceUnit.decode raw = .ok unit) (strict : settings.strictNames)
      (differs : unit.path ≠ name.path) :
    Verdict settings name raw (.error (.packing
      ("unit declares " ++ unit.path ++ " but was defined as " ++ name.path)))
  | longName {unit : SourceUnit} (admits : settings.Admits name raw unit)
      (long : 65535 < (utf8 name.text).length) :
    Verdict settings name raw (.error (.packing "image name too long"))
  | packed {unit : SourceUnit} {image : Bytes} (admits : settings.Admits name raw unit)
      (short : (utf8 name.text).length ≤ 65535)
      (spells : Image.decode image =
        .ok { api := settings.minHostApi, name := name.text, body := unit.body })
      (length : image.length = 16 + (utf8 name.text).length + unit.body.length) :
    Verdict settings name raw (.ok image)

/-- Raw bytes are packed as the verdict of them tells. -/
theorem pack_of_verdict {packed : Except Failure Bytes}
    (verdict : settings.Verdict name raw packed) : settings.pack name raw = packed := by
  have small (fits : raw.length ≤ settings.maxUnitSize) :
      ¬settings.isOversized raw.length = true := by simp [isOversized, fits]
  cases verdict with
  | tooLarge large =>
    have oversized : settings.isOversized raw.length = true := by simp [isOversized, large]
    rw [pack, if_pos oversized]
  | malformed fits spelled =>
    rw [pack, if_neg (small fits)]
    simp only [spelled]
  | misdeclared fits spelled strict differs =>
    rw [pack, if_neg (small fits)]
    simp only [spelled, if_pos (And.intro strict differs)]
  | @longName unit admits long =>
    have refused : (settings.imageOf name unit).encode = .error (.tooLong "image name") := if_pos long
    rw [pack_of_admits admits, refused]
    rfl
  | @packed unit image admits short spells =>
    have written : (settings.imageOf name unit).encode = .ok image := Image.encode_decode spells
    rw [pack_of_admits admits, written]
    rfl

/-- The body of a unit is no longer than the raw bytes. -/
private theorem length_body_le (admits : settings.Admits name raw unit) :
    unit.body.length ≤ raw.length := by
  obtain ⟨-, same⟩ := SourceUnit.decode_eq_ok_iff.mp admits.decoded
  rw [same, List.length_append]
  omega

/-- Raw bytes whose length fits into four bytes get a verdict. -/
theorem exists_verdict (settings : Settings) (name : Name) (short : raw.length < 4294967296) :
    ∃ packed, settings.Verdict name raw packed := by
  by_cases large : settings.maxUnitSize < raw.length
  · exact ⟨_, .tooLarge large⟩
  have fits := Nat.le_of_not_lt large
  cases spelled : SourceUnit.decode raw with
  | error defect => exact ⟨_, .malformed fits spelled⟩
  | ok unit =>
    by_cases misdeclared : settings.strictNames ∧ unit.path ≠ name.path
    · exact ⟨_, .misdeclared fits spelled misdeclared.1 misdeclared.2⟩
    have admits : settings.Admits name raw unit := ⟨fits, spelled, fun strict =>
      Decidable.not_not.mp fun differs => misdeclared ⟨strict, differs⟩⟩
    by_cases long : 65535 < (utf8 name.text).length
    · exact ⟨_, .longName admits long⟩
    have body := Nat.lt_of_le_of_lt (length_body_le admits) short
    obtain ⟨image, written⟩ : ∃ image, (settings.imageOf name unit).encode = .ok image :=
      Image.encode_ok_iff.mpr ⟨Nat.le_of_not_lt long, body⟩
    exact ⟨_, .packed admits (Nat.le_of_not_lt long) (Image.decode_encode written)
      (Image.length_encode written)⟩

/-- Under strict names a unit has to declare a path of a length that two bytes can count. -/
theorem exists_refusal (strict : settings.strictNames) (long : 65530 < (utf8 name.text).length)
    (raw : Bytes) : ∃ cause, settings.pack name raw = .error cause := by
  cases packed : settings.pack name raw with
  | error cause => exact ⟨cause, rfl⟩
  | ok image =>
    obtain ⟨unit, admits, -⟩ := admits_of_pack packed
    obtain ⟨counted, -⟩ := SourceUnit.decode_eq_ok_iff.mp admits.decoded
    rw [admits.declared strict, name.length_path] at counted
    omega

/-- Settings pack exactly the units that they admit under names that are short enough, and refuse others
    for the first reason that applies. What they pack spells the requested name, their own API level and
    the body of the unit. Unless names are strict, the declared path has no part in it; if they are,
    nothing at all is packed under a name that is longer than 65530 bytes. -/
theorem pack_verdict (settings : Settings) (name : Name) (raw : Bytes)
    (short : raw.length < 4294967296) :
    (∀ packed, settings.pack name raw = packed ↔ settings.Verdict name raw packed) ∧
    (settings.strictNames = false → ∀ (path path' : String) (body raw' : Bytes),
      SourceUnit.decode raw = .ok ⟨path, body⟩ → SourceUnit.decode raw' = .ok ⟨path', body⟩ →
      raw.length ≤ settings.maxUnitSize → raw'.length ≤ settings.maxUnitSize →
      settings.pack name raw' = settings.pack name raw) ∧
    (settings.strictNames → 65530 < (utf8 name.text).length →
      ∀ other, ∃ cause, settings.pack name other = .error cause) := by
  refine ⟨fun packed => ⟨?_, pack_of_verdict⟩, ?_, exists_refusal⟩
  · rintro rfl
    obtain ⟨packed, verdict⟩ := exists_verdict settings name short
    rwa [pack_of_verdict verdict]
  · intro lenient path path' body raw' spelled spelled' fits fits'
    have admits : settings.Admits name raw ⟨path, body⟩ :=
      ⟨fits, spelled, fun strict => absurd (lenient.symm.trans strict) nofun⟩
    have admits' : settings.Admits name raw' ⟨path', body⟩ :=
      ⟨fits', spelled', fun strict => absurd (lenient.symm.trans strict) nofun⟩
    rw [pack_of_admits admits, pack_of_admits admits']
    rfl

/-- A unit of the largest size that is admitted, under strict names, and the same unit with one byte
    more. -/
theorem pack_verdict_strict :
    let settings : Settings := { maxUnitSize := 15, strictNames := true, minHostApi := 30 }
    let name : Name := ⟨"a.b", by decide⟩
    let raw : Bytes := [0x48, 0x53, 0x55, 0x31, 0, 8, 0x61, 0x2F, 0x62, 0x2E, 0x75, 0x6E, 0x69, 0x74, 7]
    raw.length < 4294967296 ∧ (raw ++ [0]).length < 4294967296 ∧
      (∃ image, settings.pack name raw = .ok image ∧ Image.decode image = .ok ⟨30, "a.b", [7]⟩ ∧
        image.length = 20) ∧
      settings.pack name (raw ++ [0]) = .error (.unitTooLarge 16 15) := by
  intro settings name raw
  have short : raw.length < 4294967296 := by decide
  have short' : (raw ++ [0]).length < 4294967296 := by decide
  have spelled : SourceUnit.decode raw = .ok ⟨"a/b.unit", [7]⟩ := SourceUnit.decode_encode rfl
  have path : "a/b.unit" = name.path := by decide +kernel
  have admits : settings.Admits name raw ⟨"a/b.unit", [7]⟩ := ⟨by decide, spelled, fun _ => path⟩
  refine ⟨short, short', ?_, ?_⟩
  · obtain ⟨verdicts, -⟩ := pack_verdict settings name raw short
    have verdict := (verdicts _).mp rfl
    generalize ended : settings.pack name raw = packed at verdict
    cases verdict with
    | tooLarge large => exact absurd large (by decide)
    | malformed _ spelled' => cases spelled.symm.trans spelled'
    | misdeclared _ spelled' _ differs =>
      obtain rfl := Except.ok.inj (spelled.symm.trans spelled')
      exact absurd path differs
    | longName _ long => exact absurd long (by decide)
    | @packed unit image admits' _ spells length =>
      obtain rfl := Except.ok.inj (spelled.symm.trans admits'.decoded)
      exact ⟨image, rfl, spells, length⟩
  · obtain ⟨verdicts, -⟩ := pack_verdict settings name (raw ++ [0]) short'
    exact (verdicts _).mpr (.tooLarge (by decide))

end Settings

end Reload
