import Reload.Proofs.Wire.Canonical

/-!
Bytes that are cut off, or added at the end. The lengths in an image tell where it ends, so no image
begins another one (`Image.decode_prefix_free`), whatever its checksum. A source unit does not tell its
end: what is added to it is added to its body, and it can be cut anywhere behind its path
(`SourceUnit.decode_cut`).
-/

namespace Reload

namespace Wire

/-! ### Fields that tell their own end -/

theorem bigEndian_append_inj {width n m : Nat} {rest rest' : Bytes} (fits : n < 256 ^ width)
    (fits' : m < 256 ^ width) (same : bigEndian width n ++ rest = bigEndian width m ++ rest') :
    n = m ∧ rest = rest' := by
  obtain ⟨digits, rests⟩ := List.append_inj same (by simp)
  exact ⟨by rw [← ofBigEndian_bigEndian fits, digits, ofBigEndian_bigEndian fits'], rests⟩

/-- Bytes with their number in front tell where they end. -/
theorem counted_append_inj {width : Nat} {bytes other rest rest' : Bytes}
    (fits : bytes.length < 256 ^ width) (fits' : other.length < 256 ^ width)
    (same : bigEndian width bytes.length ++ (bytes ++ rest) =
      bigEndian width other.length ++ (other ++ rest')) : bytes = other ∧ rest = rest' := by
  obtain ⟨length, same⟩ := bigEndian_append_inj fits fits' same
  exact List.append_inj same length

theorem utf8_injective {text other : String} (same : utf8 text = utf8 other) : text = other := by
  rw [← Option.some_inj, ← ofUtf8?_utf8 text, same, ofUtf8?_utf8]

end Wire

namespace Image

open Wire

/-! ### Images -/

/-- Images tell where their fields end: only the same fields can begin as the fields of an image do. -/
theorem fields_append_inj {image other : Image} {rest rest' : Bytes}
    (name : (utf8 image.name).length < 256 ^ 2) (body : image.body.length < 256 ^ 4)
    (name' : (utf8 other.name).length < 256 ^ 2) (body' : other.body.length < 256 ^ 4)
    (same : image.fields ++ rest = other.fields ++ rest') : image = other ∧ rest = rest' := by
  simp only [fields, List.append_assoc] at same
  obtain ⟨api, same⟩ :=
    bigEndian_append_inj image.api.toNat_lt other.api.toNat_lt (List.append_cancel_left same)
  obtain ⟨names, same⟩ := counted_append_inj name name' same
  obtain ⟨bodies, rests⟩ := counted_append_inj body body' same
  refine ⟨?_, rests⟩
  rw [Image.mk.injEq]
  exact ⟨UInt16.toNat_inj.mp api, utf8_injective names, bodies⟩

/-- Nothing can be added to bytes that spell an image. -/
theorem eq_nil_of_decode_append {bytes more : Bytes} {image other : Image}
    (spelled : decode bytes = .ok image) (longer : decode (bytes ++ more) = .ok other) :
    more = [] := by
  obtain ⟨payload, rfl, read⟩ := withChecksum_of_decode spelled
  obtain ⟨payload', whole, read'⟩ := withChecksum_of_decode longer
  obtain ⟨rfl, name, body⟩ := fields_of_ofFields read
  obtain ⟨rfl, name', body'⟩ := fields_of_ofFields read'
  simp only [withChecksum, List.append_assoc] at whole
  obtain ⟨-, trailer⟩ := fields_append_inj name body name' body' whole
  have length := congrArg List.length trailer
  simp only [List.length_append, length_bigEndian] at length
  exact List.length_eq_zero_iff.mp (by omega)

private theorem exists_error {bytes : Bytes} (unspelled : ∀ image, decode bytes ≠ .ok image) :
    ∃ defect, decode bytes = .error defect := by
  cases spelled : decode bytes with
  | error defect => exact ⟨defect, rfl⟩
  | ok image => exact absurd spelled (unspelled image)

/-- No image begins another one. So bytes that spell an image are refused when they are cut anywhere, or
    when anything is added to them, whatever they end with then. -/
theorem decode_prefix_free {bytes : Bytes} {image : Image} (spelled : decode bytes = .ok image) :
    (∀ other image', decode other = .ok image' → bytes <+: other ∨ other <+: bytes →
      other = bytes) ∧
    (∀ count, count < bytes.length → ∃ defect, decode (bytes.take count) = .error defect) ∧
    ∀ more, more ≠ [] → ∃ defect, decode (bytes ++ more) = .error defect := by
  refine ⟨fun other image' again begins => ?_, fun count short => ?_, fun more added => ?_⟩
  · rcases begins with ⟨more, rfl⟩ | ⟨more, rfl⟩
    · rw [eq_nil_of_decode_append spelled again, List.append_nil]
    · rw [eq_nil_of_decode_append again spelled, List.append_nil]
  · refine exists_error fun image' cut => ?_
    have whole : decode (bytes.take count ++ bytes.drop count) = .ok image := by
      rw [List.take_append_drop, spelled]
    have nothing := eq_nil_of_decode_append cut whole
    rw [List.drop_eq_nil_iff] at nothing
    omega
  · exact exists_error fun image' longer => added (eq_nil_of_decode_append spelled longer)

/-- An image whose body is the checksum of the bytes before it, cut behind the body, and the same image
    with its own checksum added. -/
theorem decode_prefix_free_checked :
    let bytes : Bytes := [0x48, 0x53, 0x49, 0x31, 0, 26, 0, 1, 0x61, 0, 0, 0, 4, 0x0C, 0x33, 0x26, 0x76,
      0xB8, 0x4E, 0x80, 0x49]
    decode bytes = .ok ⟨26, "a", [0x0C, 0x33, 0x26, 0x76]⟩ ∧
      bytes.take 17 = withChecksum (bytes.take 13) ∧
      (∃ defect, decode (bytes.take 17) = .error defect) ∧
      ∃ defect, decode (withChecksum bytes) = .error defect := by
  intro bytes
  have spelled : decode bytes = .ok ⟨26, "a", [0x0C, 0x33, 0x26, 0x76]⟩ := by decide +kernel
  obtain ⟨-, cut, longer⟩ := decode_prefix_free spelled
  refine ⟨spelled, by decide +kernel, cut 17 (by decide), longer _ ?_⟩
  intro nothing
  have length := congrArg List.length nothing
  rw [length_bigEndian] at length
  cases length

end Image

namespace SourceUnit

open Wire

/-! ### Source units -/

variable {bytes : Bytes} {unit : SourceUnit}

/-- What is added to a source unit is added to its body. -/
theorem decode_append (spelled : decode bytes = .ok unit) (more : Bytes) :
    decode (bytes ++ more) = .ok { unit with body := unit.body ++ more } := by
  obtain ⟨fits, rfl⟩ := decode_eq_ok_iff.mp spelled
  exact decode_eq_ok_iff.mpr ⟨fits, List.append_assoc ..⟩

/-- A cut that spells a source unit has kept the whole path. -/
theorem length_head_le_of_decode_take {count : Nat} {cut : SourceUnit}
    (spelled : decode bytes = .ok unit) (spells : decode (bytes.take count) = .ok cut) :
    (head unit.path).length ≤ count := by
  have whole := decode_append spells (bytes.drop count)
  rw [List.take_append_drop, spelled] at whole
  have path : unit.path = cut.path := by rw [Except.ok.inj whole]
  obtain ⟨-, kept⟩ := decode_eq_ok_iff.mp spells
  have length := congrArg List.length kept
  rw [List.length_take, List.length_append, ← path] at length
  omega

/-- A cut behind the path cuts the body. -/
theorem decode_take {count : Nat} (spelled : decode bytes = .ok unit)
    (behind : (head unit.path).length ≤ count) : decode (bytes.take count) =
      .ok { unit with body := unit.body.take (count - (head unit.path).length) } := by
  obtain ⟨fits, rfl⟩ := decode_eq_ok_iff.mp spelled
  refine decode_eq_ok_iff.mpr ⟨fits, ?_⟩
  rw [List.take_append, List.take_of_length_le behind]

/-- The format of source units is exact, and open at its end. Bytes spell a unit if and only if they are
    what is written for it, and a unit can be written if and only if two bytes can count its path.
    Whatever is added to such bytes is added to the body. They spell a unit after a cut if and only if
    that keeps the whole path, and then it is the body that was cut. -/
theorem decode_cut (bytes : Bytes) (unit : SourceUnit) :
    (decode bytes = .ok unit ↔ encode unit = .ok bytes) ∧
    ((∃ written, encode unit = .ok written) ↔ (utf8 unit.path).length ≤ 65535) ∧
    (decode bytes = .ok unit →
      (∀ more, decode (bytes ++ more) = .ok { unit with body := unit.body ++ more }) ∧
      ∀ count, ((∃ cut, decode (bytes.take count) = .ok cut) ↔
          6 + (utf8 unit.path).length ≤ count) ∧
        (6 + (utf8 unit.path).length ≤ count → decode (bytes.take count) =
          .ok { unit with body := unit.body.take (count - (6 + (utf8 unit.path).length)) })) := by
  refine ⟨⟨encode_decode, decode_encode⟩, ?_, fun spelled => ⟨decode_append spelled, fun count => ?_⟩⟩
  · constructor
    · rintro ⟨written, encoded⟩
      exact (encode_eq_ok_iff.mp encoded).1
    · exact fun fits => ⟨_, encode_eq_ok_iff.mpr ⟨fits, rfl⟩⟩
  · have behind := @decode_take bytes unit count spelled
    rw [length_head] at behind
    refine ⟨⟨?_, fun kept => ⟨_, behind kept⟩⟩, behind⟩
    rintro ⟨cut, spells⟩
    have kept := length_head_le_of_decode_take spelled spells
    rwa [length_head] at kept

end SourceUnit

end Reload
