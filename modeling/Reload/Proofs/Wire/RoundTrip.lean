import Mathlib.Algebra.Group.Nat.Defs
import Reload.Wire.Image
import Reload.Wire.SourceUnit

/-!
What is written can be read. Each reader of a field takes back the field that was written in front of
any bytes, so the bytes of an image spell that image (`Image.decode_encode`), and those of a source
unit that unit (`SourceUnit.decode_encode`).
-/

namespace Reload

namespace Wire

/-! ### Fields -/

@[simp] theorem length_bigEndian (width n : Nat) : (bigEndian width n).length = width := by
  induction width generalizing n with
  | zero => rfl
  | succ width ih => simp [bigEndian, ih]

/-- A number that fits into the width is the number that its bytes spell. -/
theorem ofBigEndian_bigEndian {width n : Nat} (fits : n < 256 ^ width) :
    ofBigEndian (bigEndian width n) = n := by
  induction width generalizing n with
  | zero =>
    rw [Nat.pow_zero] at fits
    exact (Nat.lt_one_iff.mp fits).symm
  | succ width ih =>
    rw [Nat.pow_succ] at fits
    have before := ih (Nat.div_lt_of_lt_mul (by omega : n < 256 * 256 ^ width))
    have digit : (UInt8.ofNat n).toNat = n % 256 := UInt8.toNat_ofNat'
    simp only [ofBigEndian] at before ⊢
    rw [bigEndian, List.foldl_append, before, List.foldl_cons, List.foldl_nil, digit]
    omega

/-- A text is the text that its bytes spell. -/
theorem ofUtf8?_utf8 (text : String) : ofUtf8? (utf8 text) = some text := by
  have bytes : (⟨(utf8 text).toArray⟩ : ByteArray) = text.toByteArray := rfl
  rw [ofUtf8?, bytes, String.fromUTF8?, dif_pos text.isValidUTF8]
  rfl

theorem takeBytes_append (field : String) (bytes rest : Bytes) :
    takeBytes field bytes.length (bytes ++ rest) = .ok (bytes, rest) := by
  simp [takeBytes]

theorem takeNumber_append (field : String) {width n : Nat} (fits : n < 256 ^ width)
    (rest : Bytes) : takeNumber field width (bigEndian width n ++ rest) = .ok (n, rest) := by
  have taken := takeBytes_append field (bigEndian width n) rest
  rw [length_bigEndian] at taken
  rw [takeNumber, taken]
  show Except.ok (ofBigEndian (bigEndian width n), rest) = _
  rw [ofBigEndian_bigEndian fits]

theorem takeText_append (field text : String) (rest : Bytes) :
    takeText field (utf8 text).length (utf8 text ++ rest) = .ok (text, rest) := by
  simp only [takeText, takeBytes_append, bind, Except.bind, ofUtf8?_utf8]
  rfl

theorem takeMagic_append (field : String) (magic rest : Bytes) :
    takeMagic field magic (magic ++ rest) = .ok rest := by
  rw [takeMagic, takeBytes_append]
  exact if_pos rfl

end Wire

namespace Image

open Wire

/-! ### Images -/

/-- The fields of an image whose lengths fit spell the image. -/
theorem ofFields_fields {image : Image} (name : (utf8 image.name).length < 256 ^ 2)
    (body : image.body.length < 256 ^ 4) : ofFields image.fields = .ok image := by
  have api : image.api.toNat < 256 ^ 2 := image.api.toNat_lt
  have last := takeBytes_append "image body" image.body []
  rw [List.append_nil] at last
  simp only [ofFields, fields, List.append_assoc, takeMagic_append, takeNumber_append _ api,
    takeNumber_append _ name, takeText_append, takeNumber_append _ body, last, bind, Except.bind,
    UInt16.ofNat_toNat, if_true]
  rfl

/-- Bytes with their checksum pass the check, and the fields before it are read. -/
theorem decode_withChecksum (bytes : Bytes) : decode (withChecksum bytes) = ofFields bytes := by
  have length : (withChecksum bytes).length - 4 = bytes.length := by simp [withChecksum]
  have payload : (withChecksum bytes).take ((withChecksum bytes).length - 4) = bytes := by
    rw [length]
    simp [withChecksum]
  have trailer : (withChecksum bytes).drop ((withChecksum bytes).length - 4) =
      bigEndian 4 (Crc32.checksum bytes).toNat := by
    rw [length]
    simp [withChecksum]
  have long : ¬(withChecksum bytes).length < 4 := by simp [withChecksum]
  have checksum : (Crc32.checksum bytes).toNat < 256 ^ 4 := (Crc32.checksum bytes).toNat_lt
  simp only [decode]
  rw [if_neg long, payload, trailer, ofBigEndian_bigEndian checksum, if_neg (by simp)]

/-- The bytes of an image spell the image. -/
theorem decode_encode {image : Image} {bytes : Bytes} (written : image.encode = .ok bytes) :
    decode bytes = .ok image := by
  unfold encode at written
  split at written
  · cases written
  · next name =>
    split at written
    · cases written
    · next body =>
      cases written
      rw [decode_withChecksum]
      exact ofFields_fields (by omega) (by omega)

end Image

namespace SourceUnit

open Wire

/-! ### Source units -/

/-- The bytes of a source unit spell the unit. -/
theorem decode_encode {unit : SourceUnit} {bytes : Bytes} (written : unit.encode = .ok bytes) :
    decode bytes = .ok unit := by
  simp only [encode] at written
  split at written
  · cases written
  · next path =>
    cases written
    have fits : (utf8 unit.path).length < 256 ^ 2 := by omega
    simp only [decode, List.append_assoc, takeMagic_append, takeNumber_append _ fits,
      takeText_append, bind, Except.bind]
    rfl

end SourceUnit

end Reload
