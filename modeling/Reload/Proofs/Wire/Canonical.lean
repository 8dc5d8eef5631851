import Mathlib.Data.List.Induction
import Reload.Proofs.Wire.RoundTrip

/-!
Every image and every source unit has one written form. Each reader of a field leaves the bytes that the
writer of that field would have put in front of the rest, so bytes that spell an image are the bytes of
that image, and no others spell it (`Image.decode_exact`). Bytes that spell a source unit are its head,
with its body behind (`SourceUnit.decode_eq_ok_iff`).
-/

namespace Reload

namespace Wire

/-! ### Fields -/

theorem ofBigEndian_append (bytes : Bytes) (last : UInt8) :
    ofBigEndian (bytes ++ [last]) = 256 * ofBigEndian bytes + last.toNat := by
  simp [ofBigEndian]

/-- Bytes spell a number that fits into their width. -/
theorem ofBigEndian_lt (bytes : Bytes) : ofBigEndian bytes < 256 ^ bytes.length := by
  induction bytes using List.reverseRecOn with
  | nil => decide
  | append_singleton bytes last ih =>
    have digit := last.toNat_lt
    rw [ofBigEndian_append, List.length_append, List.length_singleton, Nat.pow_succ]
    omega

/-- Bytes are the bytes of the number that they spell. -/
theorem bigEndian_ofBigEndian (bytes : Bytes) :
    bigEndian bytes.length (ofBigEndian bytes) = bytes := by
  induction bytes using List.reverseRecOn with
  | nil => rfl
  | append_singleton bytes last ih =>
    have digit := last.toNat_lt
    have quotient : (256 * ofBigEndian bytes + last.toNat) / 256 = ofBigEndian bytes := by omega
    have remainder : UInt8.ofNat (256 * ofBigEndian bytes + last.toNat) = last := by
      refine UInt8.toNat_inj.mp ?_
      rw [UInt8.toNat_ofNat']
      omega
    rw [ofBigEndian_append, List.length_append, List.length_singleton, bigEndian, quotient,
      remainder, ih]

/-- Bytes of one width that spell the same number are the same. -/
theorem ofBigEndian_inj {bytes other : Bytes} (length : other.length = bytes.length)
    (same : ofBigEndian other = ofBigEndian bytes) : other = bytes := by
  rw [← bigEndian_ofBigEndian other, ← bigEndian_ofBigEndian bytes, length, same]

/-- Bytes that spell a text are the bytes of that text. -/
theorem utf8_of_ofUtf8? {bytes : Bytes} {text : String} (spelled : ofUtf8? bytes = some text) :
    utf8 text = bytes := by
  unfold ofUtf8? String.fromUTF8? at spelled
  split at spelled
  · obtain rfl := Option.some.inj spelled
    rfl
  · cases spelled

/-! ### Readers -/

/-- A sequence that gives a value passes through a value of its first part. -/
theorem ok_of_bind {ε α β : Type} {first : Except ε α} {next : α → Except ε β} {result : β}
    (ok : first >>= next = .ok result) : ∃ value, first = .ok value ∧ next value = .ok result := by
  cases first with
  | error defect => cases ok
  | ok value => exact ⟨value, rfl, ok⟩

theorem append_of_takeBytes {field : String} {count : Nat} {bytes taken rest : Bytes}
    (took : takeBytes field count bytes = .ok (taken, rest)) :
    bytes = taken ++ rest ∧ taken.length = count := by
  unfold takeBytes at took
  split at took
  · next long =>
    cases took
    exact ⟨(List.take_append_drop count bytes).symm, List.length_take_of_le long⟩
  · cases took

theorem append_of_takeNumber {field : String} {width n : Nat} {bytes rest : Bytes}
    (took : takeNumber field width bytes = .ok (n, rest)) :
    bytes = bigEndian width n ++ rest ∧ n < 256 ^ width := by
  obtain ⟨⟨digits, _⟩, taken, read⟩ := ok_of_bind took
  obtain ⟨rfl, rfl⟩ := Prod.mk.inj (Except.ok.inj read)
  obtain ⟨whole, rfl⟩ := append_of_takeBytes taken
  exact ⟨by rw [bigEndian_ofBigEndian, whole], ofBigEndian_lt digits⟩

theorem append_of_takeText {field text : String} {count : Nat} {bytes rest : Bytes}
    (took : takeText field count bytes = .ok (text, rest)) :
    bytes = utf8 text ++ rest ∧ (utf8 text).length = count := by
  obtain ⟨⟨spelled, _⟩, taken, read⟩ := ok_of_bind took
  cases valid : ofUtf8? spelled with
  | none =>
    simp only [valid] at read
    cases read
  | some found =>
    simp only [valid] at read
    obtain ⟨rfl, rfl⟩ := Prod.mk.inj (Except.ok.inj read)
    rw [utf8_of_ofUtf8? valid]
    exact append_of_takeBytes taken

theorem append_of_takeMagic {field : String} {magic bytes rest : Bytes}
    (took : takeMagic field magic bytes = .ok rest) : bytes = magic ++ rest := by
  obtain ⟨⟨mark, _⟩, taken, read⟩ := ok_of_bind took
  simp only [] at read
  split at read
  · next marked =>
    obtain rfl := Except.ok.inj read
    rw [← marked]
    exact (append_of_takeBytes taken).1
  · cases read

end Wire

namespace Image

open Wire

/-! ### Images -/

/-- Bytes that spell an image without its checksum are the fields of that image, and both lengths fit
    into their fields. -/
theorem fields_of_ofFields {bytes : Bytes} {image : Image} (spelled : ofFields bytes = .ok image) :
    bytes = image.fields ∧ (utf8 image.name).length < 256 ^ 2 ∧ image.body.length < 256 ^ 4 := by
  obtain ⟨afterMagic, magic, spelled⟩ := ok_of_bind spelled
  obtain ⟨⟨api, afterApi⟩, takenApi, spelled⟩ := ok_of_bind spelled
  obtain ⟨⟨nameLength, afterNameLength⟩, takenNameLength, spelled⟩ := ok_of_bind spelled
  obtain ⟨⟨name, afterName⟩, takenName, spelled⟩ := ok_of_bind spelled
  obtain ⟨⟨bodyLength, afterBodyLength⟩, takenBodyLength, spelled⟩ := ok_of_bind spelled
  obtain ⟨⟨body, afterBody⟩, takenBody, spelled⟩ := ok_of_bind spelled
  simp only [] at spelled
  split at spelled
  · next noMore =>
    obtain rfl := Except.ok.inj spelled
    obtain ⟨rfl, fitsApi⟩ := append_of_takeNumber takenApi
    obtain ⟨rfl, fitsName⟩ := append_of_takeNumber takenNameLength
    obtain ⟨rfl, rfl⟩ := append_of_takeText takenName
    obtain ⟨rfl, fitsBody⟩ := append_of_takeNumber takenBodyLength
    obtain ⟨rfl, rfl⟩ := append_of_takeBytes takenBody
    refine ⟨?_, fitsName, fitsBody⟩
    have level : (UInt16.ofNat api).toNat = api := UInt16.toNat_ofNat_of_lt' fitsApi
    rw [append_of_takeMagic magic, noMore]
    simp [fields, level]
  · cases spelled

/-- Bytes that spell an image end with the checksum of those before, which spell its fields. -/
theorem checked_of_decode {bytes : Bytes} {image : Image} (spelled : decode bytes = .ok image) :
    4 ≤ bytes.length ∧
      (Crc32.checksum (bytes.take (bytes.length - 4))).toNat =
        ofBigEndian (bytes.drop (bytes.length - 4)) ∧
      ofFields (bytes.take (bytes.length - 4)) = .ok image := by
  simp only [decode] at spelled
  split at spelled
  · cases spelled
  · next long =>
    split at spelled
    · cases spelled
    · next checked => exact ⟨by omega, Decidable.not_not.mp checked, spelled⟩

/-- Bytes that spell an image are its fields and their checksum. -/
theorem withChecksum_of_decode {bytes : Bytes} {image : Image} (spelled : decode bytes = .ok image) :
    ∃ payload, bytes = withChecksum payload ∧ ofFields payload = .ok image := by
  obtain ⟨long, checked, read⟩ := checked_of_decode spelled
  refine ⟨bytes.take (bytes.length - 4), ?_, read⟩
  have width : (bytes.drop (bytes.length - 4)).length = 4 := by
    rw [List.length_drop]
    omega
  have trailer := bigEndian_ofBigEndian (bytes.drop (bytes.length - 4))
  rw [width] at trailer
  rw [withChecksum, checked, trailer, List.take_append_drop]

/-- What spells an image is what is written for it. -/
theorem encode_decode {bytes : Bytes} {image : Image} (spelled : decode bytes = .ok image) :
    image.encode = .ok bytes := by
  obtain ⟨payload, rfl, read⟩ := withChecksum_of_decode spelled
  obtain ⟨rfl, name, body⟩ := fields_of_ofFields read
  unfold encode
  rw [if_neg (by omega), if_neg (by omega)]

/-- An image can be written if its name and its body are as short as their lengths have to be. -/
theorem encode_ok_iff {image : Image} : (∃ bytes, image.encode = .ok bytes) ↔
    (utf8 image.name).length ≤ 65535 ∧ image.body.length < 4294967296 := by
  unfold encode
  split
  · next long =>
    constructor
    · rintro ⟨_, ⟨⟩⟩
    · omega
  · next short =>
    split
    · next long =>
      constructor
      · rintro ⟨_, ⟨⟩⟩
      · omega
    · next short' =>
      exact ⟨fun _ => by omega, fun _ => ⟨_, rfl⟩⟩

/-- The format of images is exact. Bytes spell an image if and only if they are what is written for
    it, so no two byte strings spell the same image. An image can be written if and only if two bytes
    can count its name and four bytes its body. -/
theorem decode_exact (bytes : Bytes) (image : Image) :
    (decode bytes = .ok image ↔ encode image = .ok bytes) ∧
      ((∃ written, encode image = .ok written) ↔
        (utf8 image.name).length ≤ 65535 ∧ image.body.length < 4294967296) ∧
      ∀ other, decode bytes = .ok image → decode other = .ok image → other = bytes := by
  refine ⟨⟨encode_decode, decode_encode⟩, encode_ok_iff, fun other spelled again => ?_⟩
  exact Except.ok.inj ((encode_decode again).symm.trans (encode_decode spelled))

example : encode { api := 26, name := "a", body := [7] } = .ok
    [0x48, 0x53, 0x49, 0x31, 0, 26, 0, 1, 0x61, 0, 0, 0, 1, 7, 0x88, 0x7B, 0x69, 0x44] := by decide +kernel

end Image

namespace SourceUnit

open Wire

/-! ### Source units -/

/-- The bytes in front of the body of a source unit. -/
def head (path : String) : Bytes :=
  magic ++ bigEndian 2 (utf8 path).length ++ utf8 path

theorem length_head (path : String) : (head path).length = 6 + (utf8 path).length := by
  simp [head, magic]
  omega

/-- What is written for a source unit is its head and its body, if two bytes can count the path. -/
theorem encode_eq_ok_iff {unit : SourceUnit} {bytes : Bytes} : unit.encode = .ok bytes ↔
    (utf8 unit.path).length ≤ 65535 ∧ bytes = head unit.path ++ unit.body := by
  simp only [encode]
  split
  · next long =>
    constructor
    · intro written
      cases written
    · omega
  · next short =>
    rw [Except.ok.injEq, eq_comm, head]
    exact ⟨fun same => ⟨by omega, same⟩, fun written => written.2⟩

/-- What spells a source unit is what is written for it. -/
theorem encode_decode {bytes : Bytes} {unit : SourceUnit} (spelled : decode bytes = .ok unit) :
    unit.encode = .ok bytes := by
  obtain ⟨afterMagic, magic, spelled⟩ := ok_of_bind spelled
  obtain ⟨⟨length, afterLength⟩, takenLength, spelled⟩ := ok_of_bind spelled
  obtain ⟨⟨path, body⟩, takenPath, spelled⟩ := ok_of_bind spelled
  obtain rfl := Except.ok.inj spelled
  obtain ⟨rfl, fits⟩ := append_of_takeNumber takenLength
  obtain ⟨rfl, rfl⟩ := append_of_takeText takenPath
  have short : (utf8 path).length ≤ 65535 := by omega
  refine encode_eq_ok_iff.mpr ⟨short, ?_⟩
  rw [append_of_takeMagic magic]
  simp only [head, List.append_assoc]

/-- Bytes spell a source unit if and only if they are its head and its body. -/
theorem decode_eq_ok_iff {bytes : Bytes} {unit : SourceUnit} : decode bytes = .ok unit ↔
    (utf8 unit.path).length ≤ 65535 ∧ bytes = head unit.path ++ unit.body :=
  ⟨fun spelled => encode_eq_ok_iff.mp (encode_decode spelled),
    fun written => decode_encode (encode_eq_ok_iff.mpr written)⟩

end SourceUnit

end Reload
