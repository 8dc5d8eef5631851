import Mathlib.Data.Nat.Bitwise
import Mathlib.Logic.Function.Iterate
import Reload.Proofs.Wire.Canonical

/-!
The checksum finds corruption. Shifting the state of the check is linear over the exclusive or and loses
no bit (`Crc32.shiftBit_xor`, `Crc32.shiftBit_injective`), so the bytes after a change carry the change
on, and four bytes in a row reach the state as one word (`Crc32.run_eq`). Two byte strings that differ
only inside four bytes in a row therefore have different checksums (`Crc32.checksum_ne`), and an image
that is altered so is refused (`Image.decode_altered`).
-/

namespace Reload

namespace Wire

namespace Crc32

/-! ### One bit -/

private theorem and_one_eq_one_iff (state : UInt32) : state &&& 1 = 1 ↔ state.toNat % 2 = 1 := by
  rw [← UInt32.toNat_inj, UInt32.toNat_and]
  exact iff_of_eq (congrArg (· = 1) (Nat.and_one_is_mod state.toNat))

private theorem toNat_ofNat {n : Nat} (fits : n < 4294967296) : (UInt32.ofNat n).toNat = n :=
  UInt32.toNat_ofNat_of_lt' fits

private theorem toNat_shiftRight_one (state : UInt32) : (state >>> 1).toNat = state.toNat / 2 := by
  rw [UInt32.toNat_shiftRight]
  exact Nat.shiftRight_eq_div_pow _ 1

/-- Shifting is linear: a difference of states moves on by itself. -/
theorem shiftBit_xor (a b : UInt32) : shiftBit (a ^^^ b) = shiftBit a ^^^ shiftBit b := by
  have low : (a ^^^ b).toNat % 2 = (a.toNat + b.toNat) % 2 := by
    rw [UInt32.toNat_xor]
    exact Nat.xor_mod_two_eq
  unfold shiftBit
  simp only [and_one_eq_one_iff, low, UInt32.shiftRight_xor]
  rcases Nat.mod_two_eq_zero_or_one a.toNat with a0 | a1 <;>
    rcases Nat.mod_two_eq_zero_or_one b.toNat with b0 | b1
  · rw [if_neg (by omega), if_neg (by omega), if_neg (by omega)]
  · rw [if_pos (by omega), if_neg (by omega), if_pos (by omega)]
    ac_rfl
  · rw [if_pos (by omega), if_pos (by omega), if_neg (by omega)]
    ac_rfl
  · rw [if_neg (by omega), if_pos (by omega), if_pos (by omega)]
    -- The polynomial comes in twice and cancels itself.
    calc a >>> 1 ^^^ b >>> 1
        = a >>> 1 ^^^ b >>> 1 ^^^ (polynomial ^^^ polynomial) := by simp
      _ = (a >>> 1 ^^^ polynomial) ^^^ (b >>> 1 ^^^ polynomial) := by ac_rfl

/-- Only the state without bits is shifted to the state without bits: what the polynomial adds to has
    lost its highest bit, and the polynomial has that bit. -/
private theorem eq_zero_of_shiftBit {state : UInt32} (zero : shiftBit state = 0) : state = 0 := by
  have bound := state.toNat_lt
  have half := toNat_shiftRight_one state
  unfold shiftBit at zero
  refine UInt32.toNat_inj.mp ?_
  split at zero
  · have equal : state.toNat / 2 = 0xEDB88320 := by
      rw [← half, UInt32.xor_eq_zero_iff.mp zero]
      rfl
    omega
  · next even =>
    rw [and_one_eq_one_iff] at even
    rw [zero] at half
    have none : state.toNat / 2 = 0 := half.symm
    show state.toNat = 0
    omega

theorem shiftBit_injective : Function.Injective shiftBit := by
  intro a b same
  have zero : shiftBit (a ^^^ b) = 0 := by
    rw [shiftBit_xor, same, UInt32.xor_self]
  exact UInt32.xor_eq_zero_iff.mp (eq_zero_of_shiftBit zero)

/-- An even state is halved. -/
theorem shiftBit_double {n : Nat} (fits : 2 * n < 4294967296) :
    shiftBit (UInt32.ofNat (2 * n)) = UInt32.ofNat n := by
  have whole := toNat_ofNat fits
  have even : ¬UInt32.ofNat (2 * n) &&& 1 = 1 := by
    rw [and_one_eq_one_iff, whole]
    omega
  unfold shiftBit
  rw [if_neg even]
  refine UInt32.toNat_inj.mp ?_
  rw [toNat_shiftRight_one, whole, toNat_ofNat (by omega)]
  omega

/-! ### Many bits -/

theorem iterate_shiftBit_xor (count : Nat) (a b : UInt32) :
    shiftBit^[count] (a ^^^ b) = shiftBit^[count] a ^^^ shiftBit^[count] b := by
  induction count generalizing a b with
  | zero => rfl
  | succ count ih => rw [Function.iterate_succ_apply, shiftBit_xor, ih]; rfl

theorem iterate_shiftBit_pow {count n : Nat} (fits : 2 ^ count * n < 4294967296) :
    shiftBit^[count] (UInt32.ofNat (2 ^ count * n)) = UInt32.ofNat n := by
  induction count with
  | zero => rw [Nat.pow_zero, Nat.one_mul]; rfl
  | succ count ih =>
    rw [Nat.pow_succ', Nat.mul_assoc] at fits ⊢
    rw [Function.iterate_succ_apply, shiftBit_double fits]
    exact ih (by omega)

theorem step_eq (state : UInt32) (byte : UInt8) :
    step state byte = shiftBit^[8] (state ^^^ byte.toUInt32) := rfl

/-- The bytes after a change carry the change on. -/
theorem run_injective (bytes : Bytes) : Function.Injective fun state => run state bytes := by
  induction bytes with
  | nil => exact fun _ _ same => same
  | cons byte rest ih =>
    intro a b same
    have stepped : step a byte = step b byte := ih same
    rw [step_eq, step_eq] at stepped
    exact (UInt32.xor_left_inj _).mp (shiftBit_injective.iterate 8 stepped)

/-! ### Four bytes -/

/-- The number that bytes spell, the least significant one first. -/
def littleEndian : Bytes → Nat
  | [] => 0
  | byte :: rest => byte.toNat + 256 * littleEndian rest

theorem littleEndian_lt (bytes : Bytes) : littleEndian bytes < 256 ^ bytes.length := by
  induction bytes with
  | nil => decide
  | cons byte rest ih =>
    have digit := byte.toNat_lt
    rw [littleEndian, List.length_cons, Nat.pow_succ]
    omega

theorem littleEndian_inj {bytes other : Bytes} (length : other.length = bytes.length)
    (same : littleEndian other = littleEndian bytes) : other = bytes := by
  induction bytes generalizing other with
  | nil => exact List.length_eq_zero_iff.mp length
  | cons byte rest ih =>
    cases other with
    | nil => cases length
    | cons byte' rest' =>
      have digit := byte.toNat_lt
      have digit' := byte'.toNat_lt
      simp only [littleEndian] at same
      have first : byte' = byte := UInt8.toNat_inj.mp (by omega)
      rw [first, ih (Nat.succ.inj length) (by omega)]

/-- A byte below a multiple of 256 shares no bit with it. -/
private theorem xor_mul {byte : Nat} (small : byte < 256) (n : Nat) :
    byte ^^^ 256 * n = byte + 256 * n := by
  have low : (byte ^^^ 256 * n) % 2 ^ 8 = byte % 2 ^ 8 ^^^ 256 * n % 2 ^ 8 := Nat.xor_mod_two_pow
  have high : (byte ^^^ 256 * n) / 2 ^ 8 = byte / 2 ^ 8 ^^^ 256 * n / 2 ^ 8 := Nat.xor_div_two_pow
  have multiple : 256 * n % 2 ^ 8 = 0 := by omega
  have below : byte / 2 ^ 8 = 0 := by omega
  rw [multiple, Nat.xor_zero] at low
  rw [below, Nat.zero_xor] at high
  omega

/-- Up to four bytes reach the state as one word, which is shifted out bit by bit. -/
theorem run_eq {bytes : Bytes} (short : bytes.length ≤ 4) (state : UInt32) :
    run state bytes =
      shiftBit^[8 * bytes.length] (state ^^^ UInt32.ofNat (littleEndian bytes)) := by
  induction bytes generalizing state with
  | nil => exact UInt32.xor_zero.symm
  | cons byte rest ih =>
    rw [List.length_cons] at short
    have bound : 256 * littleEndian rest < 4294967296 := by
      have below := littleEndian_lt rest
      have power : 256 ^ rest.length ≤ 256 ^ 3 := Nat.pow_le_pow_right (by decide) (by omega)
      omega
    have word : UInt32.ofNat (littleEndian (byte :: rest)) =
        byte.toUInt32 ^^^ UInt32.ofNat (256 * littleEndian rest) := by
      refine UInt32.toNat_inj.mp ?_
      have digit := byte.toNat_lt
      rw [UInt32.toNat_xor, UInt8.toNat_toUInt32, toNat_ofNat bound, xor_mul digit]
      exact toNat_ofNat (by rw [littleEndian]; omega)
    have later : UInt32.ofNat (littleEndian rest) =
        shiftBit^[8] (UInt32.ofNat (256 * littleEndian rest)) :=
      (iterate_shiftBit_pow bound).symm
    calc run state (byte :: rest) = run (step state byte) rest := rfl
      _ = shiftBit^[8 * rest.length]
          (step state byte ^^^ UInt32.ofNat (littleEndian rest)) := ih (by omega) _
      _ = shiftBit^[8 * rest.length] (shiftBit^[8]
          (state ^^^ byte.toUInt32 ^^^ UInt32.ofNat (256 * littleEndian rest))) := by
        rw [step_eq, later, ← iterate_shiftBit_xor 8]
      _ = shiftBit^[8 * (rest.length + 1)]
          (state ^^^ UInt32.ofNat (littleEndian (byte :: rest))) := by
        rw [word, Nat.mul_succ, Function.iterate_add_apply, UInt32.xor_assoc]

/-- Different bytes, at most four of them, lead from one state to different states. -/
theorem run_inj {bytes other : Bytes} (short : bytes.length ≤ 4)
    (length : other.length = bytes.length) (state : UInt32)
    (same : run state other = run state bytes) : other = bytes := by
  have fits : ∀ given : Bytes, given.length ≤ 4 → littleEndian given < 4294967296 := by
    intro given short
    have power : 256 ^ given.length ≤ 256 ^ 4 := Nat.pow_le_pow_right (by decide) short
    exact Nat.lt_of_lt_of_le (littleEndian_lt given) power
  rw [run_eq short, run_eq (by omega), length] at same
  have word := (UInt32.xor_right_inj _).mp (shiftBit_injective.iterate _ same)
  have number := congrArg UInt32.toNat word
  rw [toNat_ofNat (fits other (by omega)), toNat_ofNat (fits bytes short)] at number
  exact littleEndian_inj length number

end Crc32

/-! ### Altered bytes -/

/-- Bytes that differ from other bytes of the same length, but only inside a window of so many bytes
    from an offset on. -/
structure Altered (offset width : Nat) (bytes other : Bytes) : Prop where
  length : other.length = bytes.length
  differs : other ≠ bytes
  elsewhere : ∀ i, other[i]? ≠ bytes[i]? → offset ≤ i ∧ i < offset + width

namespace Altered

variable {offset width : Nat} {bytes other : Bytes}

theorem take_eq (altered : Altered offset width bytes other) {count : Nat} (before : count ≤ offset) :
    other.take count = bytes.take count := by
  refine List.ext_getElem? fun i => ?_
  rw [List.getElem?_take, List.getElem?_take]
  split
  · by_contra differ
    have inside := altered.elsewhere i differ
    omega
  · rfl

theorem drop_eq (altered : Altered offset width bytes other) {count : Nat}
    (after : offset + width ≤ count) : other.drop count = bytes.drop count := by
  refine List.ext_getElem? fun i => ?_
  rw [List.getElem?_drop, List.getElem?_drop]
  by_contra differ
  have inside := altered.elsewhere (count + i) differ
  omega

/-- Bytes that are altered in their front are altered bytes in front of the same rest. -/
theorem take (altered : Altered offset width bytes other) {count : Nat}
    (inside : offset + width ≤ count) :
    Altered offset width (bytes.take count) (other.take count) where
  length := by rw [List.length_take, List.length_take, altered.length]
  differs := by
    intro same
    refine altered.differs ?_
    rw [← List.take_append_drop count other, ← List.take_append_drop count bytes, same,
      altered.drop_eq inside]
  elsewhere i differ := by
    rw [List.getElem?_take, List.getElem?_take] at differ
    split at differ
    · exact altered.elsewhere i differ
    · exact absurd rfl differ

/-- Altered bytes are an altered window between a front and a rest that are the same. -/
theorem exists_append (altered : Altered offset width bytes other) :
    ∃ front window window' rest, bytes = front ++ window ++ rest ∧ other = front ++ window' ++ rest ∧
      window.length ≤ width ∧ window'.length = window.length ∧ window' ≠ window := by
  have split : ∀ given : Bytes, given = given.take offset ++ (given.drop offset).take width ++
      given.drop (offset + width) := by
    intro given
    rw [List.append_assoc, ← List.drop_drop, List.take_append_drop, List.take_append_drop]
  refine ⟨bytes.take offset, (bytes.drop offset).take width, (other.drop offset).take width,
    bytes.drop (offset + width), split bytes, ?_, List.length_take_le .., ?_, ?_⟩
  · rw [← altered.take_eq (Nat.le_refl _), ← altered.drop_eq (Nat.le_refl _)]
    exact split other
  · simp [altered.length]
  · intro same
    refine altered.differs ?_
    rw [split other, split bytes, altered.take_eq (Nat.le_refl _), altered.drop_eq (Nat.le_refl _),
      same]

end Altered

/-- Bytes that are altered inside four bytes in a row have another checksum. -/
theorem Crc32.checksum_ne {offset : Nat} {bytes other : Bytes}
    (altered : Altered offset 4 bytes other) : checksum other ≠ checksum bytes := by
  obtain ⟨front, window, window', rest, rfl, rfl, short, length, differ⟩ := altered.exists_append
  intro same
  refine differ (run_inj short length (run mask front) (run_injective rest ?_))
  have states := (UInt32.xor_left_inj _).mp same
  simpa only [run, List.foldl_append] using states

example : Crc32.checksum (utf8 "123456789") = 0xCBF43926 := by decide +kernel

end Wire

namespace Image

open Wire

/-! ### Altered images -/

theorem decode_mismatch {bytes : Bytes} (long : 4 ≤ bytes.length)
    (mismatch : (Crc32.checksum (bytes.take (bytes.length - 4))).toNat ≠
      ofBigEndian (bytes.drop (bytes.length - 4))) : decode bytes = .error .checksumMismatch := by
  simp only [decode]
  rw [if_neg (by omega), if_pos mismatch]

/-- An image that is altered inside four bytes in a row is refused for its checksum, whether those
    bytes stand before the checksum or are the checksum. -/
theorem decode_altered {bytes other : Bytes} {image : Image} {offset : Nat}
    (spelled : decode bytes = .ok image) (altered : Altered offset 4 bytes other)
    (place : offset + 4 ≤ bytes.length - 4 ∨ offset = bytes.length - 4) :
    decode other = .error .checksumMismatch := by
  obtain ⟨long, checked, -⟩ := checked_of_decode spelled
  refine decode_mismatch (by rw [altered.length]; exact long) ?_
  rw [altered.length]
  rcases place with before | inside
  · rw [altered.drop_eq before, ← checked]
    intro same
    exact Crc32.checksum_ne (altered.take before) (UInt32.toNat_inj.mp same)
  · have payload := altered.take_eq (Nat.le_of_eq inside.symm)
    rw [payload, checked]
    intro same
    have trailer := ofBigEndian_inj (by simp [altered.length]) same.symm
    refine altered.differs ?_
    rw [← List.take_append_drop (bytes.length - 4) other, payload, trailer, List.take_append_drop]

theorem decode_altered_body :
    let bytes : Bytes :=
      [0x48, 0x53, 0x49, 0x31, 0, 26, 0, 1, 0x61, 0, 0, 0, 1, 7, 0x88, 0x7B, 0x69, 0x44]
    let other : Bytes :=
      [0x48, 0x53, 0x49, 0x31, 0, 26, 0, 1, 0x61, 0, 0, 9, 0, 8, 0x88, 0x7B, 0x69, 0x44]
    decode bytes = .ok { api := 26, name := "a", body := [7] } ∧ Altered 10 4 bytes other ∧
      decode other = .error .checksumMismatch := by
  intro bytes other
  have spelled : decode bytes = .ok { api := 26, name := "a", body := [7] } := by decide +kernel
  have early : ∀ i < 18, other[i]? ≠ bytes[i]? → 10 ≤ i ∧ i < 14 := by decide
  have altered : Altered 10 4 bytes other := {
    length := rfl
    differs := by decide
    elsewhere := by
      intro i differ
      rcases Nat.lt_or_ge i 18 with inside | beyond
      · exact early i inside differ
      · exact absurd ((List.getElem?_eq_none beyond).trans (List.getElem?_eq_none beyond).symm) differ
  }
  exact ⟨spelled, altered, decode_altered spelled altered (.inl (by decide))⟩

end Image

end Reload
