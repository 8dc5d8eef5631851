import Reload.Wire.Defect

/-!
Fields of a byte format. Numbers are big-endian with a fixed width in bytes. A reader takes a
field from the front of the bytes and returns it with the rest; it refuses bytes that end inside
the field, naming the field.
-/

namespace Reload

abbrev Bytes := List UInt8

namespace Wire

/-- The UTF-8 bytes of a text. -/
def utf8 (text : String) : Bytes :=
  text.toByteArray.data.toList

/-- The text with these UTF-8 bytes, if they are UTF-8. -/
def ofUtf8? (bytes : Bytes) : Option String :=
  String.fromUTF8? ⟨bytes.toArray⟩

/-- The lowest `width` bytes of a number, the most significant one first. -/
def bigEndian : (width : Nat) → Nat → Bytes
  | 0, _ => []
  | width + 1, n => bigEndian width (n / 256) ++ [UInt8.ofNat n]

/-- The number that bytes spell, the most significant one first. -/
def ofBigEndian (bytes : Bytes) : Nat :=
  bytes.foldl (fun n byte => 256 * n + byte.toNat) 0

/-- The first `count` bytes, and the rest. -/
def takeBytes (field : String) (count : Nat) (bytes : Bytes) : Except Defect (Bytes × Bytes) :=
  if count ≤ bytes.length then .ok (bytes.take count, bytes.drop count)
  else .error (.truncated field)

/-- A number of `width` bytes, and the rest. -/
def takeNumber (field : String) (width : Nat) (bytes : Bytes) : Except Defect (Nat × Bytes) := do
  let (digits, rest) ← takeBytes field width bytes
  return (ofBigEndian digits, rest)

/-- A text of `count` bytes, and the rest. -/
def takeText (field : String) (count : Nat) (bytes : Bytes) : Except Defect (String × Bytes) := do
  let (spelled, rest) ← takeBytes field count bytes
  match ofUtf8? spelled with
  | some text => return (text, rest)
  | none => throw (.notUtf8 field)

/-- The bytes after the mark of a format. -/
def takeMagic (field : String) (magic : Bytes) (bytes : Bytes) : Except Defect Bytes := do
  let (mark, rest) ← takeBytes field magic.length bytes
  if mark = magic then return rest else throw .badMagic

end Wire

end Reload
