import Reload.Text.Quoted

/-!
What can be wrong with the bytes of a unit or an image, or with values that have no bytes. Each
defect of a field names the field.
-/

namespace Reload.Wire

/-- The defect for which bytes are refused, or for which a value cannot be written. -/
inductive Defect where
  /-- The bytes do not begin with the mark of their format. -/
  | badMagic
  /-- The bytes end inside the field. -/
  | truncated (field : String)
  | notUtf8 (field : String)
  /-- The field is longer than its length field can say. -/
  | tooLong (field : String)
  | checksumMismatch
  | trailingBytes
  deriving DecidableEq

namespace Defect

def message : Defect → String
  | badMagic => "bad magic"
  | truncated field => "truncated " ++ field
  | notUtf8 field => field ++ " is not valid UTF-8"
  | tooLong field => field ++ " too long"
  | checksumMismatch => "checksum mismatch"
  | trailingBytes => "trailing bytes after image body"

def kind : Defect → String
  | badMagic => "BadMagic"
  | truncated _ => "Truncated"
  | notUtf8 _ => "InvalidUtf8"
  | tooLong _ => "TooLong"
  | checksumMismatch => "ChecksumMismatch"
  | trailingBytes => "TrailingBytes"

def field? : Defect → Option String
  | truncated field | notUtf8 field | tooLong field => some field
  | badMagic | checksumMismatch | trailingBytes => none

/-- The text of a defect in descriptions: its kind, and the field it names. -/
def describe (defect : Defect) : String :=
  match defect.field? with
  | some field => defect.kind ++ "(" ++ Text.quoted field ++ ")"
  | none => defect.kind

end Defect

end Reload.Wire
