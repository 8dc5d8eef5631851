import Reload.Failure
import Reload.Settings
import Reload.Wire.Image
import Reload.Wire.SourceUnit

/-!
The packing of a source unit into an image. The image carries the requested name and the
host API level of the settings; the path that the unit declares is only compared, and only under
strict names.
-/

namespace Reload

open Wire

/-- The image of the unit in the raw bytes, under the requested name. The size is checked before
    the bytes are read, and the declared path before the image is written. -/
def Settings.pack (settings : Settings) (name : Name) (raw : Bytes) : Except Failure Bytes :=
  if settings.isOversized raw.length then
    .error (.unitTooLarge raw.length settings.maxUnitSize)
  else
    match SourceUnit.decode raw with
    | .error defect => .error (.packing defect.message)
    | .ok unit =>
      if settings.strictNames ∧ unit.path ≠ name.path then
        .error (.packing
          ("unit declares " ++ unit.path ++ " but was defined as " ++ name.path))
      else
        match Image.encode { api := settings.minHostApi, name := name.text, body := unit.body } with
        | .error defect => .error (.packing defect.message)
        | .ok image => .ok image

end Reload
