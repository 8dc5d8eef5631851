import Reload.Name
import Reload.Wire.Field

/-!
Artifacts: what a host makes of an image. An artifact never changes. Its serial number tells it
from all others; the id that is shown is that number in 64 bits.
-/

namespace Reload

/-- What a host or a caller attaches to an artifact. -/
inductive Payload where
  | nothing
  /-- The body of the unit. -/
  | body (bytes : Bytes)
  | number (value : UInt64)
  | text (value : String)
  deriving DecidableEq

/-- A code unit as it was loaded. -/
structure Artifact where
  /-- The place of the artifact in the order of creation, counted from 1. -/
  serial : Nat
  name : Name
  /-- The size in bytes of the image that the artifact was made from. -/
  imageSize : Nat
  payload : Payload
  deriving DecidableEq

namespace Artifact

/-- The id of an artifact: its serial number in 64 bits. -/
def id (artifact : Artifact) : UInt64 := UInt64.ofNat artifact.serial

def describeId (artifact : Artifact) : String :=
  "ArtifactId(" ++ toString artifact.id.toNat ++ ")"

def describe (artifact : Artifact) : String :=
  "LoadedArtifact \x7b id: " ++ artifact.describeId ++ ", name: " ++ artifact.name.describe
    ++ ", image_size: " ++ toString artifact.imageSize ++ ", .. \x7d"

end Artifact

end Reload
