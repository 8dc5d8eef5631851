import Reload.Wire.Field

/-!
A source unit is what a compiler hands in for one definition: the path it declares, and a body.

    "HSU1" | path length: 2 bytes | path: UTF-8 | body: all the rest
-/

namespace Reload

/-- A compiled unit before its packing into an image. -/
structure SourceUnit where
  /-- The path that the compiler declares for the unit. -/
  path : String
  body : Bytes
  deriving DecidableEq

namespace SourceUnit

open Wire

/-- The four bytes `HSU1` that begin every unit. -/
def magic : Bytes := [0x48, 0x53, 0x55, 0x31]

/-- The bytes of a unit. There are none if the path needs more than two bytes for its length. -/
def encode (unit : SourceUnit) : Except Defect Bytes :=
  let path := utf8 unit.path
  if 65535 < path.length then .error (.tooLong "unit path")
  else .ok (magic ++ bigEndian 2 path.length ++ path ++ unit.body)

/-- The unit that bytes spell, or the first defect in the order of the fields. -/
def decode (bytes : Bytes) : Except Defect SourceUnit := do
  let rest ← takeMagic "unit magic" magic bytes
  let (length, rest) ← takeNumber "unit path length" 2 rest
  let (path, body) ← takeText "unit path" length rest
  return { path, body }

end SourceUnit

end Reload
