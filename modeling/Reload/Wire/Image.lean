import Reload.Wire.Crc32

/-!
An image is what a host instantiates: the host API level it needs, the name of the unit it
defines, and the body. A checksum over all the bytes before it stands at the end.

    "HSI1" | API level: 2 bytes | name length: 2 bytes | name: UTF-8
           | body length: 4 bytes | body | checksum: 4 bytes
-/

namespace Reload

/-- A packed unit, ready to be instantiated. -/
structure Image where
  /-- The lowest host API level that can run the unit. -/
  api : UInt16
  /-- The text of the name of the unit. An image may carry a text that is no name. -/
  name : String
  body : Bytes
  deriving DecidableEq

namespace Image

open Wire

/-- The four bytes `HSI1` that begin every image. -/
def magic : Bytes := [0x48, 0x53, 0x49, 0x31]

def fields (image : Image) : Bytes :=
  let name := utf8 image.name
  magic ++ bigEndian 2 image.api.toNat ++ bigEndian 2 name.length ++ name
    ++ bigEndian 4 image.body.length ++ image.body

/-- Bytes followed by their checksum. -/
def withChecksum (bytes : Bytes) : Bytes :=
  bytes ++ bigEndian 4 (Crc32.checksum bytes).toNat

/-- The bytes of an image. There are none if the name needs more than two bytes for its length,
    or else if the body needs more than four. -/
def encode (image : Image) : Except Defect Bytes :=
  if 65535 < (utf8 image.name).length then .error (.tooLong "image name")
  else if 4294967295 < image.body.length then .error (.tooLong "image body")
  else .ok (withChecksum image.fields)

/-- The image that fields without a checksum spell, or the first defect in their order. -/
def ofFields (bytes : Bytes) : Except Defect Image := do
  let rest ← takeMagic "image magic" magic bytes
  let (api, rest) ← takeNumber "image API level" 2 rest
  let (nameLength, rest) ← takeNumber "image name length" 2 rest
  let (name, rest) ← takeText "image name" nameLength rest
  let (bodyLength, rest) ← takeNumber "image body length" 4 rest
  let (body, rest) ← takeBytes "image body" bodyLength rest
  if rest = [] then return { api := UInt16.ofNat api, name, body } else throw .trailingBytes

/-- The image that bytes spell. The checksum is compared before the fields are read. -/
def decode (bytes : Bytes) : Except Defect Image :=
  let payload := bytes.take (bytes.length - 4)
  let trailer := bytes.drop (bytes.length - 4)
  if bytes.length < 4 then .error (.truncated "image checksum")
  else if (Crc32.checksum payload).toNat ≠ ofBigEndian trailer then .error .checksumMismatch
  else ofFields payload

end Image

end Reload
