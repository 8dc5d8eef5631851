import Reload.Wire.Field

/-!
The 32-bit cyclic redundancy check ISO-HDLC: reflected polynomial `0xEDB88320`, and all bits set
in the first state and in the final mask. The state takes in one bit at a time, the lowest bit of
each byte first.
-/

namespace Reload.Wire.Crc32

/-- The polynomial, with the coefficient of the highest power in the lowest bit. -/
def polynomial : UInt32 := 0xEDB88320

/-- The state after one bit has left at its low end. -/
def shiftBit (state : UInt32) : UInt32 :=
  if state &&& 1 = 1 then (state >>> 1) ^^^ polynomial else state >>> 1

def step (state : UInt32) (byte : UInt8) : UInt32 :=
  shiftBit (shiftBit (shiftBit (shiftBit (shiftBit (shiftBit (shiftBit (shiftBit
    (state ^^^ byte.toUInt32))))))))

def run (state : UInt32) (bytes : Bytes) : UInt32 :=
  bytes.foldl step state

/-- The mask of the first state and of the result: all bits set. -/
def mask : UInt32 := 0xFFFFFFFF

def checksum (bytes : Bytes) : UInt32 :=
  run mask bytes ^^^ mask

end Reload.Wire.Crc32
