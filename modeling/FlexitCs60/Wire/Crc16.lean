import Mathlib.Logic.Function.Iterate

/-! Bitwise reflected CRC-16 over a byte sequence. -/
namespace Wire.Crc16

/-- One shift of the register. -/
def shift (poly crc : UInt16) : UInt16 :=
  if crc &&& 1 ≠ 0 then (crc >>> 1) ^^^ poly else crc >>> 1

def step (poly crc : UInt16) (byte : UInt8) : UInt16 :=
  (shift poly)^[8] (crc ^^^ byte.toUInt16)

def reflected (poly seed : UInt16) (data : List UInt8) : UInt16 := data.foldl (step poly) seed

/-- The Modbus RTU frame check. -/
def modbus (data : List UInt8) : UInt16 := reflected 0xA001 0xFFFF data

example : modbus [0x01, 0x04, 0x00, 0x00, 0x00, 0x04] = 0xC9F1 := by decide +kernel

end Wire.Crc16
