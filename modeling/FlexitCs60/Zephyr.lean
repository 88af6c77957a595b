import FlexitCs60.Wire.Crc16

/-! What the firmware calls and the repository does not contain. -/
namespace FlexitCs60

/-- The RTOS library functions whose results the modelled code uses. Uptimes and
driver outcomes are inputs of the functions that read them instead. -/
class Zephyr where
  crc16Ansi : List UInt8 → UInt16

export Zephyr (crc16Ansi)

/-- `crc16_ansi` as documented: reflected polynomial `0xA001`, seed `0xFFFF`. -/
instance modbusZephyr : Zephyr where
  crc16Ansi := Wire.Crc16.modbus

def EINVAL : Int := 22
def ENODEV : Int := 19
def ETIMEDOUT : Int := 116
def ECANCELED : Int := 140

end FlexitCs60
