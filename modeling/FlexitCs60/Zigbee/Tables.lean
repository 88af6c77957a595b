import FlexitCs60.Wire.Binary32
import Mathlib.Data.Rat.Floor
import Mathlib.Logic.Function.Basic

/-! The Zigbee data model: latched cluster values, the setters that fill them and
the attributes they end up in. Single-precision values are rationals. A division rounds. The
sum in `handle_setpoint_write` is exact here: where it would round, the truncation and the clamp
behind it come to the same. -/
namespace FlexitCs60.Zigbee

inductive TempChannel where
  | supply
  deriving DecidableEq, Repr

inductive AnalogChannel where
  | heatExchanger
  | heating
  | intakeTemp
  deriving DecidableEq, Repr

inductive BinaryChannel where
  | supplySensor
  | outdoorSensor
  | heatExchanger
  | overheat
  | filter
  deriving DecidableEq, Repr

/-- The endpoints, numbered 1, 2, 4, 5, 6 and 7. -/
inductive Endpoint where
  | ctrl
  | supply
  | intake
  | heatExch
  | heating
  | setpoint
  deriving DecidableEq, Repr

def tempEpId : TempChannel → Endpoint
  | .supply => .supply

def analogEpId : AnalogChannel → Endpoint
  | .heatExchanger => .heatExch
  | .heating => .heating
  | .intakeTemp => .intake

def binaryEpId : BinaryChannel → Endpoint
  | .supplySensor => .supply
  | .outdoorSensor => .intake
  | .heatExchanger => .heatExch
  | .overheat => .heating
  | .filter => .ctrl

/-- A value waiting to be published, with its dirty flag. -/
structure Latch (α : Type) where
  val : α
  dirty : Bool
  deriving Repr

namespace Latch
variable {α : Type}

def fresh (v : α) : Latch α := ⟨v, true⟩
def clean (v : α) : Latch α := ⟨v, false⟩
def taken (l : Latch α) : Latch α := { l with dirty := false }

end Latch

/-- What `publish_tick` copies under the lock. -/
structure Latches where
  temp : TempChannel → Latch Int16
  /-- Uptime of the last fresh value, zero before the first. -/
  tempLastMs : TempChannel → ℤ
  analog : AnalogChannel → Latch ℚ
  binary : BinaryChannel → Latch Bool
  setpoint : Latch ℚ
  mode : Latch UInt8

/-- The file-static `pending`. -/
structure Pending extends Latches where
  setpointHoldUntil : ℤ

def bootPending : Pending where
  temp _ := .clean 0
  tempLastMs _ := 0
  analog _ := .clean 0
  binary _ := .clean false
  setpoint := .clean 0
  mode := .clean 0
  setpointHoldUntil := 0

/-- The ZCL attributes the firmware writes, by endpoint. -/
structure Attributes where
  measuredValue : Endpoint → Int16
  analogInput : Endpoint → ℚ
  binaryInput : Endpoint → Bool
  analogValue : Endpoint → ℚ
  fanMode : Endpoint → UInt8

/-- `ZB_ZCL_ATTR_TEMP_MEASUREMENT_VALUE_UNKNOWN`, the word `0x8000`. -/
def valueUnknown : Int16 := -0x8000

def bootAttributes : Attributes where
  measuredValue _ := valueUnknown
  analogInput _ := 0
  binaryInput _ := false
  analogValue _ := 0
  fanMode _ := 0

def setpointMinDc : ℤ := 100
def setpointMaxDc : ℤ := 300
def setpointWriteHoldMs : ℤ := 5000

/-! The public setters. A channel outside its enumeration, which the C functions
ignore, cannot be written here. -/

def setTemperature (uptime : ℤ) (ch : TempChannel) (centiCelsius : Int16) (p : Pending) : Pending :=
  { p with
    temp := Function.update p.temp ch (.fresh centiCelsius)
    tempLastMs := Function.update p.tempLastMs ch uptime }

def setPercent (ch : AnalogChannel) (percent : UInt16) (p : Pending) : Pending :=
  { p with analog := Function.update p.analog ch (.fresh percent.toNat) }

def setBinary (ch : BinaryChannel) (active : Bool) (p : Pending) : Pending :=
  { p with binary := Function.update p.binary ch (.fresh active) }

def setIntakeTemp (valueDc : Int16) (p : Pending) : Pending :=
  { p with
    analog := Function.update p.analog .intakeTemp (.fresh (Binary32.round (valueDc.toInt / 10))) }

def setMode (flexitMode : UInt8) (p : Pending) : Pending :=
  if flexitMode > 3 then p else { p with mode := .fresh flexitMode }

/-- A readback is skipped during the hold after a client write. -/
def setSetpoint (uptime : ℤ) (valueDc : Int16) (p : Pending) : Pending :=
  if uptime ≥ p.setpointHoldUntil then { p with setpoint := .fresh valueDc.toInt } else p

/-! The write handlers, with what they pass to the registered callback. -/

/-- `handle_fan_mode_write`. -/
def handleFanModeWrite (fanMode : UInt8) : Option UInt8 :=
  if fanMode > 3 then none else some fanMode

/-- The conversion `(int32_t)` of a value in its range, towards zero. -/
def truncate (v : ℚ) : ℤ := if 0 ≤ v then ⌊v⌋ else ⌈v⌉

def clampSetpoint (dc : ℤ) : ℤ :=
  if dc < setpointMinDc then setpointMinDc
  else if dc > setpointMaxDc then setpointMaxDc else dc

theorem clampSetpoint_eq (dc : ℤ) : clampSetpoint dc = max 100 (min 300 dc) := by
  have lower : setpointMinDc = 100 := rfl
  have upper : setpointMaxDc = 300 := rfl
  unfold clampSetpoint
  split
  · omega
  · split <;> omega

/-- `handle_setpoint_write`. -/
def handleSetpointWrite (uptime : ℤ) (valueDc : ℚ) (p : Pending) : Pending × Int16 :=
  let dc := clampSetpoint (truncate (valueDc + if valueDc ≥ 0 then 1 / 2 else -1 / 2))
  ({ p with setpointHoldUntil := uptime + setpointWriteHoldMs }, Int16.ofInt dc)

end FlexitCs60.Zigbee
