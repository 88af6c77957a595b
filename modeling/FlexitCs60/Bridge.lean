import FlexitCs60.Slave.Tables
import FlexitCs60.Zigbee.Tables

/-! The two write handlers `flexit_bridge` registers, and the path from a Zigbee
attribute write to the slave's command slots. -/
namespace FlexitCs60.Bridge
open Slave

/-- `mode_write_handler`. -/
def modeWriteHandler (flexitMode : UInt8) (s : Slave.State) : Slave.State :=
  (flexitSlaveQueueMode flexitMode.toUInt16 s).2

/-- `setpoint_write_handler`. -/
def setpointWriteHandler (valueDc : Int16) (s : Slave.State) : Slave.State :=
  (flexitSlaveQueueSetpoint valueDc.toUInt16 s).2

/-- A FanMode write with the bridge's handler registered. -/
def fanModeWrite (fanMode : UInt8) (s : Slave.State) : Slave.State :=
  match Zigbee.handleFanModeWrite fanMode with
  | some flexitMode => modeWriteHandler flexitMode s
  | none => s

/-- A setpoint write with the bridge's handler registered. -/
def setpointWrite (uptime : ℤ) (valueDc : ℚ) (p : Zigbee.Pending) (s : Slave.State) :
    Zigbee.Pending × Slave.State :=
  let (p, dc) := Zigbee.handleSetpointWrite uptime valueDc p
  (p, setpointWriteHandler dc s)

/-- A clamped setpoint survives the casts to `int16_t` and `uint16_t`. -/
theorem setpoint_word (dc : ℤ) :
    (Int16.ofInt (Zigbee.clampSetpoint dc)).toUInt16.toNat = max 100 (min 300 dc) := by
  have word : ∀ n : Nat, n ≤ 300 → (Int16.ofInt n).toUInt16.toNat = n := by decide +kernel
  rw [Zigbee.clampSetpoint_eq]
  obtain ⟨n, same⟩ := Int.eq_ofNat_of_zero_le (show 0 ≤ max 100 (min 300 dc) by omega)
  rw [same, word n (by omega)]

example : (setpointWrite 0 (429 / 2) Zigbee.bootPending flexitSlaveInit).2.pendingSetpoint = 215 := by
  decide +kernel

end FlexitCs60.Bridge
