import FlexitCs60.Zephyr
import Mathlib.Data.FinEnum
import Mathlib.Tactic.Common

/-! The Modbus slave's tables and counters, with coils packed in bytes. -/
namespace FlexitCs60.Slave

def slaveAddr : UInt8 := 1
abbrev coilCount : Nat := 16
abbrev regCount : Nat := 16
abbrev inputRegCount : Nat := 4
def cmdModeAddr : Fin coilCount := 0x0000
def cmdSetpointAddr : Fin coilCount := 0x000C
def sentinelNone : UInt16 := 0xFFFF

/-- Bit 0 of the first byte is coil 0. -/
abbrev Coils := Vector UInt8 2

/-- `(uint8_t)(1u << (i & 7))` -/
def coilMask (i : Nat) : UInt8 := 1 <<< UInt8.ofNat (i % 8)

/-- `i >> 3` -/
def coilByte (i : Fin coilCount) : Fin 2 := ⟨i.val / 8, Nat.div_lt_of_lt_mul i.isLt⟩

namespace Coils

/-- `coils[i >> 3] & mask` -/
def test (coils : Coils) (i : Fin coilCount) : Bool := coils[coilByte i] &&& coilMask i ≠ 0

/-- `coils[i >> 3] |= mask` -/
def raise (coils : Coils) (i : Fin coilCount) : Coils :=
  coils.set (coilByte i) (coils[coilByte i] ||| coilMask i)

/-- `coils[i >> 3] &= ~mask` -/
def lower (coils : Coils) (i : Fin coilCount) : Coils :=
  coils.set (coilByte i) (coils[coilByte i] &&& ~~~coilMask i)

theorem mask_bit (i : Nat) {k : Nat} (bit : k < 8) :
    (coilMask i).toBitVec.getLsbD k = decide (i % 8 = k) := by
  have small : i % 8 < 8 := Nat.mod_lt _ (by decide)
  unfold coilMask
  generalize i % 8 = l at small
  revert k l
  decide +kernel

/-- The C test of a masked byte reads one bit of it. -/
theorem masked_bit (byte : UInt8) (i : Nat) :
    decide (byte &&& coilMask i ≠ 0) = byte.toBitVec.getLsbD (i % 8) := by
  have small : i % 8 < 8 := Nat.mod_lt _ (by decide)
  unfold coilMask
  generalize i % 8 = k at small
  revert byte k
  decide +kernel

theorem test_eq_bit (coils : Coils) (i : Fin coilCount) :
    coils.test i = coils[coilByte i].toBitVec.getLsbD (i.val % 8) :=
  masked_bit _ _

theorem coilByte_ne {i j : Fin coilCount} (same : (coilByte i).val = (coilByte j).val) (ne : i ≠ j) :
    i.val % 8 ≠ j.val % 8 := by
  intro bits
  simp only [coilByte] at same
  exact ne (Fin.ext (by omega))

@[simp] theorem test_raise (coils : Coils) (i j : Fin coilCount) :
    (coils.raise i).test j = (decide (i = j) || coils.test j) := by
  have bit : j.val % 8 < 8 := Nat.mod_lt _ (by decide)
  simp only [test_eq_bit, raise, Fin.getElem_fin, Vector.getElem_set]
  by_cases same : (coilByte i).val = (coilByte j).val
  · rw [if_pos same]
    simp only [UInt8.toBitVec_or, BitVec.getLsbD_or, mask_bit _ bit, same]
    by_cases equal : i = j
    · simp [equal]
    · simp [equal, coilByte_ne same equal]
  · have different : i ≠ j := by
      rintro rfl
      exact same rfl
    rw [if_neg same]
    simp [different]

@[simp] theorem test_lower (coils : Coils) (i j : Fin coilCount) :
    (coils.lower i).test j = (decide (i ≠ j) && coils.test j) := by
  have bit : j.val % 8 < 8 := Nat.mod_lt _ (by decide)
  simp only [test_eq_bit, lower, Fin.getElem_fin, Vector.getElem_set]
  by_cases same : (coilByte i).val = (coilByte j).val
  · rw [if_pos same]
    simp only [UInt8.toBitVec_and, UInt8.toBitVec_not, BitVec.getLsbD_and, BitVec.getLsbD_not,
      mask_bit _ bit, same]
    by_cases equal : i = j
    · simp [equal]
    · simp [equal, coilByte_ne same equal, bit]
  · have different : i ≠ j := by
      rintro rfl
      exact same rfl
    rw [if_neg same]
    simp [different]

end Coils

/-- The file-static `state`. -/
structure State where
  coils : Coils
  regs : Vector UInt16 regCount
  pendingMode : UInt16
  lastAckedMode : UInt16
  lastAckUptimeMs : UInt64
  pendingSetpoint : UInt16
  setpointReads : UInt32
  fc01Serviced : UInt32
  fc03Serviced : UInt32
  fc04Serviced : UInt32
  fc65Acks : UInt32
  txErrors : UInt32
  crcFailures : UInt32
  deriving DecidableEq, Repr

def inputRegs : Vector UInt16 inputRegCount := #v[0x0000, 0x0000, 0x0001, 0x0200]

/-- `flexit_slave_init`: `memset` to zero, then the three sentinels. -/
def flexitSlaveInit : State where
  coils := Vector.replicate 2 0
  regs := Vector.replicate regCount 0
  pendingMode := sentinelNone
  lastAckedMode := sentinelNone
  lastAckUptimeMs := 0
  pendingSetpoint := sentinelNone
  setpointReads := 0
  fc01Serviced := 0
  fc03Serviced := 0
  fc04Serviced := 0
  fc65Acks := 0
  txErrors := 0
  crcFailures := 0

/-- `flexit_slave_queue_mode`, with its return value. -/
def flexitSlaveQueueMode (mode : UInt16) (s : State) : Int × State :=
  if mode > 3 then (-EINVAL, s)
  else
    (0, { s with
      regs := s.regs.set cmdModeAddr mode
      coils := s.coils.raise cmdModeAddr
      pendingMode := mode })

/-- `flexit_slave_queue_setpoint`, with its return value. -/
def flexitSlaveQueueSetpoint (valueX10 : UInt16) (s : State) : Int × State :=
  (0, { s with
    regs := s.regs.set cmdSetpointAddr valueX10
    coils := s.coils.raise cmdSetpointAddr
    pendingSetpoint := valueX10 })

/-- `struct flexit_slave_snapshot` -/
structure Snapshot where
  pendingMode : UInt16
  lastAckedMode : UInt16
  lastAckUptimeMs : UInt64
  fc01Serviced : UInt32
  fc03Serviced : UInt32
  fc04Serviced : UInt32
  fc65Acks : UInt32
  txErrors : UInt32
  crcFailures : UInt32
  coil0Pending : Bool
  reg0Value : UInt16
  pendingSetpoint : UInt16
  coilSetpointPending : Bool
  regSetpointValue : UInt16
  setpointReads : UInt32
  deriving DecidableEq, Repr

def flexitSlaveSnapshot (s : State) : Snapshot where
  pendingMode := s.pendingMode
  lastAckedMode := s.lastAckedMode
  lastAckUptimeMs := s.lastAckUptimeMs
  fc01Serviced := s.fc01Serviced
  fc03Serviced := s.fc03Serviced
  fc04Serviced := s.fc04Serviced
  fc65Acks := s.fc65Acks
  txErrors := s.txErrors
  crcFailures := s.crcFailures
  coil0Pending := s.coils.test cmdModeAddr
  reg0Value := s.regs.get cmdModeAddr
  pendingSetpoint := s.pendingSetpoint
  coilSetpointPending := s.coils.test cmdSetpointAddr
  regSetpointValue := s.regs.get cmdSetpointAddr
  setpointReads := s.setpointReads

end FlexitCs60.Slave
