import FlexitCs60.Capture.Frames
import FlexitCs60.Mirror.Tables
import FlexitCs60.Wire.Burst

/-! Every check of the frame check sum, in the tool and in the firmware, sees a
burst of up to sixteen bits. -/
namespace FlexitCs60.Capture
open Wire Crc16 Mirror

theorem crcOK_iff_residue {frame : List UInt8} (room : 4 ≤ frame.length) :
    crcOK frame = some (decide (reflected 0xA001 0xFFFF frame = 0)) := by
  have room' : 2 ≤ frame.length := by omega
  have ending : getLe16 (frame.drop (frame.length - 2)) =
      (frame.getD (frame.length - 2) 0).toUInt16 |||
        (frame.getD (frame.length - 1) 0).toUInt16 <<< 8 := by
    have last : frame.length - 2 + 1 = frame.length - 1 := by omega
    simp only [getLe16, List.getD_eq_getElem?_getD, List.getElem?_drop, Nat.add_zero, last]
    exact UInt16.or_comm _ _
  rw [crcOK_eq room, ← ending, crc16]
  exact congrArg some (decide_eq_decide.mpr (reflected_residue (by decide) 0xFFFF room'))

theorem length_corrupt {frame pattern : List UInt8} (same : pattern.length = frame.length) :
    (corrupt frame pattern).length = frame.length := by
  rw [corrupt, List.length_zipWith, same, Nat.min_self]

/-- The firmware's check on a whole frame, where `crc16_ansi` is this check sum. -/
theorem crcOk_iff_residue [Zephyr] (standard : ∀ data, crc16Ansi data = Crc16.modbus data)
    {frame : List UInt8} (room : 2 ≤ frame.length) :
    crcOk frame frame.length = decide (reflected 0xA001 0xFFFF frame = 0) := by
  rw [crcOk, standard, modbus]
  exact decide_eq_decide.mpr (reflected_residue (by decide) 0xFFFF room)

/-- A burst of at most sixteen bits, anywhere in a valid frame and its check sum,
fails the tool's check, the firmware's, and both gates of the mirror. -/
theorem burst_rejected [Zephyr] (standard : ∀ data, crc16Ansi data = Crc16.modbus data)
    {frame pattern : List UInt8} (room : 4 ≤ frame.length)
    (same : pattern.length = frame.length) (burst : Burst 16 pattern) :
    (crcOK frame = some true → crcOK (corrupt frame pattern) = some false) ∧
    (crcOk frame frame.length = true → crcOk (corrupt frame pattern) frame.length = false) ∧
    (frame.length = fc10Len → ∀ uptime s, (tryDecodeFc10 uptime frame s).1 = true →
      tryDecodeFc10 uptime (corrupt frame pattern) s = (false, s)) ∧
    (frame.length = fc06Len → ∀ uptime s, (tryDecodeFc06 uptime frame s).1 = true →
      tryDecodeFc06 uptime (corrupt frame pattern) s = (false, s)) := by
  have width := length_corrupt same
  have detected : reflected 0xA001 0xFFFF frame = 0 →
      reflected 0xA001 0xFFFF (corrupt frame pattern) ≠ 0 :=
    burst_detected (by decide) 0xFFFF same burst
  have firmware : crcOk frame frame.length = true →
      crcOk (corrupt frame pattern) frame.length = false := by
    intro valid
    rw [crcOk_iff_residue standard (by omega), decide_eq_true_eq] at valid
    have residue := crcOk_iff_residue standard (show 2 ≤ (corrupt frame pattern).length by omega)
    rw [width] at residue
    rw [residue, decide_eq_false_iff_not]
    exact detected valid
  refine ⟨?_, firmware, ?_, ?_⟩
  · intro valid
    rw [crcOK_iff_residue room, Option.some.injEq, decide_eq_true_eq] at valid
    rw [crcOK_iff_residue (by omega), Option.some.injEq, decide_eq_false_iff_not]
    exact detected valid
  · intro size uptime s valid
    rw [size] at firmware
    cases check : crcOk frame fc10Len
    · simp [tryDecodeFc10, check] at valid
    · rw [tryDecodeFc10, firmware check, if_neg Bool.false_ne_true]
  · intro size uptime s valid
    rw [size] at firmware
    cases check : crcOk frame fc06Len
    · simp [tryDecodeFc06, check] at valid
    · rw [tryDecodeFc06, firmware check, if_neg Bool.false_ne_true]

/-- A setpoint write, and nine flipped bits across two of its bytes. -/
def setpointWrite : List UInt8 := stampCrc [0x00, 0x06, 0x00, 0xBE, 0x00, 0xD7]
def nineBits : List UInt8 := [0, 0, 0x80, 0xFF, 0, 0, 0, 0]

theorem burst_rejected_setpoint :
    crcOK (corrupt setpointWrite nineBits) = some false ∧
      crcOk (corrupt setpointWrite nineBits) setpointWrite.length = false := by
  have within : ∀ k < 64, (bits nineBits)[k]? = some true → 20 ≤ k ∧ k < 20 + 16 := by decide
  have burst : Burst 16 nineBits := by
    refine ⟨⟨20, fun k set => within k ?_ set⟩, by decide⟩
    exact (List.getElem?_eq_some_iff.mp set).1
  have rejected := burst_rejected (fun _ => rfl) (show 4 ≤ setpointWrite.length by decide)
    (by decide) burst
  exact ⟨rejected.1 (by decide +kernel), rejected.2.1 (by decide +kernel)⟩

end FlexitCs60.Capture
