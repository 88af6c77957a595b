import FlexitCs60.Wire.Bytes
import FlexitCs60.Zephyr

/-! The little-endian check sum at the end of a frame. -/
namespace FlexitCs60
open Wire

variable [Zephyr]

def crcOk (frame : List UInt8) (len : Nat) : Bool :=
  crc16Ansi (frame.take (len - 2)) = getLe16 (frame.drop (len - 2))

/-- A frame body with its little-endian check sum behind it. -/
def stampCrc (body : List UInt8) : List UInt8 := body ++ putLe16 (crc16Ansi body)

@[simp] theorem length_stampCrc (body : List UInt8) :
    (stampCrc body).length = body.length + 2 := by
  rw [stampCrc, List.length_append, length_putLe16]

/-- A frame passes the check exactly when it is its body with the stamp. -/
theorem crcOk_iff {frame : List UInt8} {len : Nat} (size : frame.length = len) (room : 2 ≤ len) :
    crcOk frame len = true ↔ ∃ body, body.length = len - 2 ∧ frame = stampCrc body := by
  have halves := (List.take_append_drop (len - 2) frame).symm
  have tail : (frame.drop (len - 2)).length = 2 := by
    rw [List.length_drop]
    omega
  obtain ⟨lo, hi, bytes⟩ := List.length_eq_two.mp tail
  rw [crcOk, decide_eq_true_eq, bytes]
  constructor
  · intro matched
    refine ⟨frame.take (len - 2), by rw [List.length_take]; omega, ?_⟩
    rw [stampCrc, putLe16_eq_iff.mpr matched, ← bytes]
    exact halves
  · rintro ⟨body, length, stamped⟩
    rw [bytes, stamped, stampCrc, List.take_left' length] at halves
    rw [stamped, stampCrc, List.take_left' length]
    exact putLe16_eq_iff.mp (List.append_cancel_left halves)

end FlexitCs60
