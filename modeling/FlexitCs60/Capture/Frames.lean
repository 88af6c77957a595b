import FlexitCs60.Wire.Crc16
import FlexitCs60.Wire.Slice

/-! Frame lengths and the frame check of `rs485-decode`. Reads that leave a
slice are `none`, the panic of the program. -/
namespace FlexitCs60.Capture
open Wire

def crc16 (b : List UInt8) : UInt16 := Crc16.reflected 0xA001 0xFFFF b

def crcOK (frame : List UInt8) : Option Bool :=
  if frame.length < 4 then some false
  else do
    let n := frame.length
    let lo ← frame[n - 2]?
    let hi ← frame[n - 1]?
    let want := lo.toUInt16 ||| hi.toUInt16 <<< 8
    let body ← slice frame 0 (n - 2)
    return crc16 body = want

def be16 (b : List UInt8) (off : Nat) : Option UInt16 := do
  let hi ← b[off]?
  let lo ← b[off + 1]?
  return hi.toUInt16 <<< 8 ||| lo.toUInt16

/-- Total frame lengths to try at a position, by function code and byte count. -/
def candidateLengths (buf : List UInt8) (i : Nat) : Option (List Nat) :=
  if i + 2 > buf.length then some []
  else do
    let fc ← buf[i + 1]?
    if fc = 0x01 ∨ fc = 0x02 ∨ fc = 0x03 ∨ fc = 0x04 then
      if i + 2 < buf.length then
        let bc ← buf[i + 2]?
        return [8, bc.toNat + 5]
      else return [8]
    else if fc = 0x05 ∨ fc = 0x06 then return [8]
    else if fc = 0x0F ∨ fc = 0x10 then
      if i + 7 ≤ buf.length then
        let bc ← buf[i + 6]?
        return [bc.toNat + 9]
      else return []
    else if fc = 0x65 then return [8]
    else return []

/-- What `crcOK` answers on a frame that can hold a check sum. -/
theorem crcOK_eq {frame : List UInt8} (room : 4 ≤ frame.length) :
    crcOK frame = some (decide (crc16 (frame.take (frame.length - 2)) =
      (frame.getD (frame.length - 2) 0).toUInt16 |||
        (frame.getD (frame.length - 1) 0).toUInt16 <<< 8)) := by
  have lo := List.getElem?_eq_getElem (show frame.length - 2 < frame.length by omega)
  have hi := List.getElem?_eq_getElem (show frame.length - 1 < frame.length by omega)
  have body := slice_eq (b := frame) (Nat.zero_le (frame.length - 2)) (by omega)
  rw [crcOK, if_neg (by omega)]
  simp [lo, hi, body, List.getD_eq_getElem?_getD]

theorem crcOK_total (frame : List UInt8) : ∃ ok, crcOK frame = some ok := by
  by_cases short : frame.length < 4
  · exact ⟨false, if_pos short⟩
  · exact ⟨_, crcOK_eq (by omega)⟩

theorem be16_total {b : List UInt8} {off : Nat} (inside : off + 1 < b.length) :
    ∃ word, be16 b off = some word := by
  rw [be16, List.getElem?_eq_getElem (show off < b.length by omega),
    List.getElem?_eq_getElem inside]
  exact ⟨_, rfl⟩

theorem candidateLengths_total (buf : List UInt8) (i : Nat) :
    ∃ lengths, candidateLengths buf i = some lengths := by
  rw [candidateLengths]
  by_cases short : i + 2 > buf.length
  · exact ⟨[], if_pos short⟩
  · have fc := List.getElem?_eq_getElem (show i + 1 < buf.length by omega)
    rw [if_neg short, fc]
    simp only [Option.bind_eq_bind, Option.bind_some]
    split_ifs with h1 h2 h3 h4 h5 h6
    · rw [List.getElem?_eq_getElem h2]
      exact ⟨_, rfl⟩
    all_goals try exact ⟨_, rfl⟩
    · rw [List.getElem?_eq_getElem (show i + 6 < buf.length by omega)]
      exact ⟨_, rfl⟩

/-- Where a candidate length comes from. -/
theorem candidate_cases {buf : List UInt8} {i len : Nat} {lengths : List Nat}
    (found : candidateLengths buf i = some lengths) (candidate : len ∈ lengths) :
    ∃ fc, buf[i + 1]? = some fc ∧
      ((fc = 0x01 ∨ fc = 0x02 ∨ fc = 0x03 ∨ fc = 0x04) ∧
          (len = 8 ∨ ∃ bc, buf[i + 2]? = some bc ∧ len = bc.toNat + 5) ∨
        (fc = 0x05 ∨ fc = 0x06 ∨ fc = 0x65) ∧ len = 8 ∨
        (fc = 0x0F ∨ fc = 0x10) ∧ ∃ bc, buf[i + 6]? = some bc ∧ len = bc.toNat + 9) := by
  rw [candidateLengths] at found
  by_cases short : i + 2 > buf.length
  · rw [if_pos short, Option.some.injEq] at found
    simp [← found] at candidate
  · obtain ⟨fc, code, found⟩ := Option.bind_eq_some_iff.mp ((if_neg short).symm.trans found)
    refine ⟨fc, code, ?_⟩
    split_ifs at found with reads sized single multiple whole flexit
    · obtain ⟨bc, byte, found⟩ := Option.bind_eq_some_iff.mp found
      obtain rfl := Option.some.inj found
      refine .inl ⟨reads, ?_⟩
      simpa [byte] using candidate
    · obtain rfl := Option.some.inj found
      exact .inl ⟨reads, .inl (by simpa using candidate)⟩
    · obtain rfl := Option.some.inj found
      exact .inr (.inl ⟨by tauto, by simpa using candidate⟩)
    · obtain ⟨bc, byte, found⟩ := Option.bind_eq_some_iff.mp found
      obtain rfl := Option.some.inj found
      exact .inr (.inr ⟨multiple, bc, byte, by simpa using candidate⟩)
    · obtain rfl := Option.some.inj found
      simp at candidate
    · obtain rfl := Option.some.inj found
      exact .inr (.inl ⟨by tauto, by simpa using candidate⟩)
    · obtain rfl := Option.some.inj found
      simp at candidate

end FlexitCs60.Capture
