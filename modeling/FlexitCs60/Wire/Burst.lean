import FlexitCs60.Wire.Bytes
import FlexitCs60.Wire.Crc16
import Mathlib.Data.List.Basic

/-! Burst detection by a reflected CRC-16, from the algebra of its register. -/
namespace Wire.Crc16

variable {poly : UInt16}

theorem odd_iff (crc : UInt16) : crc &&& 1 ≠ 0 ↔ crc.toBitVec.getLsbD 0 = true := by
  rw [ne_eq, ← UInt16.toBitVec_inj, UInt16.toBitVec_and]
  change ¬ crc.toBitVec &&& 1#16 = 0#16 ↔ _
  rw [BitVec.and_one_eq_setWidth_ofBool_getLsbD]
  cases crc.toBitVec.getLsbD 0 <;> decide

theorem shift_toBitVec (poly crc : UInt16) : (shift poly crc).toBitVec =
    (crc.toBitVec >>> 1) ^^^ (if crc.toBitVec.getLsbD 0 then poly.toBitVec else 0#16) := by
  rw [shift]
  by_cases odd : crc &&& 1 ≠ 0
  · rw [if_pos odd, if_pos ((odd_iff crc).mp odd)]
    rfl
  · rw [if_neg odd, if_neg (mt (odd_iff crc).mpr odd), BitVec.xor_zero]
    rfl

theorem shift_xor (a b : UInt16) : shift poly (a ^^^ b) = shift poly a ^^^ shift poly b := by
  apply UInt16.toBitVec_inj.mp
  simp only [shift_toBitVec, UInt16.toBitVec_xor, BitVec.ushiftRight_xor_distrib,
    BitVec.getLsbD_xor]
  apply BitVec.eq_of_getLsbD_eq
  intro i inside
  simp only [BitVec.getLsbD_xor]
  cases a.toBitVec.getLsbD 0 <;> cases b.toBitVec.getLsbD 0 <;>
    cases (a.toBitVec >>> 1).getLsbD i <;> cases (b.toBitVec >>> 1).getLsbD i <;>
    cases poly.toBitVec.getLsbD i <;> simp

/-- With the top coefficient set no other register value shifts to zero. -/
theorem shift_ne_zero (top : poly.toBitVec.getLsbD 15 = true) {crc : UInt16} (nonzero : crc ≠ 0) :
    shift poly crc ≠ 0 := by
  intro zero
  have bits := congrArg UInt16.toBitVec zero
  rw [shift_toBitVec] at bits
  cases low : crc.toBitVec.getLsbD 0 with
  | true =>
    have high := congrArg (BitVec.getLsbD · 15) bits
    rw [low, if_pos rfl] at high
    simp only [BitVec.getLsbD_xor, top] at high
    simp at high
  | false =>
    apply nonzero
    apply UInt16.toBitVec_inj.mp
    apply BitVec.eq_of_getLsbD_eq
    intro i inside
    rw [low, if_neg Bool.false_ne_true] at bits
    cases i with
    | zero => simpa using low
    | succ i =>
      have moved := congrArg (BitVec.getLsbD · i) bits
      simpa [Nat.add_comm] using moved

theorem shifts_xor (n : Nat) (a b : UInt16) :
    (shift poly)^[n] (a ^^^ b) = (shift poly)^[n] a ^^^ (shift poly)^[n] b := by
  induction n with
  | zero => rfl
  | succ n ih => simp only [Function.iterate_succ_apply', ih, shift_xor]

theorem shifts_zero (n : Nat) : (shift poly)^[n] 0 = 0 :=
  Function.iterate_fixed (by simp [shift]) n

theorem shifts_ne_zero (top : poly.toBitVec.getLsbD 15 = true) (n : Nat) {crc : UInt16}
    (nonzero : crc ≠ 0) : (shift poly)^[n] crc ≠ 0 := by
  induction n with
  | zero => exact nonzero
  | succ n ih =>
    rw [Function.iterate_succ_apply']
    exact shift_ne_zero top ih

/-- Bytes in order, least significant bit first. -/
def byteBits (byte : UInt8) : List Bool := (List.range 8).map byte.toNat.testBit

def bits (data : List UInt8) : List Bool := data.flatMap byteBits

def shiftIn (poly crc : UInt16) (bit : Bool) : UInt16 := shift poly (crc ^^^ bit.toUInt16)

/-- The register image of at most sixteen bits. -/
def word : List Bool → UInt16
  | [] => 0
  | bit :: later => bit.toUInt16 ^^^ (word later <<< 1)

theorem word_bit (window : List Bool) {i : Nat} (inside : i < 16) :
    (word window).toBitVec.getLsbD i = window.getD i false := by
  induction window generalizing i with
  | nil => simp [word]
  | cons bit later ih =>
    rw [word, UInt16.toBitVec_xor, BitVec.getLsbD_xor]
    have shifted : (word later <<< 1).toBitVec = (word later).toBitVec <<< 1 := rfl
    rw [shifted]
    cases i with
    | zero => cases bit <;> simp [Bool.toUInt16]
    | succ i =>
      have moved : ((word later).toBitVec <<< 1).getLsbD (i + 1) = later.getD i false := by
        rw [← ih (show i < 16 by omega), BitVec.getLsbD_shiftLeft]
        simp [inside]
      rw [moved]
      cases bit <;> simp [Bool.toUInt16]

theorem word_byteBits (byte : UInt8) : word (byteBits byte) = byte.toUInt16 := by
  apply UInt16.toBitVec_inj.mp
  apply BitVec.eq_of_getLsbD_eq
  intro i inside
  rw [word_bit _ inside, byteBits, List.getD_eq_getElem?_getD]
  by_cases low : i < 8
  · simp [low, BitVec.getLsbD]
  · simp [low, BitVec.getLsbD_of_ge byte.toBitVec i (by omega)]

theorem word_pair (lo hi : UInt8) : word (byteBits lo ++ byteBits hi) = getLe16 [lo, hi] := by
  apply UInt16.toBitVec_inj.mp
  apply BitVec.eq_of_getLsbD_eq
  intro i inside
  have halves : (getLe16 [lo, hi]).toBitVec =
      hi.toBitVec.setWidth 16 <<< 8 ||| lo.toBitVec.setWidth 16 := rfl
  rw [word_bit _ inside, halves, byteBits, byteBits, List.getD_eq_getElem?_getD,
    List.getElem?_append, BitVec.getLsbD_or, BitVec.getLsbD_shiftLeft, BitVec.getLsbD_setWidth]
  by_cases low : i < 8
  · simp [low, inside, BitVec.getLsbD]
  · have beyond : lo.toBitVec.getLsbD i = false := BitVec.getLsbD_of_ge _ _ (by omega)
    rw [BitVec.getLsbD_setWidth, beyond]
    simp [low, inside, show i - 8 < 8 by omega, show i - 8 < 16 by omega, BitVec.getLsbD]

/-- Up to fifteen bits come back out of the register as they went in. -/
theorem shift_word (window : List Bool) (room : window.length ≤ 15) :
    shift poly (word window <<< 1) = word window := by
  have clear : (word window <<< 1).toBitVec = (word window).toBitVec <<< 1 := rfl
  apply UInt16.toBitVec_inj.mp
  rw [shift_toBitVec, clear]
  have even : ((word window).toBitVec <<< 1).getLsbD 0 = false := by simp
  rw [even, if_neg Bool.false_ne_true, BitVec.xor_zero]
  apply BitVec.eq_of_getLsbD_eq
  intro i inside
  rw [BitVec.getLsbD_ushiftRight, BitVec.getLsbD_shiftLeft]
  by_cases last : i < 15
  · simp [show 1 + i < 16 by omega]
  · rw [word_bit _ inside, List.getD_eq_getElem?_getD, List.getElem?_eq_none (by omega)]
    simp [show ¬ 1 + i < 16 by omega]

theorem foldl_shiftIn (window : List Bool) (room : window.length ≤ 16) (crc : UInt16) :
    window.foldl (shiftIn poly) crc = (shift poly)^[window.length] (crc ^^^ word window) := by
  induction window generalizing crc with
  | nil => simp [word]
  | cons bit later ih =>
    rw [List.length_cons] at room
    have fewer : later.length ≤ 15 := by omega
    rw [List.foldl_cons, ih (by omega), List.length_cons, Function.iterate_succ_apply, word,
      ← UInt16.xor_assoc, shift_xor, shift_word later fewer, shiftIn]

theorem step_eq_foldl (crc : UInt16) (byte : UInt8) :
    step poly crc byte = (byteBits byte).foldl (shiftIn poly) crc := by
  rw [foldl_shiftIn _ (by simp [byteBits]), word_byteBits]
  rfl

theorem reflected_eq_foldl (seed : UInt16) (data : List UInt8) :
    reflected poly seed data = (bits data).foldl (shiftIn poly) seed := by
  induction data generalizing seed with
  | nil => rfl
  | cons byte rest ih =>
    rw [bits, List.flatMap_cons, List.foldl_append, ← step_eq_foldl]
    exact ih _

theorem step_xor (a b : UInt16) (x y : UInt8) :
    step poly (a ^^^ b) (x ^^^ y) = step poly a x ^^^ step poly b y := by
  have paired : a ^^^ b ^^^ (x ^^^ y).toUInt16 = (a ^^^ x.toUInt16) ^^^ (b ^^^ y.toUInt16) := by
    rw [UInt8.toUInt16_xor]
    ac_rfl
  rw [step, paired, shifts_xor]
  rfl

/-- The bytes of a frame with an error pattern on them. -/
def corrupt (frame pattern : List UInt8) : List UInt8 := List.zipWith (· ^^^ ·) frame pattern

theorem reflected_corrupt (a b : UInt16) {frame pattern : List UInt8}
    (same : pattern.length = frame.length) :
    reflected poly (a ^^^ b) (corrupt frame pattern) =
      reflected poly a frame ^^^ reflected poly b pattern := by
  induction frame generalizing pattern a b with
  | nil =>
    obtain rfl := List.length_eq_zero_iff.mp same
    rfl
  | cons x frame ih =>
    cases pattern with
    | nil => simp at same
    | cons y pattern =>
      have shorter : pattern.length = frame.length := by simpa using same
      have first := ih (step poly a x) (step poly b y) shorter
      rw [← step_xor] at first
      exact first

/-- A frame leaves the register zero exactly when its last two bytes are the check sum
of those before them. -/
theorem reflected_residue (top : poly.toBitVec.getLsbD 15 = true) (seed : UInt16)
    {frame : List UInt8} (room : 2 ≤ frame.length) :
    reflected poly seed (frame.take (frame.length - 2)) =
      getLe16 (frame.drop (frame.length - 2)) ↔ reflected poly seed frame = 0 := by
  obtain ⟨lo, hi, ending⟩ : ∃ lo hi, frame.drop (frame.length - 2) = [lo, hi] :=
    List.length_eq_two.mp (by rw [List.length_drop]; omega)
  let data := frame.take (frame.length - 2)
  have halves : frame = data ++ [lo, hi] := by
    rw [← ending, List.take_append_drop]
  have pair : bits [lo, hi] = byteBits lo ++ byteBits hi := by simp [bits]
  have tail : reflected poly seed (data ++ [lo, hi]) =
      (shift poly)^[16] (reflected poly seed data ^^^ getLe16 [lo, hi]) := by
    rw [reflected, List.foldl_append, ← reflected, ← reflected, reflected_eq_foldl _ [lo, hi],
      pair, foldl_shiftIn _ (by simp [byteBits]), word_pair]
    simp [byteBits]
  rw [ending]
  constructor
  · intro same
    rw [halves, tail, same, UInt16.xor_self, shifts_zero]
  · intro zero
    rw [halves, tail] at zero
    by_contra differ
    exact shifts_ne_zero top 16 (by simpa using differ) zero

/-- The set bits of a pattern lie within `span` consecutive positions, and there is one. -/
structure Burst (span : Nat) (pattern : List UInt8) : Prop where
  narrow : ∃ start : Nat, ∀ k : Nat, (bits pattern)[k]? = some true → start ≤ k ∧ k < start + span
  nonzero : true ∈ bits pattern

theorem foldl_silent {silent : List Bool} (clear : true ∉ silent) (crc : UInt16) :
    silent.foldl (shiftIn poly) crc = (shift poly)^[silent.length] crc := by
  induction silent generalizing crc with
  | nil => rfl
  | cons bit later ih =>
    obtain ⟨low, rest⟩ : bit = false ∧ true ∉ later := by simpa using clear
    rw [List.foldl_cons, ih rest, List.length_cons, Function.iterate_succ_apply, shiftIn, low]
    simp [Bool.toUInt16]

theorem word_ne_zero {window : List Bool} (room : window.length ≤ 16) (set : true ∈ window) :
    word window ≠ 0 := by
  intro zero
  obtain ⟨i, inside, bit⟩ := List.getElem_of_mem set
  have image := word_bit window (i := i) (by omega)
  rw [zero, List.getD_eq_getElem?_getD, List.getElem?_eq_getElem inside, bit] at image
  simp at image

/-- A burst as wide as the register never cancels out. -/
theorem reflected_burst (top : poly.toBitVec.getLsbD 15 = true) {pattern : List UInt8}
    (burst : Burst 16 pattern) : reflected poly 0 pattern ≠ 0 := by
  obtain ⟨start, narrow⟩ := burst.narrow
  let before := (bits pattern).take start
  let window := ((bits pattern).drop start).take 16
  let later := ((bits pattern).drop start).drop 16
  have parts : bits pattern = before ++ (window ++ later) := by
    rw [List.take_append_drop, List.take_append_drop]
  have leading : true ∉ before := by
    intro set
    obtain ⟨k, bit⟩ := List.mem_iff_getElem?.mp set
    rw [List.getElem?_take] at bit
    split_ifs at bit with inside
    have := narrow k bit
    omega
  have trailing : true ∉ later := by
    intro set
    obtain ⟨k, bit⟩ := List.mem_iff_getElem?.mp set
    rw [List.getElem?_drop, List.getElem?_drop] at bit
    have := narrow _ bit
    omega
  have inside : true ∈ window := by
    have set := burst.nonzero
    rw [parts, List.mem_append, List.mem_append] at set
    tauto
  have room : window.length ≤ 16 := List.length_take_le _ _
  rw [reflected_eq_foldl, parts, List.foldl_append, List.foldl_append, foldl_silent leading,
    shifts_zero, foldl_silent trailing, foldl_shiftIn window room, UInt16.zero_xor]
  exact shifts_ne_zero top _ (shifts_ne_zero top _ (word_ne_zero room inside))

/-- No frame and its corruption by a burst both leave the register zero. -/
theorem burst_detected (top : poly.toBitVec.getLsbD 15 = true) (seed : UInt16)
    {frame pattern : List UInt8} (same : pattern.length = frame.length)
    (burst : Burst 16 pattern) (valid : reflected poly seed frame = 0) :
    reflected poly seed (corrupt frame pattern) ≠ 0 := by
  have split : reflected poly (seed ^^^ 0) (corrupt frame pattern) = _ :=
    reflected_corrupt seed 0 same
  rw [UInt16.xor_zero, valid, UInt16.zero_xor] at split
  rw [split]
  exact reflected_burst top burst

/-- The register goes on where the bytes before have left it. -/
theorem reflected_append (seed : UInt16) (before after : List UInt8) :
    reflected poly seed (before ++ after) = reflected poly (reflected poly seed before) after :=
  List.foldl_append

/-- Only a zero byte keeps the register zero. -/
theorem reflected_single (top : poly.toBitVec.getLsbD 15 = true) (byte : UInt8) :
    reflected poly 0 [byte] = 0 ↔ byte = 0 := by
  constructor
  · intro zero
    by_contra nonzero
    have image : (0 : UInt16) ^^^ byte.toUInt16 ≠ 0 := by
      rw [UInt16.zero_xor]
      intro same
      apply nonzero
      have halves := congrArg UInt16.toNat same
      rw [UInt8.toNat_toUInt16] at halves
      exact UInt8.toNat_inj.mp halves
    exact shifts_ne_zero top 8 image zero
  · rintro rfl
    exact shifts_zero 8

end Wire.Crc16
