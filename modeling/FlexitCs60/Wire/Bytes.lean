import Mathlib.Data.List.Basic
import Mathlib.Data.Nat.Bitwise
import Mathlib.Tactic.Common

/-! Sixteen-bit words in byte buffers, in both byte orders. A pointer into a
buffer is the list that starts there. -/
namespace Wire

theorem getD_append {buffer : List UInt8} {i : Nat} (inside : i < buffer.length)
    (later : List UInt8) : (buffer ++ later).getD i 0 = buffer.getD i 0 := by
  simp [List.getD_eq_getElem?_getD, List.getElem?_append_left inside]

theorem getD_take {i n : Nat} (inside : i < n) (buffer : List UInt8) :
    (buffer.take n).getD i 0 = buffer.getD i 0 := by
  rw [List.getD_eq_getElem?_getD, List.getD_eq_getElem?_getD, List.getElem?_take, if_pos inside]

def getBe16 (p : List UInt8) : UInt16 :=
  (p.getD 0 0).toUInt16 <<< 8 ||| (p.getD 1 0).toUInt16

def getLe16 (p : List UInt8) : UInt16 :=
  (p.getD 1 0).toUInt16 <<< 8 ||| (p.getD 0 0).toUInt16

def putBe16 (v : UInt16) : List UInt8 := [(v >>> 8).toUInt8, (v &&& 0xFF).toUInt8]

def putLe16 (v : UInt16) : List UInt8 := [(v &&& 0xFF).toUInt8, (v >>> 8).toUInt8]

theorem getBe16_append {p : List UInt8} (two : 2 ≤ p.length) (later : List UInt8) :
    getBe16 (p ++ later) = getBe16 p := by
  rw [getBe16, getBe16, getD_append (by omega), getD_append (by omega)]

theorem combine_toNat (hi lo : UInt8) :
    (hi.toUInt16 <<< 8 ||| lo.toUInt16).toNat = 256 * hi.toNat + lo.toNat := by
  have low : lo.toNat < 2 ^ 8 := lo.toNat_lt
  have high : hi.toNat < 2 ^ 8 := hi.toNat_lt
  have shifted : hi.toNat <<< 8 < 2 ^ 16 := by
    rw [Nat.shiftLeft_eq]
    omega
  have bits : (hi.toUInt16 <<< 8 ||| lo.toUInt16).toNat = hi.toNat <<< 8 ||| lo.toNat := by
    simp only [UInt16.toNat_or, UInt16.toNat_shiftLeft, UInt8.toNat_toUInt16]
    change hi.toNat <<< 8 % 2 ^ 16 ||| lo.toNat = _
    rw [Nat.mod_eq_of_lt shifted]
  rw [bits, ← Nat.shiftLeft_add_eq_or_of_lt low, Nat.shiftLeft_eq]
  omega

theorem high_toNat (v : UInt16) : (v >>> 8).toUInt8.toNat = v.toNat / 256 := by
  have range : v.toNat < 2 ^ 16 := v.toNat_lt
  simp [Nat.shiftRight_eq_div_pow]
  omega

theorem low_toNat (v : UInt16) : (v &&& 0xFF).toUInt8.toNat = v.toNat % 256 := by
  have mask : v.toNat &&& 255 = v.toNat % 256 := Nat.and_two_pow_sub_one_eq_mod v.toNat 8
  simp only [UInt16.toNat_toUInt8, UInt16.toNat_and]
  change (v.toNat &&& 255) % 256 = _
  rw [mask, Nat.mod_mod]

theorem combine_high_low (v : UInt16) :
    (v >>> 8).toUInt8.toUInt16 <<< 8 ||| (v &&& 0xFF).toUInt8.toUInt16 = v := by
  apply UInt16.toNat_inj.mp
  rw [combine_toNat, high_toNat, low_toNat]
  omega

@[simp] theorem getBe16_putBe16 (v : UInt16) (rest : List UInt8) :
    getBe16 (putBe16 v ++ rest) = v :=
  combine_high_low v

@[simp] theorem getLe16_putLe16 (v : UInt16) (rest : List UInt8) :
    getLe16 (putLe16 v ++ rest) = v :=
  combine_high_low v

@[simp] theorem length_putBe16 (v : UInt16) : (putBe16 v).length = 2 := rfl

@[simp] theorem length_putLe16 (v : UInt16) : (putLe16 v).length = 2 := rfl

/-- A run of big-endian words, read back word by word. -/
theorem getBe16_words (word : Nat → UInt16) {n k : Nat} (inside : k < n) :
    getBe16 (((List.range n).flatMap fun i => putBe16 (word i)).drop (2 * k)) = word k := by
  have halves : List.range n = List.range k ++ (List.range (n - k)).map (k + ·) := by
    rw [← List.range_add, Nat.add_sub_cancel' inside.le]
  obtain ⟨rest, size⟩ := Nat.exists_eq_succ_of_ne_zero (Nat.sub_ne_zero_of_lt inside)
  rw [halves, List.flatMap_append, List.drop_left' (by simp [Nat.mul_comm]), size,
    List.range_succ_eq_map, List.map_cons, List.flatMap_cons]
  exact getBe16_putBe16 _ _

/-- Two bytes are the little-endian image of exactly one word. -/
theorem putLe16_eq_iff {v : UInt16} {lo hi : UInt8} :
    putLe16 v = [lo, hi] ↔ v = getLe16 [lo, hi] := by
  constructor
  · intro same
    have := getLe16_putLe16 v []
    rw [List.append_nil, same] at this
    exact this.symm
  · rintro rfl
    have joined : (getLe16 [lo, hi]).toNat = 256 * hi.toNat + lo.toNat := combine_toNat hi lo
    have low := lo.toNat_lt
    have high := hi.toNat_lt
    simp only [putLe16, List.cons.injEq, and_true]
    constructor <;> apply UInt8.toNat_inj.mp
    · rw [low_toNat, joined]
      omega
    · rw [high_toNat, joined]
      omega

end Wire
