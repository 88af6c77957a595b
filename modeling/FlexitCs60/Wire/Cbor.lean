import Mathlib.Data.List.Perm.Basic
import Mathlib.Tactic.Common

/-! Maps of plain CBOR items, every head in its shortest form. -/
namespace Wire.Cbor

inductive Item where
  | uint (n : Nat)
  | bytes (b : List UInt8)
  | text (s : String)
  deriving DecidableEq, Repr

def bigEndian (n : Nat) : Nat → List UInt8
  | 0 => []
  | width + 1 => UInt8.ofNat (n >>> (8 * width)) :: bigEndian n width

/-- The initial byte of a major type, with its argument in the fewest bytes that hold it. -/
def head (major : UInt8) (n : Nat) : List UInt8 :=
  let initial (info : UInt8) : UInt8 := major <<< 5 ||| info
  if n < 24 then [initial (UInt8.ofNat n)]
  else if n < 0x100 then initial 24 :: bigEndian n 1
  else if n < 0x10000 then initial 25 :: bigEndian n 2
  else if n < 0x100000000 then initial 26 :: bigEndian n 4
  else initial 27 :: bigEndian n 8

def textBytes (s : String) : List UInt8 := s.toUTF8.data.toList

def Item.encode : Item → List UInt8
  | uint n => head 0 n
  | bytes b => head 2 b.length ++ b
  | text s => head 3 (textBytes s).length ++ textBytes s

def encodeEntry (entry : String × Item) : List UInt8 :=
  (Item.text entry.1).encode ++ entry.2.encode

def encodeMap (entries : List (String × Item)) : List UInt8 :=
  head 5 entries.length ++ entries.flatMap encodeEntry

def headSize (n : Nat) : Nat :=
  if n < 24 then 1 else if n < 0x100 then 2 else if n < 0x10000 then 3 else if n < 0x100000000 then 5
  else 9

theorem length_bigEndian (n width : Nat) : (bigEndian n width).length = width := by
  induction width with
  | zero => rfl
  | succ width ih => rw [bigEndian, List.length_cons, ih]

@[simp] theorem length_head (major : UInt8) (n : Nat) : (head major n).length = headSize n := by
  unfold head headSize
  dsimp only
  split_ifs
  all_goals simp only [List.length_cons, List.length_nil, length_bigEndian]

/-- The order of its entries does not change how long a map is. -/
theorem length_encodeMap_perm {first second : List (String × Item)} (perm : first.Perm second) :
    (encodeMap first).length = (encodeMap second).length := by
  rw [encodeMap, encodeMap, List.length_append, List.length_append, length_head, length_head,
    perm.length_eq, (perm.flatMap_right encodeEntry).length_eq]

theorem headSize_le {n : Nat} (small : n < 0x100000000) : headSize n ≤ 5 := by
  unfold headSize
  split_ifs
  all_goals omega

theorem headSize_pos (n : Nat) : 1 ≤ headSize n := by
  unfold headSize
  split_ifs
  all_goals omega

example : encodeMap [("off", .uint 500)] = [0xA1, 0x63, 0x6F, 0x66, 0x66, 0x19, 0x01, 0xF4] := by
  decide

end Wire.Cbor
