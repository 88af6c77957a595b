import Mathlib.Data.List.Basic

/-! Slice expressions, checked against the length. -/
namespace Wire

variable {α : Type}

/-- `b[lo:hi]`; `none` where the expression panics. -/
def slice (b : List α) (lo hi : Nat) : Option (List α) :=
  if lo ≤ hi ∧ hi ≤ b.length then some ((b.drop lo).take (hi - lo)) else none

theorem slice_eq {b : List α} {lo hi : Nat} (ordered : lo ≤ hi) (inside : hi ≤ b.length) :
    slice b lo hi = some ((b.drop lo).take (hi - lo)) := if_pos ⟨ordered, inside⟩

theorem length_segment {b : List α} {lo n : Nat} (inside : lo + n ≤ b.length) :
    ((b.drop lo).take n).length = n := by
  rw [List.length_take, List.length_drop]
  omega

theorem getElem?_segment {b : List α} {lo n k : Nat} (inside : k < n) :
    ((b.drop lo).take n)[k]? = b[lo + k]? := by
  rw [List.getElem?_take_of_lt inside, List.getElem?_drop]

end Wire
