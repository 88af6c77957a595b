import Mathlib.Data.List.Pairwise
import Mathlib.Tactic.Common

/-! A left-to-right sweep that takes a piece where one is found, and else slips by one. -/
namespace Framing

/-- A piece of a sequence: where it starts, and how long it is. -/
structure Piece where
  start : Nat
  len : Nat
  deriving DecidableEq, Repr

def Piece.stop (piece : Piece) : Nat := piece.start + piece.len

def Piece.Covers (piece : Piece) (i : Nat) : Prop := piece.start ≤ i ∧ i < piece.stop

variable {hit : Nat → Nat → Prop}

/-- The pieces taken by the time the sweep has come to a position. -/
inductive Sweep (hit : Nat → Nat → Prop) : Nat → List Piece → Prop where
  | start : Sweep hit 0 []
  | slip {i : Nat} {pieces : List Piece} (before : Sweep hit i pieces) (clear : ∀ len, ¬ hit i len) :
      Sweep hit (i + 1) pieces
  | take {i : Nat} {pieces : List Piece} {len : Nat} (before : Sweep hit i pieces)
      (found : hit i len) (nonempty : 0 < len) : Sweep hit (i + len) (pieces ++ [⟨i, len⟩])

namespace Sweep

theorem sound {i : Nat} {pieces : List Piece} (sweep : Sweep hit i pieces) {piece : Piece}
    (taken : piece ∈ pieces) : hit piece.start piece.len ∧ 0 < piece.len ∧ piece.stop ≤ i := by
  induction sweep with
  | start => simp at taken
  | slip before clear ih =>
    obtain ⟨found, nonempty, behind⟩ := ih taken
    exact ⟨found, nonempty, by omega⟩
  | take before found nonempty ih =>
    rcases List.mem_append.mp taken with earlier | last
    · obtain ⟨found', nonempty', behind⟩ := ih earlier
      exact ⟨found', nonempty', by omega⟩
    · obtain rfl := List.mem_singleton.mp last
      exact ⟨found, nonempty, Nat.le_refl _⟩

/-- Each piece starts at or behind the end of those before it. -/
theorem ordered {i : Nat} {pieces : List Piece} (sweep : Sweep hit i pieces) :
    pieces.Pairwise fun a b => a.stop ≤ b.start := by
  induction sweep with
  | start => exact List.Pairwise.nil
  | slip before clear ih => exact ih
  | take before found nonempty ih =>
    rw [List.pairwise_append]
    refine ⟨ih, List.pairwise_singleton _ _, ?_⟩
    intro earlier taken last same
    obtain rfl := List.mem_singleton.mp same
    exact (before.sound taken).2.2

/-- Nothing is found at a position that no piece covers. -/
theorem maximal {i : Nat} {pieces : List Piece} (sweep : Sweep hit i pieces) {k : Nat}
    (passed : k < i) (free : ∀ piece ∈ pieces, ¬ piece.Covers k) (len : Nat) : ¬ hit k len := by
  induction sweep with
  | start => omega
  | @slip i pieces before clear ih =>
    rcases Nat.lt_succ_iff_lt_or_eq.mp passed with earlier | rfl
    · exact ih earlier free
    · exact clear len
  | @take i pieces width before found nonempty ih =>
    have inside : k < i := by
      by_contra reached
      exact free ⟨i, width⟩ (by simp) ⟨by simpa using reached, passed⟩
    exact ih inside fun piece taken => free piece (List.mem_append_left _ taken)

end Sweep

end Framing
