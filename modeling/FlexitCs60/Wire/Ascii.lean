import Mathlib.Data.FinEnum
import Mathlib.Data.Nat.Log
import Mathlib.Data.List.Induction
import Mathlib.Tactic.Common

/-! Text as ASCII bytes, and the positional value of digit strings. -/
namespace Wire

def ascii (text : String) : List UInt8 := text.toList.map fun c => UInt8.ofNat c.toNat

def isDigit (b : UInt8) : Bool := 0x30 ≤ b ∧ b ≤ 0x39

/-- Space or tab. -/
def isBlank (b : UInt8) : Bool := b = 0x20 ∨ b = 0x09

def digitValue (b : UInt8) : Nat := b.toNat - 0x30

/-- The value of a digit string, most significant digit first. -/
def positional (base : Nat) (value : UInt8 → Nat) (digits : List UInt8) : Nat :=
  digits.foldl (fun acc b => acc * base + value b) 0

def decimal (digits : List UInt8) : Nat := positional 10 digitValue digits

/-- `%d` of a nonnegative number. -/
def printDecimal (n : Nat) : List UInt8 := (Nat.toDigits 10 n).map fun c => UInt8.ofNat c.toNat

theorem positional_append (base : Nat) (value : UInt8 → Nat) (high low : List UInt8) :
    positional base value (high ++ low) =
      positional base value high * base ^ low.length + positional base value low := by
  unfold positional
  rw [List.foldl_append]
  generalize List.foldl (fun acc b => acc * base + value b) 0 high = start
  induction low using List.reverseRecOn with
  | nil => simp
  | append_singleton low b ih =>
    simp only [List.foldl_append, List.foldl_cons, List.foldl_nil, ih, List.length_append,
      List.length_singleton, pow_succ, Nat.add_mul, Nat.mul_assoc, Nat.add_assoc]

theorem digitValue_lt {b : UInt8} (digit : isDigit b = true) : digitValue b < 10 := by
  have range : 0x30 ≤ b ∧ b ≤ 0x39 := by simpa [isDigit] using digit
  have upper : b.toNat ≤ 0x39 := range.2
  unfold digitValue
  omega

theorem decimal_lt {digits : List UInt8} (valid : ∀ b ∈ digits, isDigit b = true) :
    decimal digits < 10 ^ digits.length := by
  induction digits using List.reverseRecOn with
  | nil => exact Nat.one_pos
  | append_singleton digits b ih =>
    have before := ih fun c member => valid c (List.mem_append_left _ member)
    have last := digitValue_lt (valid b (List.mem_append_right _ (List.mem_singleton_self b)))
    have joined : decimal (digits ++ [b]) = decimal digits * 10 + digitValue b := by
      simp [decimal, positional]
    rw [joined, List.length_append, List.length_singleton, pow_succ]
    omega

/-! Printed numbers. -/

theorem printDecimal_small {n : Nat} (small : n < 10) : printDecimal n = [0x30 + UInt8.ofNat n] := by
  unfold printDecimal
  rw [Nat.toDigits_of_lt_base small]
  revert n
  decide

theorem printDecimal_large {n : Nat} (large : 10 ≤ n) :
    printDecimal n = printDecimal (n / 10) ++ printDecimal (n % 10) := by
  unfold printDecimal
  rw [Nat.toDigits_of_base_le (by decide) large, List.map_append,
    Nat.toDigits_of_lt_base (Nat.mod_lt n (by decide))]

/-- A printed number ends in its last digit, behind the number without it. -/
@[elab_as_elim]
theorem printDecimal_induction {P : Nat → Prop} (small : ∀ n < 10, P n)
    (large : ∀ n, 10 ≤ n → P (n / 10) → P n) (n : Nat) : P n := by
  induction n using Nat.strong_induction_on with
  | _ n ih =>
    rcases Nat.lt_or_ge n 10 with few | many
    · exact small n few
    · exact large n many (ih _ (Nat.div_lt_self (by omega) (by decide)))

theorem isDigit_printDecimal (n : Nat) : ∀ b ∈ printDecimal n, isDigit b = true := by
  have digit : ∀ d < 10, isDigit (0x30 + UInt8.ofNat d) = true := by decide
  have single : ∀ d < 10, ∀ b ∈ printDecimal d, isDigit b = true := by
    intro d few b member
    rw [printDecimal_small few] at member
    rw [List.mem_singleton.mp member]
    exact digit d few
  induction n using printDecimal_induction with
  | small n few => exact single n few
  | large n many ih =>
    intro b member
    rw [printDecimal_large many] at member
    rcases List.mem_append.mp member with high | last
    · exact ih b high
    · exact single _ (Nat.mod_lt n (by decide)) b last

theorem decimal_printDecimal (n : Nat) : decimal (printDecimal n) = n := by
  have digit : ∀ d < 10, decimal [0x30 + UInt8.ofNat d] = d := by decide
  induction n using printDecimal_induction with
  | small n few =>
    rw [printDecimal_small few]
    exact digit n few
  | large n many ih =>
    have few : n % 10 < 10 := Nat.mod_lt n (by decide)
    have joined := positional_append 10 digitValue (printDecimal (n / 10)) (printDecimal (n % 10))
    rw [printDecimal_large many, decimal, joined, ← decimal, ← decimal, ih, printDecimal_small few,
      digit _ few, List.length_singleton, pow_one]
    omega

theorem length_printDecimal (n : Nat) : (printDecimal n).length = Nat.log 10 n + 1 := by
  induction n using printDecimal_induction with
  | small n few => rw [printDecimal_small few, Nat.log_of_lt few, List.length_singleton]
  | large n many ih =>
    have few : n % 10 < 10 := Nat.mod_lt n (by decide)
    rw [printDecimal_large many, List.length_append, ih, printDecimal_small few,
      Nat.log_of_one_lt_of_le (by decide) many, List.length_singleton]

theorem printDecimal_ne_nil (n : Nat) : printDecimal n ≠ [] := by
  rw [← List.length_pos_iff, length_printDecimal]
  exact Nat.succ_pos _

end Wire
