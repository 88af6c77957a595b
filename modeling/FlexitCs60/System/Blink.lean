import Mathlib.Algebra.Group.Nat.Defs
import Mathlib.Tactic.Common

/-! What an indicator shows over a number of turns, and the turns at which a wrapping
counter lets it toggle. -/
namespace Blink

/-- The indicator keeps one level. -/
def Solid (n : ℕ) (level : ℕ → Bool) (value : Bool) : Prop := ∀ k ≤ n, level k = value

/-- It changes from every turn to the next. -/
def Flickers (n : ℕ) (level : ℕ → Bool) : Prop := ∀ k < n, level (k + 1) ≠ level k

/-- It changes at some turn. -/
def Blinks (n : ℕ) (level : ℕ → Bool) : Prop := ∃ k < n, level (k + 1) ≠ level k

/-- It keeps its level at some turn. -/
def Rests (n : ℕ) (level : ℕ → Bool) : Prop := ∃ k < n, level (k + 1) = level k

variable {n : ℕ} {level : ℕ → Bool}

theorem Solid.not_blinks {value : Bool} (solid : Solid n level value) : ¬ Blinks n level := by
  rintro ⟨k, before, changes⟩
  exact changes ((solid (k + 1) before).trans (solid k (Nat.le_of_lt before)).symm)

theorem Solid.unique {a b : Bool} (first : Solid n level a) (second : Solid n level b) : a = b :=
  (first 0 (Nat.zero_le n)).symm.trans (second 0 (Nat.zero_le n))

theorem Flickers.not_rests (flickers : Flickers n level) : ¬ Rests n level := by
  rintro ⟨k, before, keeps⟩
  exact flickers k before keeps

theorem Flickers.blinks (flickers : Flickers n level) (some : 0 < n) : Blinks n level :=
  ⟨0, some, flickers 0 some⟩

/-- Levels that agree show the same. -/
theorem Flickers.congr {other : ℕ → Bool} (same : ∀ k ≤ n, level k = other k)
    (flickers : Flickers n level) : Flickers n other := by
  intro k before
  rw [← same (k + 1) before, ← same k (Nat.le_of_lt before)]
  exact flickers k before

theorem Solid.congr {other : ℕ → Bool} {value : Bool} (same : ∀ k ≤ n, level k = other k)
    (solid : Solid n level value) : Solid n other value :=
  fun k within => (same k within).symm.trans (solid k within)

theorem Blinks.congr {other : ℕ → Bool} (same : ∀ k ≤ n, level k = other k)
    (blinks : Blinks n level) : Blinks n other := by
  obtain ⟨k, before, changes⟩ := blinks
  refine ⟨k, before, ?_⟩
  rwa [← same (k + 1) before, ← same k (Nat.le_of_lt before)]

theorem Rests.congr {other : ℕ → Bool} (same : ∀ k ≤ n, level k = other k)
    (rests : Rests n level) : Rests n other := by
  obtain ⟨k, before, keeps⟩ := rests
  refine ⟨k, before, ?_⟩
  rwa [← same (k + 1) before, ← same k (Nat.le_of_lt before)]

/-! A 32-bit tick counter. -/

theorem toNat_tick (tick : UInt32) (k : ℕ) :
    (tick + UInt32.ofNat k).toNat = (tick.toNat + k) % 2 ^ 32 := by
  rw [UInt32.toNat_add, UInt32.toNat_ofNat']
  omega

/-- Of as many ticks as the period one is a multiple of it, across a wrap too. -/
theorem tick_within (tick : UInt32) {period : ℕ} (some : 0 < period) :
    ∃ k < period, (tick + UInt32.ofNat k).toNat % period = 0 := by
  have bound := tick.toNat_lt
  have rest := Nat.mod_lt tick.toNat some
  by_cases aligned : tick.toNat % period = 0
  · refine ⟨0, some, ?_⟩
    rw [toNat_tick, Nat.add_zero, Nat.mod_eq_of_lt bound, aligned]
  by_cases wraps : tick.toNat + (period - tick.toNat % period) < 2 ^ 32
  · refine ⟨period - tick.toNat % period, by omega, ?_⟩
    rw [toNat_tick, Nat.mod_eq_of_lt wraps]
    have split := Nat.div_add_mod tick.toNat period
    have next :
        tick.toNat + (period - tick.toNat % period) = period * (tick.toNat / period + 1) := by
      rw [Nat.mul_add, Nat.mul_one]
      omega
    rw [next, Nat.mul_mod_right]
  · refine ⟨2 ^ 32 - tick.toNat, by omega, ?_⟩
    have zero : tick.toNat + (2 ^ 32 - tick.toNat) = 2 ^ 32 := by omega
    rw [toNat_tick, zero, Nat.mod_self, Nat.zero_mod]

end Blink
