import FlexitCs60.Mirror.Framing

/-! Two counter tables that saw the same writes under clocks that order the
frames alike choose the same slots, so they differ in their stamps only. -/
namespace FlexitCs60.Mirror
open Framing

/-- The clocks agree on which of two accepted frames came strictly earlier. -/
def SameOrder (clock clock' : Clock) : Prop := ∀ i j, clock i < clock j ↔ clock' i < clock' j

variable {clock clock' : Clock}

/-- Equal up to stamps, which both slots took from the same frame. -/
structure AlignedSlot (clock clock' : Clock) (a b : Counter) : Prop where
  addr : a.addr = b.addr
  value : a.value = b.value
  used : a.used = b.used
  stamped : a.used = true → ∃ k, a.atMs = clock k ∧ b.atMs = clock' k

def Aligned (clock clock' : Clock) (t u : Vector Counter counterSlots) : Prop :=
  ∀ i (_ : i < counterSlots), AlignedSlot clock clock' t[i] u[i]

/-- Searches that will choose the same slot. Once a free slot is found the
oldest one no longer matters. -/
structure Agree (clock clock' : Clock) (r r' : Search) : Prop where
  slot : r.slot = r'.slot
  free : r.freeSlot = r'.freeSlot
  oldest : r.freeSlot = none →
    r.lruSlot = r'.lruSlot ∧ ∃ k, r.lruAt = clock k ∧ r'.lruAt = clock' k

theorem searchSlots_agree (ordered : SameOrder clock clock')
    {t u : Vector Counter counterSlots} (aligned : Aligned clock clock' t u) (addr : UInt16)
    (slots : List (Fin counterSlots)) {r r' : Search} (agree : Agree clock clock' r r') :
    Agree clock clock' (searchSlots t addr slots r) (searchSlots u addr slots r') := by
  induction slots generalizing r r' with
  | nil => exact agree
  | cons i rest ih =>
    obtain ⟨addrs, _, used, stamped⟩ : AlignedSlot clock clock' t[i] u[i] := aligned i.val i.isLt
    obtain ⟨slot, free, oldest⟩ := agree
    simp only [searchSlots, ← addrs, ← used]
    by_cases found : t[i].used = true ∧ t[i].addr = addr
    · rw [if_pos found, if_pos found]
      exact ⟨rfl, free, oldest⟩
    rw [if_neg found, if_neg found]
    apply ih
    cases inUse : t[i].used with
    | false =>
      simp only [Bool.not_false, true_and, Bool.false_eq_true, false_and, if_false]
      rw [← free]
      by_cases none : r.freeSlot = none
      · rw [if_pos none, if_pos none]
        exact ⟨slot, rfl, fun h => by simp at h⟩
      · rw [if_neg none, if_neg none]
        exact ⟨slot, free, oldest⟩
    | true =>
      obtain ⟨k, left, right⟩ := stamped inUse
      simp only [Bool.not_true, Bool.false_eq_true, false_and, if_false, true_and]
      by_cases none : r.freeSlot = none
      · obtain ⟨lru, j, at', at''⟩ := oldest none
        have same : t[i].atMs < r.lruAt ↔ u[i].atMs < r'.lruAt := by
          rw [left, right, at', at'']
          exact ordered k j
        by_cases older : t[i].atMs < r.lruAt
        · rw [if_pos older, if_pos (same.mp older)]
          exact ⟨slot, free, fun _ => ⟨rfl, k, left, right⟩⟩
        · rw [if_neg older, if_neg (mt same.mpr older)]
          exact ⟨slot, free, oldest⟩
      · refine ⟨?_, ?_, fun h => absurd ?_ none⟩
        · split <;> split <;> exact slot
        · split <;> split <;> exact free
        · split at h <;> exact h

theorem chooseSlot_aligned (ordered : SameOrder clock clock')
    {t u : Vector Counter counterSlots} (aligned : Aligned clock clock' t u) (addr : UInt16) :
    chooseSlot t addr = chooseSlot u addr := by
  obtain ⟨addrs, _, used, stamped⟩ : AlignedSlot clock clock' t[(0 : Fin counterSlots)]
    u[(0 : Fin counterSlots)] := aligned 0 (by decide)
  have slots : List.finRange counterSlots = 0 :: [1, 2, 3, 4, 5, 6, 7] := rfl
  have agree : Agree clock clock'
      (searchSlots t addr (List.finRange counterSlots) ⟨none, none, 0, t[(0 : Fin 8)].atMs⟩)
      (searchSlots u addr (List.finRange counterSlots) ⟨none, none, 0, u[(0 : Fin 8)].atMs⟩) := by
    cases inUse : t[(0 : Fin counterSlots)].used with
    | true => exact searchSlots_agree ordered aligned addr _ ⟨rfl, rfl, fun _ => ⟨rfl, stamped inUse⟩⟩
    | false =>
      -- an unused first slot is free, so its stamp decides nothing
      have free : ∀ (table : Vector Counter counterSlots) (stamp : UInt64) rest,
          table[(0 : Fin counterSlots)].used = false →
          searchSlots table addr (0 :: rest) ⟨none, none, 0, stamp⟩ =
            searchSlots table addr rest ⟨none, some 0, 0, stamp⟩ := by
        intro table stamp rest unused
        simp only [searchSlots, unused, Bool.false_eq_true, false_and, if_false, Bool.not_false,
          true_and, if_true]
      rw [slots, free t _ _ inUse, free u _ _ (used.symm.trans inUse)]
      exact searchSlots_agree ordered aligned addr _ ⟨rfl, rfl, fun h => by simp at h⟩
  simp only [chooseSlot]
  generalize searchSlots t addr _ _ = r at agree ⊢
  generalize searchSlots u addr _ _ = r' at agree ⊢
  obtain ⟨slot, free, oldest⟩ := agree
  rw [← slot, ← free]
  cases found : r.slot with
  | some i => rfl
  | none =>
    cases none : r.freeSlot with
    | some i => rfl
    | none => exact (oldest none).1

theorem Aligned.set {t u : Vector Counter counterSlots} (aligned : Aligned clock clock' t u)
    (slot : Fin counterSlots) (addr value : UInt16) (k : Nat) :
    Aligned clock clock' (t.set slot.val ⟨addr, value, clock k, true⟩ slot.isLt)
      (u.set slot.val ⟨addr, value, clock' k, true⟩ slot.isLt) := by
  intro i inside
  rw [Vector.getElem_set, Vector.getElem_set]
  by_cases same : slot.val = i
  · rw [if_pos same, if_pos same]
    exact ⟨rfl, rfl, rfl, fun _ => ⟨k, rfl, rfl⟩⟩
  · rw [if_neg same, if_neg same]
    exact aligned i inside

end FlexitCs60.Mirror
