import FlexitCs60.Cache.Recency
import Mathlib.Logic.Function.Basic

/-! A table of `n` slots that takes entries of a log by key: into the slot that
holds the key, else into the first free one, else in the place of any other. What
it holds is faithful to the log, whichever slot is given up. -/
namespace Slots
open Recency

variable {n : Nat} {E K : Type*} [DecidableEq K] (key : E → K)

/-- No slot holds the key. -/
def Absent (t : Fin n → Option E) (k : K) : Prop := ∀ j e, t j = some e → key e ≠ k

/-- No slot is left, and none holds the key. -/
def Evicts (t : Fin n → Option E) (k : K) : Prop := Absent key t k ∧ ∀ j, t j ≠ none

/-- The slot a key is written to. -/
inductive Chooses (t : Fin n → Option E) (k : K) (i : Fin n) : Prop where
  | held (e : E) : t i = some e → key e = k → Chooses t k i
  | free : Absent key t k → t i = none → (∀ j < i, t j ≠ none) → Chooses t k i
  | evict : Evicts key t k → Chooses t k i

/-- The tables along a log, and the slots chosen on the way. -/
structure Fills (table : List E → Fin n → Option E) (choice : List E → E → Fin n) : Prop where
  empty : table [] = fun _ => none
  write : ∀ log e, table (log ++ [e]) = Function.update (table log) (choice log e) (some e)
  chooses : ∀ log e, Chooses key (table log) (key e) (choice log e)

/-- A table that is faithful to a log: the used slots come first and are as many
as the keys allow, each holds the latest entry of a key of its own, and nothing
is missing while the keys fit. -/
structure Holds (log : List E) (t : Fin n → Option E) : Prop where
  used : ∀ i, t i ≠ none ↔ i.val < min n (recentKeys key log).length
  distinct : ∀ i j e f, t i = some e → t j = some f → key e = key f → i = j
  latest : ∀ i e, t i = some e → e ∈ recency key log
  complete : (recentKeys key log).length ≤ n → ∀ k ∈ recentKeys key log, ¬ Absent key t k

theorem holds_nil : Holds key [] (fun _ : Fin n => none) where
  used i := iff_of_false (fun some => some rfl) (by simp [recentKeys, recency])
  distinct := nofun
  latest := nofun
  complete := nofun

variable {key} {log : List E} {t : Fin n → Option E} {e : E} {i : Fin n}

/-- The other slots hold other keys than the one just written. -/
theorem Chooses.others (chooses : Chooses key t (key e) i) (holds : Holds key log t) {j : Fin n}
    {f : E} (apart : j ≠ i) (there : t j = some f) : key f ≠ key e := by
  cases chooses with
  | held e' here same =>
    exact fun clash => apart (holds.distinct _ _ _ _ there here (clash.trans same.symm))
  | free absent none first => exact absent j f there
  | evict evicts => exact evicts.1 j f there

theorem Holds.mem_recentKeys (holds : Holds key log t) (there : t i = some e) :
    key e ∈ recentKeys key log :=
  List.mem_map_of_mem (holds.latest i e there)

/-- The first free slot is the one behind as many slots as there are keys. -/
theorem Holds.free_slot (holds : Holds key log t) (absent : Absent key t (key e))
    (empty : t i = none) (first : ∀ j < i, t j ≠ none) :
    i.val = (recentKeys key log).length ∧ key e ∉ recentKeys key log := by
  have unused : ¬ i.val < min n (recentKeys key log).length := fun inside =>
    (holds.used i).mpr inside empty
  have inside := i.isLt
  have short : (recentKeys key log).length ≤ i.val := by omega
  refine ⟨?_, fun known => holds.complete (by omega) _ known absent⟩
  by_contra apart
  obtain ⟨next, position⟩ : ∃ next : Fin n, next.val = (recentKeys key log).length :=
    ⟨⟨_, by omega⟩, rfl⟩
  have before := (holds.used next).mp (first next (Fin.lt_def.mpr (by omega)))
  omega

theorem Holds.full (holds : Holds key log t) (used : ∀ j, t j ≠ none) :
    n ≤ (recentKeys key log).length := by
  cases n with
  | zero => exact Nat.zero_le _
  | succ m =>
    have last := (holds.used (Fin.last m)).mp (used _)
    rw [Fin.val_last] at last
    omega

theorem Holds.used_step (holds : Holds key log t) (chooses : Chooses key t (key e) i) (j : Fin n) :
    Function.update t i (some e) j ≠ none ↔
      j.val < min n (recentKeys key (log ++ [e])).length := by
  have before := holds.used j
  have inside := j.isLt
  have written : Function.update t i (some e) j ≠ none ↔ j = i ∨ t j ≠ none := by
    by_cases same : j = i
    · simp [same]
    · simp [same]
  rw [written, length_recentKeys_concat]
  cases chooses with
  | held e' here same =>
    have known := holds.mem_recentKeys here
    have used := (holds.used i).mp (by simp [here])
    rw [same] at known
    rw [if_pos known, ← before]
    refine or_iff_right_of_imp fun this => ?_
    simp [this, here]
  | free absent empty first =>
    obtain ⟨slot, new⟩ := holds.free_slot absent empty first
    rw [if_neg new, before, Fin.ext_iff]
    omega
  | evict evicts =>
    have full := holds.full evicts.2
    refine iff_of_true (.inr (evicts.2 j)) ?_
    split <;> omega

theorem Holds.complete_step (holds : Holds key log t) (chooses : Chooses key t (key e) i)
    (few : (recentKeys key (log ++ [e])).length ≤ n) {k : K}
    (known : k ∈ recentKeys key (log ++ [e])) :
    ¬ Absent key (Function.update t i (some e)) k := by
  intro absent
  rw [recentKeys_concat, List.mem_cons, List.mem_filter] at known
  rcases known with rfl | ⟨known, apart⟩
  · exact absent i e (Function.update_self ..) rfl
  have grown := length_recentKeys_concat key log e
  have fewer : (recentKeys key log).length ≤ n := by
    split at grown <;> omega
  refine holds.complete fewer k known fun j f there => ?_
  by_cases here : j = i
  · cases chooses with
    | held e' held same =>
      rw [← here, there] at held
      rw [Option.some.inj held, same]
      exact Ne.symm (of_decide_eq_true apart)
    | free _ empty _ =>
      rw [here, empty] at there
      contradiction
    | evict evicts =>
      -- a full table and one key more do not fit
      have full := holds.full evicts.2
      split at grown
      · exact absurd evicts.1 (holds.complete fewer _ ‹_›)
      · omega
  · exact absent j f ((Function.update_of_ne here ..).trans there)

theorem Holds.step (holds : Holds key log t) (chooses : Chooses key t (key e) i) :
    Holds key (log ++ [e]) (Function.update t i (some e)) := by
  have others : ∀ {j f}, j ≠ i → t j = some f → key f ≠ key e := chooses.others holds
  have written : ∀ {j f}, Function.update t i (some e) j = some f → j = i ∧ f = e ∨
      j ≠ i ∧ t j = some f := by
    intro j f there
    by_cases here : j = i
    · rw [here, Function.update_self] at there
      exact .inl ⟨here, (Option.some.inj there).symm⟩
    · rw [Function.update_of_ne here] at there
      exact .inr ⟨here, there⟩
  refine ⟨holds.used_step chooses, ?_, ?_, ?_⟩
  · intro j k f g left right same
    rcases written left with ⟨hereJ, rfl⟩ | ⟨apartJ, thereJ⟩ <;>
      rcases written right with ⟨hereK, rfl⟩ | ⟨apartK, thereK⟩
    · rw [hereJ, hereK]
    · exact absurd same.symm (others apartK thereK)
    · exact absurd same (others apartJ thereJ)
    · exact holds.distinct j k f g thereJ thereK same
  · intro j f there
    rw [recency_concat, mem_touch]
    rcases written there with ⟨_, rfl⟩ | ⟨apart, there⟩
    · exact .inl rfl
    · exact .inr ⟨holds.latest j f there, others apart there⟩
  · exact fun few k known => holds.complete_step chooses few known

/-- Every table on the way is faithful to the log so far. -/
theorem Fills.holds {table : List E → Fin n → Option E} {choice : List E → E → Fin n}
    (fills : Fills key table choice) (log : List E) : Holds key log (table log) := by
  induction log using List.reverseRecOn with
  | nil => exact fills.empty ▸ holds_nil key
  | append_singleton log e ih => exact fills.write log e ▸ ih.step (fills.chooses log e)

end Slots
