import Mathlib.Data.Finset.Card
import Mathlib.Data.List.Induction
import Mathlib.Data.List.Nodup
import Mathlib.Data.List.Pairwise
import Mathlib.Data.Finset.Dedup

/-! The entries of a log that are the latest of their key, the most recently
written first. -/
namespace Recency
variable {E K : Type*} [DecidableEq K] (key : E → K)

/-- An entry goes to the front and takes the place of the one with its key. -/
def touch (recent : List E) (e : E) : List E := e :: recent.filter fun f => key f ≠ key e

def recency (log : List E) : List E := log.foldl (touch key) []

/-- The key `a` was last written before `b` was. -/
def Older (log : List E) (a b : K) : Prop :=
  ∃ before after, log = before ++ after ∧ a ∉ after.map key ∧ b ∈ after.map key

theorem recency_concat (log : List E) (e : E) :
    recency key (log ++ [e]) = touch key (recency key log) e := by
  rw [recency, List.foldl_append]
  rfl

theorem mem_touch {recent : List E} {e f : E} :
    f ∈ touch key recent e ↔ f = e ∨ f ∈ recent ∧ key f ≠ key e := by
  simp [touch]

/-- The keys, most recently written first. -/
def recentKeys (log : List E) : List K := (recency key log).map key

theorem recentKeys_concat (log : List E) (e : E) :
    recentKeys key (log ++ [e]) = key e :: (recentKeys key log).filter (· ≠ key e) := by
  rw [recentKeys, recency_concat, touch, List.map_cons, recentKeys, List.filter_map]
  rfl

theorem recentKeys_nodup (log : List E) : (recentKeys key log).Nodup := by
  induction log using List.reverseRecOn with
  | nil => exact List.nodup_nil
  | append_singleton log e ih =>
    rw [recentKeys_concat, List.nodup_cons]
    exact ⟨by simp, ih.filter _⟩

theorem mem_recentKeys {log : List E} {k : K} : k ∈ recentKeys key log ↔ k ∈ log.map key := by
  induction log using List.reverseRecOn with
  | nil => rfl
  | append_singleton log e ih =>
    rw [recentKeys_concat, List.mem_cons, List.mem_filter, ih, List.map_append, List.mem_append]
    by_cases same : k = key e
    · simp [same]
    · simp [same]

theorem length_recentKeys (log : List E) :
    (recentKeys key log).length = (log.map key).toFinset.card := by
  rw [← List.toFinset_card_of_nodup (recentKeys_nodup key log)]
  congr 1
  ext k
  rw [List.mem_toFinset, List.mem_toFinset, mem_recentKeys]

theorem length_recentKeys_concat (log : List E) (e : E) :
    (recentKeys key (log ++ [e])).length =
      if key e ∈ recentKeys key log then (recentKeys key log).length
      else (recentKeys key log).length + 1 := by
  rw [length_recentKeys, length_recentKeys, List.map_append, List.toFinset_append]
  by_cases known : key e ∈ recentKeys key log
  · rw [if_pos known, Finset.union_eq_left.mpr]
    simpa using (mem_recentKeys key).mp known
  · rw [if_neg known, Finset.card_union_of_disjoint]
    · simp
    · rw [mem_recentKeys] at known
      simpa using known

/-- The entries kept are the latest of their keys. -/
theorem mem_recency {log : List E} {e : E} : e ∈ recency key log ↔
    ∃ before after, log = before ++ e :: after ∧ ∀ f ∈ after, key f ≠ key e := by
  induction log using List.reverseRecOn with
  | nil => simp [recency]
  | append_singleton log last ih =>
    rw [recency_concat, mem_touch, ih]
    constructor
    · rintro (rfl | ⟨⟨before, after, rfl, others⟩, apart⟩)
      · exact ⟨log, [], rfl, nofun⟩
      · refine ⟨before, after ++ [last], by simp, fun f member => ?_⟩
        rcases List.mem_append.mp member with earlier | final
        · exact others f earlier
        · rw [List.mem_singleton.mp final]
          exact Ne.symm apart
    · rintro ⟨before, after, whole, others⟩
      rcases List.eq_nil_or_concat after with rfl | ⟨front, final, rfl⟩
      · exact .inl (List.singleton_inj.mp (List.append_inj' whole rfl).2).symm
      · rw [List.concat_eq_append] at whole others
        rw [← List.cons_append, ← List.append_assoc] at whole
        obtain ⟨rfl, rest⟩ := List.append_inj' whole rfl
        obtain rfl := List.singleton_inj.mp rest
        refine .inr ⟨⟨before, front, rfl, fun f member => others f (by simp [member])⟩, ?_⟩
        exact Ne.symm (others last (by simp))

omit [DecidableEq K] in
theorem older_concat {log : List E} {e : E} {a b : K} : Older key (log ++ [e]) a b ↔
    a ≠ key e ∧ (b = key e ∨ Older key log a b) := by
  constructor
  · rintro ⟨before, after, whole, absent, present⟩
    rcases List.eq_nil_or_concat after with rfl | ⟨front, final, rfl⟩
    · contradiction
    · rw [List.concat_eq_append] at whole absent present
      rw [← List.append_assoc] at whole
      obtain ⟨rfl, rest⟩ := List.append_inj' whole rfl
      obtain rfl := List.singleton_inj.mp rest
      rw [List.map_append, List.mem_append, not_or] at absent
      rw [List.map_append, List.mem_append] at present
      refine ⟨fun same => absent.2 (by simp [same]), ?_⟩
      rcases present with earlier | last
      · exact .inr ⟨before, front, rfl, absent.1, earlier⟩
      · exact .inl (by simpa using last)
  · rintro ⟨apart, rfl | ⟨before, after, rfl, absent, present⟩⟩
    · exact ⟨log, [e], rfl, by simpa using apart, by simp⟩
    · refine ⟨before, after ++ [e], by simp, ?_, ?_⟩
      · simpa [apart] using absent
      · rw [List.map_append]
        exact List.mem_append_left _ present

/-- Leaving other keys out changes no order. -/
theorem idxOf_filter_lt {l : List K} {p : K → Bool} {a b : K} (left : p a = true)
    (right : p b = true) :
    (l.filter p).idxOf b < (l.filter p).idxOf a ↔ l.idxOf b < l.idxOf a := by
  induction l with
  | nil => rfl
  | cons x l ih =>
    by_cases kept : p x = true
    · rw [List.filter_cons_of_pos kept]
      simp only [List.idxOf_cons, cond_eq_ite, beq_iff_eq]
      split <;> split <;> omega
    · rw [List.filter_cons_of_neg kept, ih]
      have notA : x ≠ a := fun same => kept (same ▸ left)
      have notB : x ≠ b := fun same => kept (same ▸ right)
      rw [List.idxOf_cons_ne _ notA, List.idxOf_cons_ne _ notB]
      omega

/-- The order of the latest writes is the order of the kept keys. -/
theorem older_iff {log : List E} {a b : K} :
    Older key log a b ↔ (recentKeys key log).idxOf b < (recentKeys key log).idxOf a := by
  induction log using List.reverseRecOn with
  | nil =>
    refine iff_of_false ?_ (lt_irrefl _)
    rintro ⟨before, after, whole, _, present⟩
    rw [(List.append_eq_nil_iff.mp whole.symm).2] at present
    contradiction
  | append_singleton log e ih =>
    rw [older_concat, recentKeys_concat]
    by_cases first : a = key e
    · simp [first]
    · by_cases second : b = key e
      · rw [second, List.idxOf_cons_self, List.idxOf_cons_ne _ (Ne.symm first)]
        simp [first]
      · rw [List.idxOf_cons_ne _ (Ne.symm first), List.idxOf_cons_ne _ (Ne.symm second), ih,
          Nat.succ_lt_succ_iff,
          idxOf_filter_lt (p := fun k => k ≠ key e) (decide_eq_true first) (decide_eq_true second)]
        simp [first, second]

/-- Stamps that never decrease along the log never increase along the kept entries. -/
theorem recency_pairwise {T : Type*} [Preorder T] (stamp : E → T) {log : List E}
    (ordered : log.Pairwise fun e f => stamp e ≤ stamp f) :
    (recency key log).Pairwise fun e f => stamp f ≤ stamp e := by
  induction log using List.reverseRecOn with
  | nil => exact .nil
  | append_singleton log e ih =>
    obtain ⟨before, _, last⟩ := List.pairwise_append.mp ordered
    rw [recency_concat, touch, List.pairwise_cons]
    refine ⟨fun f member => ?_, (ih before).filter _⟩
    obtain ⟨front, back, rfl, _⟩ := (mem_recency key).mp (List.mem_of_mem_filter member)
    exact last f (by simp) e (by simp)

end Recency
