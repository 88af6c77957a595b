import FlexitCs60.Cache.Slots
import Mathlib.Data.Fintype.EquivFin
import Mathlib.Data.Fintype.Lattice

/-! Eviction by the least stamp. With stamps that never decrease it gives up the
least recently written key, unless a lower slot ties with it, and the table then
holds the `n` most recently written keys. -/
namespace Slots
open Recency

variable {n : Nat} {E K T : Type*} [DecidableEq K] [LinearOrder T] (key : E → K) (stamp : E → T)

/-- The slot's key was written before the key of every other slot was. -/
def Oldest (log : List E) (t : Fin n → Option E) (i : Fin n) : Prop :=
  ∀ a, t i = some a → ∀ j f, j ≠ i → t j = some f → Older key log (key a) (key f)

/-- No lower slot has the slot's stamp. -/
def Untied (t : Fin n → Option E) (i : Fin n) : Prop :=
  ∀ a, t i = some a → ∀ j < i, ∀ f, t j = some f → stamp f ≠ stamp a

/-- The lowest of the slots with the least stamp. -/
def LeastStamp (t : Fin n → Option E) (i : Fin n) : Prop :=
  ∀ a, t i = some a → ∀ j f, t j = some f → stamp a ≤ stamp f ∧ (j < i → stamp a < stamp f)

variable {key stamp} {log : List E} {t : Fin n → Option E} {i : Fin n}

theorem stamp_le_of_older (ordered : log.Pairwise fun e f => stamp e ≤ stamp f) {a b : E}
    (first : a ∈ recency key log) (second : b ∈ recency key log)
    (older : Older key log (key a) (key b)) : stamp a ≤ stamp b := by
  obtain ⟨p, insideP, rfl⟩ := List.getElem_of_mem first
  obtain ⟨q, insideQ, rfl⟩ := List.getElem_of_mem second
  have position : ∀ (r : Nat) (inside : r < (recency key log).length),
      (recentKeys key log).idxOf (key (recency key log)[r]) = r := by
    intro r inside
    have bound : r < (recentKeys key log).length := by rwa [recentKeys, List.length_map]
    have keyAt : (recentKeys key log)[r] = key (recency key log)[r] := List.getElem_map ..
    rw [← keyAt]
    exact (recentKeys_nodup key log).idxOf_getElem ..
  rw [older_iff, position p insideP, position q insideQ] at older
  exact List.pairwise_iff_getElem.mp (recency_pairwise key stamp ordered) q p _ _ older

/-- A full table has a slot that was written least recently. -/
theorem Holds.exists_oldest (holds : Holds key log t) (full : ∀ j, t j ≠ none) (i : Fin n) :
    ∃ l, Oldest key log t l := by
  have held : ∀ j, ∃ e, t j = some e := fun j => Option.ne_none_iff_exists'.mp (full j)
  choose entry there using held
  have : Nonempty (Fin n) := ⟨i⟩
  obtain ⟨l, most⟩ := Finite.exists_max fun j => (recentKeys key log).idxOf (key (entry j))
  refine ⟨l, fun a here j f apart other => ?_⟩
  cases (there l).symm.trans here
  cases (there j).symm.trans other
  rw [older_iff]
  refine lt_of_le_of_ne (most j) fun same => apart ?_
  have keys := (List.idxOf_inj (holds.mem_recentKeys (there j))).mp same
  exact holds.distinct j l _ _ (there j) (there l) keys

theorem older_asymm {a b : K} (older : Older key log a b) : ¬ Older key log b a := by
  rw [older_iff] at older ⊢
  omega

/-- The slot with the least stamp was written least recently exactly when no lower
slot ties with the one that was. -/
theorem Holds.oldest_iff (holds : Holds key log t)
    (ordered : log.Pairwise fun e f => stamp e ≤ stamp f) (full : ∀ j, t j ≠ none)
    (least : LeastStamp stamp t i) :
    Oldest key log t i ↔ ∀ l, Oldest key log t l → Untied stamp t l := by
  have held : ∀ j, ∃ e, t j = some e := fun j => Option.ne_none_iff_exists'.mp (full j)
  obtain ⟨a, here⟩ := held i
  constructor
  · intro oldest l other
    obtain ⟨b, there⟩ := held l
    obtain rfl : l = i := by
      by_contra apart
      exact older_asymm (oldest a here l b apart there) (other b there i a (Ne.symm apart) here)
    intro c this j lower f found
    exact ((least c this j f found).2 lower).ne'
  · intro untied
    obtain ⟨l, oldest⟩ := holds.exists_oldest full i
    obtain ⟨b, there⟩ := held l
    obtain rfl : i = l := by
      by_contra apart
      have before := stamp_le_of_older ordered (holds.latest l b there) (holds.latest i a here)
        (oldest b there i a apart here)
      obtain ⟨notAfter, tie⟩ := least a here l b there
      rcases lt_or_gt_of_ne apart with lower | higher
      · exact untied l oldest b there i lower a here (le_antisymm notAfter before)
      · exact absurd (tie higher) (not_lt.mpr before)
    exact oldest

/-! The keys that are kept. -/

theorem present_iff {k : K} :
    ¬ Absent key t k ↔ ∃ j f, t j = some f ∧ key f = k := by
  simp [Absent]

theorem take_filter_ne {x : K} {l : List K} {m : Nat} (absent : x ∉ l.take m) :
    (l.filter (· ≠ x)).take m = l.take m := by
  induction l generalizing m with
  | nil => rfl
  | cons y l ih =>
    cases m with
    | zero => rfl
    | succ m =>
      rw [List.take_succ_cons, List.mem_cons, not_or] at absent
      rw [List.filter_cons_of_pos (p := fun k => k ≠ x) (decide_eq_true (Ne.symm absent.1)),
        List.take_succ_cons, List.take_succ_cons, ih absent.2]

theorem mem_take_filter_ne {x k : K} {l : List K} {m : Nat} (distinct : l.Nodup)
    (present : x ∈ l.take (m + 1)) (apart : k ≠ x) :
    k ∈ (l.filter (· ≠ x)).take m ↔ k ∈ l.take (m + 1) := by
  induction l generalizing m with
  | nil => contradiction
  | cons y l ih =>
    rw [List.take_succ_cons, List.mem_cons] at present
    rw [List.take_succ_cons, List.mem_cons]
    obtain ⟨fresh, distinct⟩ := List.nodup_cons.mp distinct
    by_cases same : x = y
    · rw [← same] at fresh ⊢
      rw [List.filter_cons_of_neg (by simp),
        take_filter_ne fun inside => fresh (List.mem_of_mem_take inside)]
      simp [apart]
    · have later := present.resolve_left same
      cases m with
      | zero => contradiction
      | succ m =>
        rw [List.filter_cons_of_pos (p := fun k => k ≠ x) (decide_eq_true (Ne.symm same)),
          List.take_succ_cons, List.mem_cons, ih distinct later]

/-- The table holds the `n` most recently written keys. -/
def Recent (key : E → K) (log : List E) (t : Fin n → Option E) : Prop :=
  ∀ k, ¬ Absent key t k ↔ k ∈ (recentKeys key log).take n

/-- The slot written holds the new key, the others hold what they held. -/
theorem present_update {e : E} {k : K} :
    ¬ Absent key (Function.update t i (some e)) k ↔
      k = key e ∨ ∃ j f, j ≠ i ∧ t j = some f ∧ key f = k := by
  rw [present_iff]
  constructor
  · rintro ⟨j, f, there, same⟩
    by_cases here : j = i
    · rw [here, Function.update_self, Option.some.injEq] at there
      exact .inl (by rw [there, same])
    · rw [Function.update_of_ne here] at there
      exact .inr ⟨j, f, here, there, same⟩
  · rintro (rfl | ⟨j, f, apart, there, same⟩)
    · exact ⟨i, e, Function.update_self .., rfl⟩
    · exact ⟨j, f, (Function.update_of_ne apart ..).trans there, same⟩

/-- What is left to compare once the new key is in front. -/
theorem recent_concat {e : E} : Recent key (log ++ [e]) (Function.update t i (some e)) ↔
    ∀ k, k ≠ key e → ((∃ j f, j ≠ i ∧ t j = some f ∧ key f = k) ↔
      k ∈ ((recentKeys key log).filter (· ≠ key e)).take (n - 1)) := by
  have room : n = n - 1 + 1 := by
    have := i.isLt
    omega
  have front : (recentKeys key (log ++ [e])).take n =
      key e :: ((recentKeys key log).filter (· ≠ key e)).take (n - 1) := by
    rw [recentKeys_concat, room, List.take_succ_cons, Nat.add_sub_cancel]
  unfold Recent
  refine forall_congr' fun k => ?_
  rw [present_update, front, List.mem_cons]
  by_cases new : k = key e
  · simp [new]
  · simp [new]

theorem Recent.held {e f : E} (recent : Recent key log t) (here : t i = some f)
    (same : key f = key e) : Recent key (log ++ [e]) (Function.update t i (some e)) := by
  have room : n - 1 + 1 = n := by
    have := i.isLt
    omega
  have present : key e ∈ (recentKeys key log).take (n - 1 + 1) := by
    rw [room]
    exact (recent _).mp (present_iff.mpr ⟨i, f, here, same⟩)
  refine recent_concat.mpr fun k apart => ?_
  rw [mem_take_filter_ne (recentKeys_nodup key log) present apart, room, ← recent, present_iff]
  constructor
  · exact fun ⟨j, g, _, there⟩ => ⟨j, g, there⟩
  · rintro ⟨j, g, there, found⟩
    refine ⟨j, g, fun clash => apart ?_, there, found⟩
    rw [clash, here] at there
    rw [← found, ← Option.some.inj there, same]

theorem Recent.free {e : E} (recent : Recent key log t) (holds : Holds key log t)
    (absent : Absent key t (key e)) (empty : t i = none) (first : ∀ j < i, t j ≠ none) :
    Recent key (log ++ [e]) (Function.update t i (some e)) := by
  obtain ⟨slot, new⟩ := holds.free_slot absent empty first
  have inside := i.isLt
  refine recent_concat.mpr fun k apart => ?_
  have kept : (recentKeys key log).filter (· ≠ key e) = recentKeys key log :=
    List.filter_eq_self.mpr fun x member => decide_eq_true fun same => new (same ▸ member)
  have all : ∀ m, i.val ≤ m → (recentKeys key log).take m = recentKeys key log := fun m long =>
    List.take_of_length_le (by omega)
  rw [kept, all _ (by omega), ← all n inside.le, ← recent, present_iff]
  constructor
  · exact fun ⟨j, g, _, there⟩ => ⟨j, g, there⟩
  · rintro ⟨j, g, there, found⟩
    refine ⟨j, g, fun clash => ?_, there, found⟩
    rw [clash, empty] at there
    contradiction

theorem Holds.mem_take_iff {e : E} (holds : Holds key log t) (there : t i = some e) (m : Nat) :
    key e ∈ (recentKeys key log).take m ↔ (recentKeys key log).idxOf (key e) < m :=
  List.mem_take_iff_idxOf_lt (holds.mem_recentKeys there)

theorem Recent.idxOf_lt {e : E} (recent : Recent key log t) (holds : Holds key log t)
    (there : t i = some e) : (recentKeys key log).idxOf (key e) < n :=
  (holds.mem_take_iff there n).mp ((recent _).mp (present_iff.mpr ⟨i, e, there, rfl⟩))

/-- The oldest key of a full table is the last of the `n`. -/
theorem Recent.idxOf_oldest {a : E} (recent : Recent key log t) (holds : Holds key log t)
    (full : ∀ j, t j ≠ none) (oldest : Oldest key log t i) (here : t i = some a) :
    (recentKeys key log).idxOf (key a) = n - 1 := by
  have inside := i.isLt
  have long := holds.full full
  have bound : n - 1 < (recentKeys key log).length := by omega
  have position := (recentKeys_nodup key log).idxOf_getElem (n - 1) bound
  have last : (recentKeys key log)[n - 1] ∈ (recentKeys key log).take n := by
    rw [List.mem_take_iff_idxOf_lt (List.getElem_mem bound), position]
    omega
  obtain ⟨l, g, found, same⟩ := present_iff.mp ((recent _).mpr last)
  rw [← same] at position
  by_cases other : l = i
  · rw [other, here] at found
    rw [Option.some.inj found]
    exact position
  · have older := oldest a here l g other found
    have among := recent.idxOf_lt holds here
    rw [older_iff] at older
    omega

/-- The key given up has to be the last of the `n`. -/
theorem Recent.evict_iff {e : E} (recent : Recent key log t) (holds : Holds key log t)
    (evicts : Evicts key t (key e)) :
    Recent key (log ++ [e]) (Function.update t i (some e)) ↔ Oldest key log t i := by
  obtain ⟨a, here⟩ := Option.ne_none_iff_exists'.mp (evicts.2 i)
  have fresh : key e ∉ (recentKeys key log).take n := fun member =>
    (recent _).mpr member evicts.1
  have kept : ((recentKeys key log).filter (· ≠ key e)).take (n - 1) =
      (recentKeys key log).take (n - 1) :=
    take_filter_ne fun member =>
      fresh (List.take_subset_take_left _ (Nat.sub_le n 1) member)
  rw [recent_concat, kept]
  constructor
  · intro same a' here' j f apart there
    cases here.symm.trans here'
    have stays := (same _ (evicts.1 j f there)).mp ⟨j, f, apart, there, rfl⟩
    have goes : ¬ key a ∈ (recentKeys key log).take (n - 1) := by
      intro member
      obtain ⟨j, f, apart, there, clash⟩ := (same _ (evicts.1 i a here)).mpr member
      exact apart (holds.distinct j i f a there here clash)
    rw [holds.mem_take_iff there] at stays
    rw [holds.mem_take_iff here] at goes
    rw [older_iff]
    omega
  · intro oldest k apart
    have position := recent.idxOf_oldest holds evicts.2 oldest here
    constructor
    · rintro ⟨j, f, other, there, rfl⟩
      have older := oldest a here j f other there
      rw [older_iff, position] at older
      rwa [holds.mem_take_iff there]
    · intro member
      obtain ⟨j, f, there, rfl⟩ := present_iff.mp
        ((recent k).mpr (List.take_subset_take_left _ (Nat.sub_le n 1) member))
      rw [holds.mem_take_iff there] at member
      refine ⟨j, f, fun clash => ?_, there, rfl⟩
      rw [clash, here] at there
      rw [← Option.some.inj there, position] at member
      exact absurd member (lt_irrefl _)

/-- A write keeps the most recent keys unless it gives up another than the oldest. -/
theorem Recent.step_iff {e : E} (recent : Recent key log t) (holds : Holds key log t)
    (chooses : Chooses key t (key e) i) :
    Recent key (log ++ [e]) (Function.update t i (some e)) ↔
      (Evicts key t (key e) → Oldest key log t i) := by
  cases chooses with
  | held f here same =>
    exact iff_of_true (recent.held here same) fun evicts => absurd same (evicts.1 i f here)
  | free absent empty first =>
    exact iff_of_true (recent.free holds absent empty first) fun evicts => absurd empty (evicts.2 i)
  | evict evicts => rw [recent.evict_iff holds evicts, forall_prop_of_true evicts]

/-! Along a log. -/

/-- Every slot given up was the least recently written. -/
def EvictsOldest (key : E → K) (table : List E → Fin n → Option E) (choice : List E → E → Fin n)
    (log : List E) : Prop :=
  ∀ before e, before ++ [e] <+: log → Evicts key (table before) (key e) →
    Oldest key before (table before) (choice before e)

/-- Whenever a slot was given up, the least recently written one had no tie below it. -/
def NeverTied (key : E → K) (stamp : E → T) (table : List E → Fin n → Option E) (log : List E) :
    Prop :=
  ∀ before e, before ++ [e] <+: log → Evicts key (table before) (key e) →
    ∀ l, Oldest key before (table before) l → Untied stamp (table before) l

/-- The table held the most recently written keys all along. -/
def AlwaysRecent (key : E → K) (table : List E → Fin n → Option E) (log : List E) : Prop :=
  ∀ before, before <+: log → Recent key before (table before)

variable {table : List E → Fin n → Option E} {choice : List E → E → Fin n}

theorem Fills.evictsOldest_iff (fills : Fills key table choice)
    (least : ∀ log e, Evicts key (table log) (key e) →
      LeastStamp stamp (table log) (choice log e))
    (ordered : log.Pairwise fun e f => stamp e ≤ stamp f) :
    EvictsOldest key table choice log ↔ NeverTied key stamp table log := by
  refine forall_congr' fun before => forall_congr' fun e => forall_congr' fun inside =>
    forall_congr' fun evicts => ?_
  have earlier : before.Pairwise fun e f => stamp e ≤ stamp f :=
    ordered.sublist (((List.prefix_append before [e]).trans inside).sublist)
  exact (fills.holds before).oldest_iff earlier evicts.2 (least before e evicts)

theorem Fills.alwaysRecent_iff (fills : Fills key table choice) :
    AlwaysRecent key table log ↔ EvictsOldest key table choice log := by
  constructor
  · intro recent before e inside evicts
    have after := recent _ inside
    rw [fills.write] at after
    exact ((recent before ((List.prefix_append ..).trans inside)).step_iff (fills.holds before)
      (fills.chooses before e)).mp after evicts
  · intro oldest before
    induction before using List.reverseRecOn with
    | nil =>
      intro _ k
      rw [fills.empty]
      simp [Absent, recentKeys, recency]
    | append_singleton before e ih =>
      intro inside
      rw [fills.write]
      exact ((ih ((List.prefix_append ..).trans inside)).step_iff (fills.holds before)
        (fills.chooses before e)).mpr (oldest before e inside)

end Slots
