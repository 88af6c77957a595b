import Mathlib.Data.List.Basic
import Mathlib.Data.List.Sort
import Mathlib.Tactic.Common

/-! Resynchronising framing of an unbounded element stream. A rule looks at the
front of a buffer and waits, slips one element or accepts a frame; a verdict,
once given, is never revised by later elements. Nothing here depends on the
element type, on the frame shapes or on how a buffer is stored. -/
namespace Framing

/-- What the front of a buffer decides. -/
inductive Verdict where
  | wait
  | slip
  | frame (width : Nat)
  deriving DecidableEq, Repr

/-- Number of elements a verdict takes off the front. -/
def Verdict.width : Verdict → Nat
  | .wait => 0
  | .slip => 1
  | .frame width => width

/-- Framing rules. The fields make every scan progress and stay inside the
buffer, and make a verdict independent of what arrives behind it. -/
structure Rules (α : Type*) where
  verdict : List α → Verdict
  empty : verdict [] = .wait
  positive : ∀ {buffer width}, verdict buffer = .frame width → 0 < width
  within : ∀ {buffer width}, verdict buffer = .frame width → width ≤ buffer.length
  final : ∀ {buffer} (later), verdict buffer ≠ .wait → verdict (buffer ++ later) = verdict buffer

variable {α σ : Type*}

namespace Rules
variable (r : Rules α)

theorem slip_nonempty {buffer : List α} (slipped : r.verdict buffer = .slip) :
    0 < buffer.length := by
  cases buffer with
  | nil => rw [r.empty] at slipped; contradiction
  | cons head tail => simp

theorem width_le (buffer : List α) : (r.verdict buffer).width ≤ buffer.length := by
  cases verdict : r.verdict buffer with
  | wait => exact Nat.zero_le _
  | slip => exact r.slip_nonempty verdict
  | frame width => exact r.within verdict

theorem width_pos {buffer : List α} (decided : r.verdict buffer ≠ .wait) :
    0 < (r.verdict buffer).width := by
  cases verdict : r.verdict buffer with
  | wait => exact absurd verdict decided
  | slip => exact Nat.one_pos
  | frame width => exact r.positive verdict

theorem width_eq_zero {buffer : List α} :
    (r.verdict buffer).width = 0 ↔ r.verdict buffer = .wait := by
  constructor
  · intro zero
    by_contra decided
    have := r.width_pos decided
    omega
  · intro waiting
    rw [waiting]
    rfl

/-- Every buffer is scanned by finitely many verdicts. -/
theorem induction {P : List α → Prop}
    (wait : ∀ buffer, r.verdict buffer = .wait → P buffer)
    (next : ∀ buffer, r.verdict buffer ≠ .wait →
      P (buffer.drop (r.verdict buffer).width) → P buffer) :
    ∀ buffer, P buffer := by
  intro buffer
  induction size : buffer.length using Nat.strong_induction_on generalizing buffer with
  | _ size ih =>
    by_cases waiting : r.verdict buffer = .wait
    · exact wait buffer waiting
    · have progress := r.width_pos waiting
      have inside := r.width_le buffer
      exact next buffer waiting (ih _ (by simp only [List.length_drop]; omega) _ rfl)

/-- Elements taken off the front before the scan has to wait. -/
def scanned (buffer : List α) : Nat :=
  if r.verdict buffer = .wait then 0
  else (r.verdict buffer).width + scanned (buffer.drop (r.verdict buffer).width)
  termination_by buffer.length
  decreasing_by
    have progress := r.width_pos ‹_›
    have inside := r.width_le buffer
    simp only [List.length_drop]
    omega

/-- Accepted frames of a buffer, as start position and width, in scan order. -/
def frames (buffer : List α) : List (Nat × Nat) :=
  if r.verdict buffer = .wait then []
  else
    (match r.verdict buffer with
      | .frame width => [(0, width)]
      | _ => []) ++
    (frames (buffer.drop (r.verdict buffer).width)).map
      fun f => (f.1 + (r.verdict buffer).width, f.2)
  termination_by buffer.length
  decreasing_by
    have progress := r.width_pos ‹_›
    have inside := r.width_le buffer
    simp only [List.length_drop]
    omega

/-- What a scan leaves in the buffer. -/
def residual (buffer : List α) : List α := buffer.drop (r.scanned buffer)

variable {r}

@[simp] theorem scanned_wait {buffer : List α} (waiting : r.verdict buffer = .wait) :
    r.scanned buffer = 0 := by
  rw [scanned, if_pos waiting]

theorem scanned_next {buffer : List α} (decided : r.verdict buffer ≠ .wait) :
    r.scanned buffer = (r.verdict buffer).width +
      r.scanned (buffer.drop (r.verdict buffer).width) := by
  rw [scanned, if_neg decided]

@[simp] theorem frames_wait {buffer : List α} (waiting : r.verdict buffer = .wait) :
    r.frames buffer = [] := by
  rw [frames, if_pos waiting]

theorem frames_slip {buffer : List α} (slipped : r.verdict buffer = .slip) :
    r.frames buffer = (r.frames (buffer.drop 1)).map fun f => (f.1 + 1, f.2) := by
  rw [frames, if_neg (by simp [slipped]), slipped]
  rfl

theorem frames_frame {buffer : List α} {width : Nat} (framed : r.verdict buffer = .frame width) :
    r.frames buffer =
      (0, width) :: (r.frames (buffer.drop width)).map fun f => (f.1 + width, f.2) := by
  rw [frames, if_neg (by simp [framed]), framed]
  rfl

theorem residual_next {buffer : List α} (decided : r.verdict buffer ≠ .wait) :
    r.residual buffer = r.residual (buffer.drop (r.verdict buffer).width) := by
  rw [residual, scanned_next decided, residual, List.drop_drop]

theorem residual_waits (buffer : List α) : r.verdict (r.residual buffer) = .wait := by
  induction buffer using r.induction with
  | wait buffer waiting => rw [residual, scanned_wait waiting, List.drop_zero, waiting]
  | next buffer decided ih => rw [residual_next decided, ih]

theorem residual_of_wait {buffer : List α} (waiting : r.verdict buffer = .wait) :
    r.residual buffer = buffer := by
  rw [residual, scanned_wait waiting, List.drop_zero]

/-- One unfolding of `frames`, whatever the verdict was. -/
theorem mem_frames_next {buffer : List α} (decided : r.verdict buffer ≠ .wait) {p n : Nat} :
    (p, n) ∈ r.frames buffer ↔ (p = 0 ∧ r.verdict buffer = .frame n) ∨
      ∃ q, (q, n) ∈ r.frames (buffer.drop (r.verdict buffer).width) ∧
        p = q + (r.verdict buffer).width := by
  cases verdict : r.verdict buffer with
  | wait => exact absurd verdict decided
  | slip =>
    rw [frames_slip verdict]
    simp only [List.mem_map, Prod.mk.injEq, Prod.exists, Verdict.width, reduceCtorEq, and_false,
      false_or]
    constructor
    · rintro ⟨q, m, found, rfl, rfl⟩; exact ⟨q, found, rfl⟩
    · rintro ⟨q, found, rfl⟩; exact ⟨q, n, found, rfl, rfl⟩
  | frame width =>
    rw [frames_frame verdict]
    simp only [List.mem_cons, List.mem_map, Prod.mk.injEq, Prod.exists, Verdict.width,
      Verdict.frame.injEq]
    constructor
    · rintro (⟨rfl, rfl⟩ | ⟨q, m, found, rfl, rfl⟩)
      · exact .inl ⟨rfl, rfl⟩
      · exact .inr ⟨q, found, rfl⟩
    · rintro (⟨rfl, rfl⟩ | ⟨q, found, rfl⟩)
      · exact .inl ⟨rfl, rfl⟩
      · exact .inr ⟨q, n, found, rfl, rfl⟩

/-- An accepted frame is accepted by the rules at its own position, and lies
wholly in the scanned part. -/
theorem mem_frames {buffer : List α} {p n : Nat} (found : (p, n) ∈ r.frames buffer) :
    r.verdict (buffer.drop p) = .frame n ∧ p + n ≤ r.scanned buffer := by
  induction buffer using r.induction generalizing p with
  | wait buffer waiting => simp [waiting] at found
  | next buffer decided ih =>
    rw [scanned_next decided]
    rcases (mem_frames_next decided).mp found with ⟨rfl, framed⟩ | ⟨q, inner, rfl⟩
    · simp [framed, Verdict.width]
    · obtain ⟨framed, bound⟩ := ih inner
      rw [List.drop_drop, Nat.add_comm] at framed
      exact ⟨framed, by omega⟩

theorem frames_disjoint {buffer : List α} {p n q m : Nat} (found : (p, n) ∈ r.frames buffer)
    (earlier : (q, m) ∈ r.frames buffer) (before : q < p) : q + m ≤ p := by
  induction buffer using r.induction generalizing p q with
  | wait buffer waiting => simp [waiting] at found
  | next buffer decided ih =>
    rcases (mem_frames_next decided).mp found with ⟨rfl, _⟩ | ⟨p, inner, rfl⟩
    · omega
    · rcases (mem_frames_next decided).mp earlier with ⟨rfl, framed⟩ | ⟨q, first, rfl⟩
      · rw [framed, Verdict.width]
        omega
      · have := ih inner first (by omega)
        omega

/-- Accepted frames are disjoint and in stream order. -/
theorem frames_ordered (buffer : List α) :
    (r.frames buffer).Pairwise fun f g => f.1 + f.2 ≤ g.1 := by
  induction buffer using r.induction with
  | wait buffer waiting => simp [waiting]
  | next buffer decided ih =>
    have shifted : ∀ width, ((r.frames (buffer.drop (r.verdict buffer).width)).map
        fun f => (f.1 + width, f.2)).Pairwise fun f g => f.1 + f.2 ≤ g.1 := by
      intro width
      refine List.pairwise_map.mpr (ih.imp ?_)
      intro f g ordered
      dsimp only
      omega
    cases verdict : r.verdict buffer with
    | wait => exact absurd verdict decided
    | slip => rw [frames_slip verdict]; rw [verdict] at shifted; exact shifted 1
    | frame width =>
      rw [frames_frame verdict]
      rw [verdict] at shifted
      refine List.pairwise_cons.mpr ⟨?_, shifted width⟩
      intro f member
      obtain ⟨g, _, rfl⟩ := List.mem_map.mp member
      dsimp only
      omega

/-- Every scanned position starts a frame, was slipped over, or lies inside an
accepted frame. -/
theorem scanned_cases {buffer : List α} {p : Nat} (before : p < r.scanned buffer) :
    (∃ n, (p, n) ∈ r.frames buffer) ∨ r.verdict (buffer.drop p) = .slip ∨
      ∃ q n, (q, n) ∈ r.frames buffer ∧ q < p ∧ p < q + n := by
  induction buffer using r.induction generalizing p with
  | wait buffer waiting => simp [waiting] at before
  | next buffer decided ih =>
    rw [scanned_next decided] at before
    by_cases first : p < (r.verdict buffer).width
    · cases verdict : r.verdict buffer with
      | wait => exact absurd verdict decided
      | slip =>
        rw [verdict, Verdict.width] at first
        obtain rfl : p = 0 := by omega
        exact .inr (.inl (by rw [List.drop_zero, verdict]))
      | frame width =>
        rw [verdict, Verdict.width] at first
        have head : (0, width) ∈ r.frames buffer :=
          (mem_frames_next decided).mpr (.inl ⟨rfl, verdict⟩)
        rcases Nat.eq_zero_or_pos p with rfl | inside
        · exact .inl ⟨width, head⟩
        · exact .inr (.inr ⟨0, width, head, inside, by omega⟩)
    · obtain ⟨q, rfl⟩ := Nat.exists_eq_add_of_le (Nat.le_of_not_lt first)
      have later : ∀ {a n}, (a, n) ∈ r.frames (buffer.drop (r.verdict buffer).width) →
          ((r.verdict buffer).width + a, n) ∈ r.frames buffer := by
        intro a n found
        exact (mem_frames_next decided).mpr (.inr ⟨a, found, by omega⟩)
      rcases ih (p := q) (by omega) with ⟨n, found⟩ | slipped | ⟨a, n, found, lower, upper⟩
      · exact .inl ⟨n, later found⟩
      · rw [List.drop_drop] at slipped
        exact .inr (.inl slipped)
      · exact .inr (.inr ⟨_, n, later found, by omega, by omega⟩)

end Rules

/-! The specification side: a leftmost-first selection of windows, stated on
positions alone. `width p` is the width of the window that starts at `p` (zero
if there is none); a blocked position that no earlier selected window covers
hides everything behind it. -/

def Leftmost (width : Nat → Nat) (blocked : Nat → Prop) (p : Nat) : Prop :=
  0 < width p ∧ (∀ q, q < p → Leftmost width blocked q → q + width q ≤ p) ∧
    ∀ q, q < p → blocked q → ∃ s, ∃ _ : s < p, Leftmost width blocked s ∧ s ≤ q ∧ q < s + width s
  termination_by p

theorem leftmost_iff {width : Nat → Nat} {blocked : Nat → Prop} {p : Nat} :
    Leftmost width blocked p ↔ 0 < width p ∧
      (∀ q, q < p → Leftmost width blocked q → q + width q ≤ p) ∧
      ∀ q, q < p → blocked q → ∃ s < p, Leftmost width blocked s ∧ s ≤ q ∧ q < s + width s := by
  rw [Leftmost]
  simp only [exists_prop]

/-- The selection is the only set of positions with its defining property. -/
theorem leftmost_unique {width : Nat → Nat} {blocked : Nat → Prop} (selected : Nat → Prop)
    (defining : ∀ p, selected p ↔ 0 < width p ∧ (∀ q, q < p → selected q → q + width q ≤ p) ∧
      ∀ q, q < p → blocked q → ∃ s < p, selected s ∧ s ≤ q ∧ q < s + width s) (p : Nat) :
    selected p ↔ Leftmost width blocked p := by
  induction p using Nat.strong_induction_on with
  | _ p ih =>
    rw [defining, leftmost_iff]
    refine and_congr_right fun _ => and_congr ?_ ?_
    · exact forall_congr' fun q => forall_congr' fun before => by rw [ih q before]
    · refine forall_congr' fun q => forall_congr' fun _ => imp_congr_right fun _ => ?_
      refine exists_congr fun s => ?_
      constructor
      · rintro ⟨before, found, rest⟩; exact ⟨before, (ih s before).mp found, rest⟩
      · rintro ⟨before, found, rest⟩; exact ⟨before, (ih s before).mpr found, rest⟩

namespace Rules
variable {r : Rules α}

/-- Width of the frame the rules accept at a position of a whole buffer. -/
def widthAt (r : Rules α) (buffer : List α) (p : Nat) : Nat :=
  match r.verdict (buffer.drop p) with
  | .frame width => width
  | _ => 0

theorem widthAt_eq {buffer : List α} {p n : Nat}
    (framed : r.verdict (buffer.drop p) = .frame n) : r.widthAt buffer p = n := by
  rw [widthAt, framed]

theorem widthAt_pos {buffer : List α} {p : Nat} :
    0 < r.widthAt buffer p ↔ ∃ n, r.verdict (buffer.drop p) = .frame n := by
  unfold widthAt
  constructor
  · intro positive
    split at positive
    · exact ⟨_, ‹_›⟩
    · omega
  · rintro ⟨n, framed⟩
    simp only [framed]
    exact r.positive framed

/-- A scan accepts exactly the leftmost-first selection of its own windows, cut
off behind the first uncovered position that still waits. -/
theorem mem_frames_iff_leftmost (buffer : List α) (p : Nat) :
    (∃ n, (p, n) ∈ r.frames buffer) ↔
      Leftmost (r.widthAt buffer) (fun q => r.verdict (buffer.drop q) = .wait) p := by
  refine leftmost_unique (fun p => ∃ n, (p, n) ∈ r.frames buffer) (fun p => ?_) p
  constructor
  · rintro ⟨n, found⟩
    obtain ⟨framed, bound⟩ := mem_frames found
    refine ⟨widthAt_pos.mpr ⟨n, framed⟩, ?_, ?_⟩
    · rintro q before ⟨m, earlier⟩
      rw [widthAt_eq (mem_frames earlier).1]
      exact frames_disjoint found earlier before
    · intro q before waiting
      have positive := r.positive framed
      obtain ⟨m, earlier⟩ | slipped | ⟨s, m, earlier, lower, upper⟩ :=
        scanned_cases (show q < r.scanned buffer by omega)
      · rw [(mem_frames earlier).1] at waiting
        contradiction
      · rw [slipped] at waiting
        contradiction
      · exact ⟨s, by omega, ⟨m, earlier⟩, lower.le, by rwa [widthAt_eq (mem_frames earlier).1]⟩
  · rintro ⟨positive, apart, uncovered⟩
    obtain ⟨n, framed⟩ := widthAt_pos.mp positive
    by_cases reached : p < r.scanned buffer
    · rcases scanned_cases reached with found | slipped | ⟨q, m, earlier, lower, upper⟩
      · exact found
      · rw [slipped] at framed
        contradiction
      · have := apart q lower ⟨m, earlier⟩
        rw [widthAt_eq (mem_frames earlier).1] at this
        omega
    · have waiting := residual_waits (r := r) buffer
      rw [residual] at waiting
      rcases Nat.eq_or_lt_of_not_lt reached with rfl | behind
      · rw [framed] at waiting
        contradiction
      · obtain ⟨s, _, ⟨m, earlier⟩, _, covers⟩ := uncovered _ behind waiting
        obtain ⟨framed, bound⟩ := mem_frames earlier
        rw [widthAt_eq framed] at covers
        omega

/-- Start positions of the accepted frames. -/
def starts (r : Rules α) (buffer : List α) : List Nat := (r.frames buffer).map Prod.fst

theorem starts_sorted (buffer : List α) : (r.starts buffer).Pairwise (· < ·) := by
  refine List.pairwise_map.mpr ((frames_ordered buffer).imp_of_mem ?_)
  rintro ⟨p, n⟩ ⟨q, m⟩ found _ ordered
  have := r.positive (mem_frames found).1
  dsimp only at ordered ⊢
  omega

theorem mem_starts {buffer : List α} {p : Nat} :
    p ∈ r.starts buffer ↔
      Leftmost (r.widthAt buffer) (fun q => r.verdict (buffer.drop q) = .wait) p := by
  rw [← mem_frames_iff_leftmost]
  simp [starts]

theorem frames_eq_starts (buffer : List α) :
    r.frames buffer = (r.starts buffer).map fun p => (p, r.widthAt buffer p) := by
  rw [starts, List.map_map]
  refine (List.map_id' _).symm.trans (List.map_congr_left ?_)
  rintro ⟨p, n⟩ found
  simp only [Function.comp_apply, widthAt_eq (mem_frames found).1]

end Rules
end Framing
