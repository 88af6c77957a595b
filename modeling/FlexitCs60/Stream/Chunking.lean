import FlexitCs60.Stream.Drain
import Mathlib.Data.List.SplitLengths
import Mathlib.Algebra.GroupWithZero.Nat
import Mathlib.Algebra.BigOperators.Group.List.Basic

/-! Which cuttings of a stream a bounded buffer survives. A list of chunk
lengths either leaves room for every possible residual, and then every stream
cut that way is scanned as a whole, or it overflows at some chunk, and then a
probe frame that straddles that chunk's start is lost. -/
namespace Framing

variable {α σ τ : Type*} {r : Rules α} {step : List α → σ → Nat × σ}

/-- Each chunk fits behind the largest residual that the elements before it can
leave, given that no residual is longer than `bound`. -/
def Roomy (bound cap : Nat) : Nat → List Nat → Prop
  | _, [] => True
  | before, len :: rest => min bound before + len ≤ cap ∧ Roomy bound cap (before + len) rest

instance Roomy.decide (bound cap : Nat) : (before : Nat) → (lens : List Nat) →
    Decidable (Roomy bound cap before lens)
  | _, [] => inferInstanceAs (Decidable True)
  | before, len :: rest =>
    have := Roomy.decide bound cap (before + len) rest
    inferInstanceAs (Decidable (min bound before + len ≤ cap ∧ Roomy bound cap (before + len) rest))

theorem residual_length_le (buffer : List α) : (r.residual buffer).length ≤ buffer.length := by
  rw [Rules.residual, List.length_drop]
  exact Nat.sub_le _ _

/-- A roomy cutting never makes the buffer drop an element. -/
theorem fits_of_roomy {bound cap : Nat}
    (small : ∀ buffer, r.verdict buffer = .wait → buffer.length ≤ bound)
    (chunks : List (List α)) (buffer : List α) {before : Nat} (waits : r.verdict buffer = .wait)
    (arrived : buffer.length ≤ before) (roomy : Roomy bound cap before (chunks.map List.length)) :
    Fits r cap buffer chunks := by
  induction chunks generalizing buffer before with
  | nil => trivial
  | cons chunk rest ih =>
    obtain ⟨room, roomy⟩ := roomy
    have := small buffer waits
    refine ⟨by omega, ih _ (Rules.residual_waits _) ?_ roomy⟩
    have := residual_length_le (r := r) (buffer ++ chunk)
    rw [List.length_append] at this
    omega

theorem bytewise_flatten (stream : List α) :
    (stream.map fun element => [element]).flatten = stream := by
  rw [← List.flatMap_def, List.flatMap_singleton']

/-- Fed one element at a time, a buffer with room for one more never drops any. -/
theorem fits_bytewise {bound cap : Nat}
    (small : ∀ buffer, r.verdict buffer = .wait → buffer.length ≤ bound) (room : bound < cap)
    (stream : List α) : Fits r cap [] (stream.map fun element => [element]) := by
  apply fits_of_bound bound 1 room small _ _ [] r.empty
  intro chunk member
  obtain ⟨element, _, rfl⟩ := List.mem_map.mp member
  exact le_rfl

/-- A cutting that is not roomy has a first chunk that can overflow. -/
theorem first_overflow {bound cap before : Nat} {lens : List Nat}
    (overflows : ¬ Roomy bound cap before lens) :
    ∃ pre len post, lens = pre ++ len :: post ∧ Roomy bound cap before pre ∧
      cap < min bound (before + pre.sum) + len := by
  induction lens generalizing before with
  | nil => exact absurd trivial overflows
  | cons len rest ih =>
    by_cases room : min bound before + len ≤ cap
    · have later : ¬ Roomy bound cap (before + len) rest := fun roomy => overflows ⟨room, roomy⟩
      obtain ⟨pre, l, post, rfl, roomy, exceeds⟩ := ih later
      refine ⟨len :: pre, l, post, rfl, ⟨room, roomy⟩, ?_⟩
      rwa [List.sum_cons, ← Nat.add_assoc]
    · exact ⟨[], len, rest, rfl, trivial, by simpa using room⟩

/-- Decoders that follow the same rules preserve in lockstep whatever relation
their single steps preserve. -/
theorem drainAll_rel {step' : List α → τ → Nat × τ} (follows : Follows r step)
    (follows' : Follows r step') {R : σ → τ → Prop}
    (preserves : ∀ buffer s t, r.verdict buffer ≠ .wait → R s t →
      R (step buffer s).2 (step' buffer t).2)
    (buffer : List α) {s : σ} {t : τ} (initial : R s t) :
    R (drainAll step buffer s).2 (drainAll step' buffer t).2 := by
  induction buffer using r.induction generalizing s t with
  | wait buffer waiting => rwa [follows.drainAll_wait waiting, follows'.drainAll_wait waiting]
  | next buffer decided ih =>
    rw [follows.drainAll_next decided, follows'.drainAll_next decided]
    exact ih (preserves buffer s t decided initial)

/-- A frame and a padding element that show an overflow: every proper prefix of
the frame waits, padding is slipped over, and the frame does not occur again in
itself followed by padding. -/
structure Probe (r : Rules α) (bound cap : Nat) (frame : List α) (pad : α) : Prop where
  size : frame.length = bound + 1
  positive : 0 < bound
  fits : bound + 1 ≤ cap
  small : ∀ buffer, r.verdict buffer = .wait → buffer.length ≤ bound
  accepted : r.verdict frame = .frame frame.length
  undecided : ∀ n ≤ bound, r.verdict (frame.take n) = .wait
  slips : ∀ next rest, r.verdict (pad :: next :: rest) = .slip
  alone : ∀ n q, 0 < q → ((frame ++ List.replicate n pad).drop q).take frame.length ≠ frame

/-- No amount of padding behind the buffer lets the frame occur in it. -/
def Avoids (frame : List α) (pad : α) (buffer : List α) : Prop :=
  ∀ n q, ((buffer ++ List.replicate n pad).drop q).take frame.length ≠ frame

namespace Avoids
variable {frame buffer : List α} {pad : α}

theorem drop (avoids : Avoids frame pad buffer) (k : Nat) : Avoids frame pad (buffer.drop k) := by
  intro n q occurs
  by_cases inside : k ≤ buffer.length
  · apply avoids n (k + q)
    rwa [← List.drop_drop, List.drop_append_of_le_length inside]
  · have empty : buffer.drop k = [] := List.drop_eq_nil_of_le (by omega)
    rw [empty, List.nil_append] at occurs
    apply avoids n (buffer.length + q)
    rwa [← List.drop_drop, List.drop_left]

theorem append_pad (avoids : Avoids frame pad buffer) (m : Nat) :
    Avoids frame pad (buffer ++ List.replicate m pad) := by
  intro n q
  rw [List.append_assoc, List.replicate_append_replicate]
  exact avoids (m + n) q

/-- A frame the rules accept in the buffer is another one. -/
theorem frames (avoids : Avoids frame pad buffer) :
    frame ∉ (r.frames buffer).map fun f => (buffer.drop f.1).take f.2 := by
  intro member
  obtain ⟨⟨p, n⟩, found, same⟩ := List.mem_map.mp member
  have width : n = frame.length := by
    have within := r.within (Rules.mem_frames found).1
    have := congrArg List.length same
    dsimp only at this
    rw [List.length_take] at this
    omega
  apply avoids 0 p
  rw [List.replicate_zero, List.append_nil, ← width]
  exact same

end Avoids

namespace Probe
variable {bound cap : Nat} {frame : List α} {pad : α} (probe : Probe r bound cap frame pad)
include probe

theorem verdict_pads {a : Nat} {rest : List α} (some : rest ≠ []) :
    r.verdict (List.replicate (a + 1) pad ++ rest) = .slip := by
  rw [List.replicate_succ, List.cons_append]
  cases a with
  | zero =>
    obtain ⟨x, xs, rfl⟩ := List.exists_cons_of_ne_nil some
    exact probe.slips x xs
  | succ a => exact probe.slips pad _

/-- Padding in front only shifts the scan. -/
theorem mem_frames_pads {a p n : Nat} {rest : List α} (some : rest ≠ []) :
    (p, n) ∈ r.frames (List.replicate a pad ++ rest) ↔ ∃ q, (q, n) ∈ r.frames rest ∧ p = q + a := by
  induction a generalizing p with
  | zero => simp
  | succ a ih =>
    have slipped := probe.verdict_pads (a := a) some
    rw [Rules.mem_frames_next (by rw [slipped]; simp), slipped]
    simp only [reduceCtorEq, and_false, false_or, Verdict.width]
    rw [List.replicate_succ, List.cons_append, List.drop_succ_cons, List.drop_zero]
    constructor
    · rintro ⟨_, shifted, rfl⟩
      obtain ⟨q, found, rfl⟩ := ih.mp shifted
      exact ⟨q, found, by omega⟩
    · rintro ⟨q, found, rfl⟩
      exact ⟨q + a, ih.mpr ⟨q, found, rfl⟩, by omega⟩

theorem residual_pads {a : Nat} {rest : List α} (some : rest ≠ [])
    (waits : r.verdict rest = .wait) : r.residual (List.replicate a pad ++ rest) = rest := by
  induction a with
  | zero => exact Rules.residual_of_wait waits
  | succ a ih =>
    have slipped := probe.verdict_pads (a := a) some
    rw [Rules.residual_next (by rw [slipped]; simp), slipped, List.replicate_succ,
      List.cons_append]
    exact ih

theorem frame_ne_nil : frame ≠ [] := by
  intro nil
  have := probe.size
  rw [nil, List.length_nil] at this
  omega

/-- Dropping anything off the front of the frame makes it unrecognisable. -/
theorem avoids_drop {n k : Nat} (drops : 0 < k) :
    Avoids frame pad ((frame ++ List.replicate n pad).drop k) := by
  intro m q
  by_cases inside : k ≤ (frame ++ List.replicate n pad).length
  · rw [← List.drop_append_of_le_length inside, List.drop_drop, List.append_assoc,
      List.replicate_append_replicate]
    exact probe.alone _ _ (by omega)
  · have empty : (frame ++ List.replicate n pad).drop k = [] := List.drop_eq_nil_of_le (by omega)
    rw [empty, List.nil_append]
    intro occurs
    apply probe.alone (n + m) ((frame ++ List.replicate n pad).length + q) (by
      have := probe.size
      rw [List.length_append]
      omega)
    rw [← List.replicate_append_replicate, ← List.append_assoc, ← List.drop_drop, List.drop_left]
    exact occurs

/-- Padding in front of a proper prefix is slipped over, and the prefix waits. -/
theorem settled_pads {a k : Nat} (within : k ≤ bound) (blank : k = 0 → a = 0) :
    r.residual (List.replicate a pad ++ frame.take k) = frame.take k ∧
      r.frames (List.replicate a pad ++ frame.take k) = [] := by
  have waits := probe.undecided k within
  by_cases none : k = 0
  · rw [blank none, List.replicate_zero, List.nil_append]
    exact ⟨Rules.residual_of_wait waits, Rules.frames_wait waits⟩
  · have size := probe.size
    have some : frame.take k ≠ [] := by
      intro nil
      have := congrArg List.length nil
      rw [List.length_take, List.length_nil] at this
      omega
    refine ⟨probe.residual_pads some waits, List.eq_nil_iff_forall_not_mem.mpr ?_⟩
    rintro ⟨p, n⟩ found
    obtain ⟨q, found, _⟩ := (probe.mem_frames_pads some).mp found
    rw [Rules.frames_wait waits] at found
    contradiction

variable (follows : Follows r step) (log : σ → List (List α))
  (accepts : ∀ buffer s width, r.verdict buffer = .frame width →
    log (step buffer s).2 = log s ++ [buffer.take width])
  (quiet : ∀ buffer s, r.verdict buffer = .slip → log (step buffer s).2 = log s)
include follows accepts quiet

omit probe in
/-- Draining a buffer without the frame never logs the frame. -/
theorem drain_avoids {buffer : List α} (avoids : Avoids frame pad buffer) {s : σ}
    (absent : frame ∉ log s) :
    Avoids frame pad (drainAll step buffer s).1 ∧ frame ∉ log (drainAll step buffer s).2 := by
  refine ⟨?_, ?_⟩
  · rw [follows.drainAll_residual]
    exact avoids.drop _
  · rw [follows.drainAll_log log accepts quiet, List.mem_append]
    rintro (before | now)
    · exact absent before
    · exact avoids.frames now

omit probe in
/-- Feeding padding to a buffer without the frame never logs the frame. -/
theorem feed_pad {buffer : List α} (avoids : Avoids frame pad buffer) {s : σ}
    (absent : frame ∉ log s) (m : Nat) :
    Avoids frame pad (feed cap step (buffer, s) (List.replicate m pad)).1 ∧
      frame ∉ log (feed cap step (buffer, s) (List.replicate m pad)).2 := by
  unfold feed
  split
  · exact ⟨avoids, absent⟩
  · exact drain_avoids follows log accepts quiet ((avoids.append_pad m).drop _) absent

omit probe in
theorem feeds_pad (lens : List Nat) {buffer : List α} (avoids : Avoids frame pad buffer) {s : σ}
    (absent : frame ∉ log s) :
    frame ∉ log ((lens.map fun m => List.replicate m pad).foldl (feed cap step) (buffer, s)).2 := by
  induction lens generalizing buffer s with
  | nil => exact absent
  | cons m rest ih =>
    obtain ⟨avoids, absent⟩ := feed_pad follows log accepts quiet avoids absent m
    exact ih avoids absent

/-- A chunk that completes the frame and overflows loses it. -/
theorem feed_overflow {k m : Nat} (within : k ≤ bound)
    (exceeds : cap < (frame ++ List.replicate m pad).length) {s : σ} (absent : frame ∉ log s) :
    Avoids frame pad (feed cap step (frame.take k, s) (frame.drop k ++ List.replicate m pad)).1 ∧
      frame ∉ log (feed cap step (frame.take k, s) (frame.drop k ++ List.replicate m pad)).2 := by
  have size := probe.size
  have nonempty : frame.drop k ++ List.replicate m pad ≠ [] := by
    intro nil
    have := congrArg List.length nil
    rw [List.length_append, List.length_drop, List.length_nil] at this
    omega
  have whole : frame.take k ++ (frame.drop k ++ List.replicate m pad) =
      frame ++ List.replicate m pad := by
    rw [← List.append_assoc, List.take_append_drop]
  rw [feed, if_neg nonempty, whole]
  exact drain_avoids follows log accepts quiet (probe.avoids_drop (Nat.sub_pos_of_lt exceeds)) absent

/-- The frame is logged where it stands in a stream behind padding. -/
theorem logged_pads (a : Nat) (tail : List α) (s : σ) :
    frame ∈ log (drainAll step (List.replicate a pad ++ (frame ++ tail)) s).2 := by
  rw [follows.drainAll_log log accepts quiet, List.mem_append]
  refine .inr (List.mem_map.mpr ⟨(a, frame.length), ?_, ?_⟩)
  · refine (probe.mem_frames_pads (by simp [probe.frame_ne_nil])).mpr ⟨0, ?_, by omega⟩
    have kept := r.final tail (show r.verdict frame ≠ .wait by rw [probe.accepted]; simp)
    rw [probe.accepted] at kept
    exact (Rules.mem_frames_next (by rw [kept]; simp)).mpr (.inl ⟨rfl, kept⟩)
  · dsimp only
    rw [List.drop_left' (List.length_replicate ..), List.take_left]

/-- A cutting that can overflow loses a frame of some stream cut that way: the
scan of the whole stream accepts it, the bounded feeds do not. -/
theorem overflow_loses {lens : List Nat} (overflows : ¬ Roomy bound cap 0 lens) {s : σ}
    (absent : frame ∉ log s) :
    ∃ chunks : List (List α), chunks.map List.length = lens ∧
      frame ∈ log (drainAll step chunks.flatten s).2 ∧
      frame ∉ log (chunks.foldl (feed cap step) ([], s)).2 := by
  obtain ⟨pre, len, post, rfl, roomy, exceeds⟩ := first_overflow overflows
  rw [Nat.zero_add] at exceeds
  have size := probe.size
  have fits := probe.fits
  have positive := probe.positive
  -- `k` elements of the frame arrive before the overflowing chunk
  obtain ⟨k, hk⟩ : ∃ k, k = min bound pre.sum := ⟨_, rfl⟩
  rw [← hk] at exceeds
  obtain ⟨m, hm⟩ : ∃ m, len = frame.length - k + m := Nat.exists_eq_add_of_le (by omega)
  let head := List.replicate (pre.sum - k) pad ++ frame.take k
  have headLength : head.length = pre.sum := by
    simp only [head, List.length_append, List.length_replicate, List.length_take]
    omega
  refine ⟨pre.splitLengths head ++ (frame.drop k ++ List.replicate m pad) ::
    post.map fun n => List.replicate n pad, ?_, ?_, ?_⟩
  · rw [List.map_append, List.map_cons, List.map_splitLengths_length _ _ headLength.ge,
      List.map_map]
    congr 2
    · rw [List.length_append, List.length_drop, List.length_replicate, hm]
    · simp [Function.comp_def]
  · have stream : (pre.splitLengths head ++ (frame.drop k ++ List.replicate m pad) ::
        post.map fun n => List.replicate n pad).flatten =
          List.replicate (pre.sum - k) pad ++ (frame ++ (List.replicate m pad ++
            (post.map fun n => List.replicate n pad).flatten)) := by
      rw [List.flatten_append, List.flatten_splitLengths _ _ headLength.le, List.flatten_cons]
      simp only [head, List.append_assoc]
      rw [← List.append_assoc (frame.take k), List.take_append_drop]
    rw [stream]
    exact probe.logged_pads follows log accepts quiet _ _ s
  · have before : Fits r cap [] (pre.splitLengths head) :=
      fits_of_roomy probe.small _ [] r.empty le_rfl
        (by rwa [List.map_splitLengths_length _ _ headLength.ge])
    obtain ⟨residual, frames⟩ := probe.settled_pads (a := pre.sum - k) (k := k) (by omega) (by omega)
    rw [List.foldl_append, follows.feeds_eq_drainAll _ [] s r.empty before, List.nil_append,
      List.flatten_splitLengths _ _ headLength.le, List.foldl_cons]
    have first := follows.drainAll_residual head s
    have quietly := follows.drainAll_log log accepts quiet head s
    rw [residual] at first
    rw [frames, List.map_nil, List.append_nil] at quietly
    generalize drainAll step head s = x at first quietly ⊢
    obtain ⟨rest, s'⟩ := x
    dsimp only at first quietly
    subst first
    obtain ⟨avoids, lost⟩ := probe.feed_overflow follows log accepts quiet (m := m)
      (show k ≤ bound by omega) (by rw [List.length_append, List.length_replicate]; omega)
      (quietly.symm ▸ absent)
    exact feeds_pad follows log accepts quiet post avoids lost

end Probe
end Framing
