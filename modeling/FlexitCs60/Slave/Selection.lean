import FlexitCs60.Slave.Framing

/-! Which frames of a byte stream the slave handles, stated on positions of the
stream alone, and the proof that its incremental scan handles exactly these in
any cutting into chunks of at most 57 bytes. -/
namespace FlexitCs60.Slave
open Wire Framing

section
variable [Zephyr]

/-- Eight bytes that open with a known pair and close with the little-endian
CRC of the first six. -/
def ValidWindow (w : List UInt8) : Prop :=
  ∃ a b c d e f lo hi, w = [a, b, c, d, e, f, lo, hi] ∧
    (a, b) ∈ [((0x01 : UInt8), (0x01 : UInt8)), (0x01, 0x03), (0x01, 0x04), (0x00, 0x65)] ∧
    [lo, hi] = putLe16 (crc16Ansi [a, b, c, d, e, f])

/-- The window of a stream that starts at `p`, shorter near the end. -/
def window (stream : List UInt8) (p : Nat) : List UInt8 := (stream.drop p).take 8

/-- The leftmost-first choice of non-overlapping valid windows. -/
def Selected (stream : List UInt8) (p : Nat) : Prop :=
  ValidWindow (window stream p) ∧ ∀ q, q < p → Selected stream q → q + 8 ≤ p
  termination_by p

theorem selected_iff {stream : List UInt8} {p : Nat} : Selected stream p ↔
    ValidWindow (window stream p) ∧ ∀ q, q < p → Selected stream q → q + 8 ≤ p := by
  rw [Selected]

theorem ValidWindow.length {w : List UInt8} (valid : ValidWindow w) : w.length = 8 := by
  obtain ⟨a, b, c, d, e, f, lo, hi, rfl, _⟩ := valid
  rfl

theorem ValidWindow.inside {stream : List UInt8} {p : Nat} (valid : ValidWindow (window stream p)) :
    p + 8 ≤ stream.length := by
  have := valid.length
  simp only [window, List.length_take, List.length_drop] at this
  omega

omit [Zephyr] in
theorem eight_bytes {buffer : List UInt8} (long : 8 ≤ buffer.length) :
    ∃ a b c d e f g h rest, buffer = a :: b :: c :: d :: e :: f :: g :: h :: rest := by
  match buffer, long with
  | a :: b :: c :: d :: e :: f :: g :: h :: rest, _ => exact ⟨a, b, c, d, e, f, g, h, rest, rfl⟩

/-- The matcher accepts a buffer exactly when it opens with a valid window. -/
theorem verdict_frame_iff {buffer : List UInt8} :
    verdict buffer = .frame 8 ↔ ValidWindow (buffer.take 8) := by
  by_cases long : 8 ≤ buffer.length
  · obtain ⟨a, b, c, d, e, f, lo, hi, rest, rfl⟩ := eight_bytes long
    have anchor : (a, b) ∈ [((0x01 : UInt8), (0x01 : UInt8)), (0x01, 0x03), (0x01, 0x04),
        (0x00, 0x65)] ↔ anchored a b = true := by
      rw [anchored_iff]
      simp [slaveAddr]
    have valid : ValidWindow [a, b, c, d, e, f, lo, hi] ↔
        anchored a b = true ∧ crcOk [a, b, c, d, e, f, lo, hi] 8 = true := by
      rw [crcOk, decide_eq_true_eq, ← anchor]
      constructor
      · rintro ⟨_, _, _, _, _, _, _, _, same, opens, closes⟩
        simp only [List.cons.injEq, and_true] at same
        obtain ⟨rfl, rfl, rfl, rfl, rfl, rfl, rfl, rfl⟩ := same
        exact ⟨opens, putLe16_eq_iff.mp closes.symm⟩
      · rintro ⟨opens, closes⟩
        exact ⟨a, b, c, d, e, f, lo, hi, rfl, opens, (putLe16_eq_iff.mpr closes).symm⟩
    change _ ↔ ValidWindow [a, b, c, d, e, f, lo, hi]
    rw [valid, verdict, if_neg (by simp), List.getD_cons_zero, List.getD_cons_succ,
      List.getD_cons_zero]
    split
    · rename_i opens
      rw [if_neg (by simp [fcReqLen])]
      change (if crcOk [a, b, c, d, e, f, lo, hi] 8 = true then Verdict.frame 8 else .slip) = _ ↔ _
      simp [opens]
    · rename_i opens
      simp [opens]
  · constructor
    · intro framed
      exact absurd (verdict_frame framed).2 long
    · intro valid
      have := valid.length
      rw [List.length_take] at this
      omega

theorem widthAt_valid {stream : List UInt8} {p : Nat} :
    0 < rules.widthAt stream p ↔ ValidWindow (window stream p) := by
  rw [Rules.widthAt_pos]
  constructor
  · rintro ⟨n, framed⟩
    obtain ⟨rfl, _⟩ := verdict_frame framed
    exact verdict_frame_iff.mp framed
  · intro valid
    exact ⟨8, verdict_frame_iff.mpr valid⟩

theorem widthAt_eq_eight {stream : List UInt8} {p : Nat} (valid : ValidWindow (window stream p)) :
    rules.widthAt stream p = 8 :=
  Rules.widthAt_eq (verdict_frame_iff.mpr valid)

/-- The scan of a whole stream accepts exactly the selected windows: a position
that waits leaves fewer than eight bytes behind it, so it hides none. -/
theorem mem_starts_iff_selected {stream : List UInt8} {p : Nat} :
    p ∈ rules.starts stream ↔ Selected stream p := by
  rw [Rules.mem_starts]
  refine (leftmost_unique (Selected stream) (fun p => ?_) p).symm
  rw [selected_iff, widthAt_valid]
  have widths : (∀ q, q < p → Selected stream q → q + rules.widthAt stream q ≤ p) ↔
      ∀ q, q < p → Selected stream q → q + 8 ≤ p := by
    refine forall_congr' fun q => imp_congr_right fun _ => imp_congr_right fun chosen => ?_
    rw [widthAt_eq_eight (selected_iff.mp chosen).1]
  rw [widths]
  refine and_congr_right fun valid => (and_iff_left ?_).symm
  intro q before waiting
  have short := residual_length _ waiting
  have inside := valid.inside
  rw [List.length_drop] at short
  omega

/-- Cutting a stream off keeps exactly the selected windows that are complete. -/
theorem selected_take {stream : List UInt8} {n p : Nat} (cut : n ≤ stream.length) :
    Selected (stream.take n) p ↔ Selected stream p ∧ p + 8 ≤ n := by
  have same : ∀ p, p + 8 ≤ n → window (stream.take n) p = window stream p := by
    intro p complete
    rw [window, window, List.drop_take, List.take_take, min_eq_left (by omega)]
  induction p using Nat.strong_induction_on with
  | _ p ih =>
    constructor
    · intro chosen
      obtain ⟨valid, apart⟩ := selected_iff.mp chosen
      have complete := valid.inside
      rw [List.length_take, min_eq_left cut] at complete
      rw [same p complete] at valid
      refine ⟨selected_iff.mpr ⟨valid, fun q before earlier => ?_⟩, complete⟩
      exact apart q before ((ih q before).mpr ⟨earlier, by omega⟩)
    · rintro ⟨chosen, complete⟩
      obtain ⟨valid, apart⟩ := selected_iff.mp chosen
      refine selected_iff.mpr ⟨by rwa [same p complete], fun q before earlier => ?_⟩
      exact apart q before ((ih q before).mp earlier).1

/-- Frames accepted in a prefix, read off the whole stream's selection. -/
theorem frames_take {stream : List UInt8} {n : Nat} (cut : n ≤ stream.length) :
    (rules.frames (stream.take n)).map (fun f => ((stream.take n).drop f.1).take f.2) =
      ((rules.starts stream).filter fun p => p + 8 ≤ n).map (window stream) := by
  have positions : rules.starts (stream.take n) =
      (rules.starts stream).filter fun p => p + 8 ≤ n := by
    refine (Rules.starts_sorted _).eq_of_mem_iff ((Rules.starts_sorted _).filter _) fun p => ?_
    rw [List.mem_filter, mem_starts_iff_selected, mem_starts_iff_selected, selected_take cut,
      decide_eq_true_eq]
  rw [Rules.frames_eq_starts, positions, List.map_map]
  refine List.map_congr_left fun p member => ?_
  obtain ⟨chosen, complete⟩ := List.mem_filter.mp member
  have complete : p + 8 ≤ n := of_decide_eq_true complete
  have valid := (selected_iff.mp ((selected_take cut).mpr
    ⟨mem_starts_iff_selected.mp chosen, complete⟩)).1
  simp only [Function.comp_apply, widthAt_eq_eight valid]
  rw [window, List.drop_take, List.take_take, min_eq_left (by omega)]

/-- Boot, then feed the chunks in order. -/
def run (env : Env) (cells : Vector UInt8 accumSize) (chunks : List (List UInt8)) :
    Accumulator UInt8 accumSize × Traced :=
  chunks.foldl (flexitSlaveFeed env) (booted cells)

/-- While no feed drops a byte, a run is one drain of its stream. -/
theorem run_fits (env : Env) (cells : Vector UInt8 accumSize) {chunks : List (List UInt8)}
    (fits : Fits rules accumSize [] chunks) :
    (run env cells chunks).1.len ≤ accumSize ∧
      ((run env cells chunks).1.contents, (run env cells chunks).2) =
        drainAll (matcher env) chunks.flatten ⟨flexitSlaveInit, []⟩ :=
  Accumulator.feeds_eq_drainAll (tryDecodeAtFront_local env) (matcher_follows env) chunks
    (by decide) (Nat.zero_le _) _ rfl fits

theorem fits_of_small {chunks : List (List UInt8)}
    (sizes : ∀ chunk ∈ chunks, 1 ≤ chunk.length ∧ chunk.length ≤ 57) :
    Fits rules accumSize [] chunks :=
  fits_of_bound 7 57 (by decide) residual_length chunks
    (fun chunk member => (sizes chunk member).2) [] rfl

theorem run_small (env : Env) (cells : Vector UInt8 accumSize) {chunks : List (List UInt8)}
    (sizes : ∀ chunk ∈ chunks, 1 ≤ chunk.length ∧ chunk.length ≤ 57) :
    handledFrames (run env cells chunks).2 = (rules.frames chunks.flatten).map
        (fun f => (chunks.flatten.drop f.1).take f.2) ∧
      (run env cells chunks).1.contents = rules.residual chunks.flatten ∧
      (run env cells chunks).1.len ≤ 7 := by
  obtain ⟨bounded, same⟩ := run_fits env cells (fits_of_small sizes)
  obtain ⟨contents, traced⟩ := Prod.ext_iff.mp same
  dsimp only at contents traced
  rw [(matcher_follows env).drainAll_residual] at contents
  refine ⟨?_, contents, ?_⟩
  · rw [traced, handledFrames_drain]
    rfl
  · rw [← Accumulator.length_contents bounded, contents]
    exact residual_length _ (Rules.residual_waits _)

/-- A feed that delivers one valid window to an empty accumulator handles it and
leaves the accumulator empty. -/
theorem feed_window (env : Env) {a : Accumulator UInt8 accumSize} (empty : a.len = 0)
    {frame : List UInt8} (valid : ValidWindow frame) (s : Traced) :
    (flexitSlaveFeed env (a, s) frame).1.len = 0 ∧
      (flexitSlaveFeed env (a, s) frame).2 = accept env frame s := by
  have size := valid.length
  have nothing : a.contents = [] := by
    rw [Accumulator.contents, empty, List.take_zero]
  have framed : rules.verdict frame = .frame 8 :=
    verdict_frame_iff.mpr (by rwa [List.take_of_length_le size.le])
  obtain ⟨bounded, same⟩ := Accumulator.feed_contents (tryDecodeAtFront_local env)
    (matcher_follows env) (by decide) (a := a) (by omega) s frame (by omega)
  have whole : Framing.feed accumSize (matcher env) ([], s) frame = ([], accept env frame s) := by
    have some : frame ≠ [] := by
      intro nil
      rw [nil] at size
      contradiction
    have keeps : frame.length - accumSize = 0 := by
      rw [size]
      rfl
    rw [Framing.feed, if_neg some]
    simp only [List.nil_append]
    rw [keeps, List.drop_zero, (matcher_follows env).drainAll_next (by rw [framed]; simp), framed,
      matcher_frame env s framed]
    simp only [Verdict.width]
    rw [List.drop_eq_nil_of_le size.le, List.take_of_length_le size.le]
    exact (matcher_follows env).drainAll_wait rules.empty _
  have contents : (flexitSlaveFeed env (a, s) frame).1.contents = [] ∧
      (flexitSlaveFeed env (a, s) frame).2 = accept env frame s := by
    rw [nothing] at same
    exact Prod.ext_iff.mp (same.trans whole)
  refine ⟨?_, contents.2⟩
  have length := Accumulator.length_contents bounded
  change (flexitSlaveFeed env (a, s) frame).1.contents.length = _ at length
  rw [contents.1] at length
  exact length.symm

omit [Zephyr] in
theorem flatten_take (chunks : List (List UInt8)) (k : Nat) :
    (chunks.take k).flatten = chunks.flatten.take (chunks.take k).flatten.length ∧
      (chunks.take k).flatten.length ≤ chunks.flatten.length := by
  have split : chunks.flatten = (chunks.take k).flatten ++ (chunks.drop k).flatten := by
    rw [← List.flatten_append, List.take_append_drop]
  rw [split]
  exact ⟨(List.take_left ..).symm, by rw [List.length_append]; omega⟩

/-- The slave frames the stream leftmost first: `P` lists the selected windows
of the whole stream; a feed call handles those whose last byte it delivers, in
order, and nothing else; the residual is a short suffix of what has arrived, so
the next chunk never makes the accumulator drop a byte. -/
def FramesLeftmostFirst (env : Env) (cells : Vector UInt8 accumSize)
    (chunks : List (List UInt8)) : Prop :=
  ∃ P : List Nat, P.Pairwise (· < ·) ∧ (∀ p, p ∈ P ↔ Selected chunks.flatten p) ∧
    handledFrames (run env cells []).2 = [] ∧
    (∀ k ≤ chunks.length,
      (run env cells (chunks.take k)).1.contents <:+ (chunks.take k).flatten ∧
      (run env cells (chunks.take k)).1.len ≤ 7) ∧
    ∀ k < chunks.length, ∀ chunk ∈ chunks[k]?,
      (run env cells (chunks.take k)).1.len + chunk.length ≤ accumSize ∧
      handledFrames (run env cells (chunks.take (k + 1))).2 =
        handledFrames (run env cells (chunks.take k)).2 ++
          (P.filter fun p => (chunks.take k).flatten.length < p + 8 ∧
            p + 8 ≤ (chunks.take (k + 1)).flatten.length).map (window chunks.flatten)

omit [Zephyr] in
theorem filter_between {P : List Nat} (sorted : P.Pairwise (· < ·)) {n m : Nat} (le : n ≤ m) :
    (P.filter fun p => p + 8 ≤ m) = (P.filter fun p => p + 8 ≤ n) ++
      P.filter fun p => n < p + 8 ∧ p + 8 ≤ m := by
  induction P with
  | nil => rfl
  | cons p rest ih =>
    obtain ⟨first, sorted⟩ := List.pairwise_cons.mp sorted
    by_cases early : p + 8 ≤ n
    · have : p + 8 ≤ m := early.trans le
      have : ¬ n < p + 8 := by omega
      simp [*]
    · have none : (rest.filter fun p => p + 8 ≤ n) = [] := by
        refine List.filter_eq_nil_iff.mpr fun q member => ?_
        have := first q member
        simp only [decide_eq_true_eq]
        omega
      have late : n < p + 8 := by omega
      rw [none, List.nil_append] at ih
      by_cases inside : p + 8 ≤ m
      · simp [early, late, inside, none, ih sorted]
      · simp [early, inside, none, ih sorted]

theorem handles_leftmost_first (env : Env) (cells : Vector UInt8 accumSize)
    (chunks : List (List UInt8))
    (sizes : ∀ chunk ∈ chunks, 1 ≤ chunk.length ∧ chunk.length ≤ 57) :
    FramesLeftmostFirst env cells chunks := by
  have prefixes : ∀ k, ∀ chunk ∈ chunks.take k, 1 ≤ chunk.length ∧ chunk.length ≤ 57 :=
    fun k chunk member => sizes chunk (List.mem_of_mem_take member)
  have handled : ∀ k, handledFrames (run env cells (chunks.take k)).2 =
      ((rules.starts chunks.flatten).filter fun p =>
        p + 8 ≤ (chunks.take k).flatten.length).map (window chunks.flatten) := by
    intro k
    obtain ⟨cut, le⟩ := flatten_take chunks k
    rw [(run_small env cells (prefixes k)).1, ← frames_take le, ← cut]
  refine ⟨rules.starts chunks.flatten, Rules.starts_sorted _, fun p => mem_starts_iff_selected,
    rfl, ?_, ?_⟩
  · intro k _
    obtain ⟨_, contents, short⟩ := run_small env cells (prefixes k)
    exact ⟨by rw [contents]; exact List.drop_suffix _ _, short⟩
  · intro k inside chunk found
    obtain ⟨_, _, short⟩ := run_small env cells (prefixes k)
    have size := (sizes chunk (List.mem_of_getElem? found)).2
    have grows : (chunks.take k).flatten.length ≤ (chunks.take (k + 1)).flatten.length := by
      rw [List.take_add_one, List.flatten_append, List.length_append]
      omega
    refine ⟨(Nat.add_le_add short size).trans (by decide), ?_⟩
    rw [handled, handled, ← List.map_append,
      ← filter_between (Rules.starts_sorted _) grows]

end

/-- A probe split in two after its fourth byte, behind a foreign byte. -/
theorem handles_leftmost_first_probe :
    FramesLeftmostFirst ⟨fun _ => 0, fun _ => .ok⟩ (Vector.replicate accumSize 0)
      [[0xFF, 0x01, 0x04, 0x00, 0x00], [0x00, 0x04, 0xF1, 0xC9]] :=
  handles_leftmost_first _ _ _ (by decide)

end FlexitCs60.Slave
