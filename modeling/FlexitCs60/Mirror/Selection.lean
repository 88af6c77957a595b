import FlexitCs60.Mirror.Framing
import FlexitCs60.Stream.Chunking

/-! Which frames of a byte stream the mirror accepts, stated on positions of the
stream alone, and the proof that its incremental scan accepts exactly these in
any cutting into chunks of at most 78 bytes. -/
namespace FlexitCs60.Mirror
open Wire Framing

/-- The fixed opening of a status block. -/
def header : List UInt8 := [0x00, 0x10, 0x00, 0xBE, 0x00, 0x55, 0xAA]

/-- The `n` bytes of a stream from position `p` on, fewer near its end. -/
def slice (stream : List UInt8) (p n : Nat) : List UInt8 := (stream.drop p).take n

theorem opensFc10_iff {buffer : List UInt8} :
    opensFc10 buffer = true ↔ buffer.take 2 = [0x00, 0x10] := by
  match buffer with
  | [] => decide
  | [a] => simp [opensFc10]
  | a :: b :: rest => simp [opensFc10]

theorem opensFc06_iff {buffer : List UInt8} :
    opensFc06 buffer = true ↔ buffer.take 2 = [0x00, 0x06] := by
  match buffer with
  | [] => decide
  | [a] => simp [opensFc06]
  | a :: b :: rest => simp [opensFc06]

/-- The missing bytes of a short buffer read as zero, and the header ends in
another byte. -/
theorem fullHeader_iff {buffer : List UInt8} :
    opensFc10 buffer = true ∧ fullHeader buffer = true ↔ buffer.take 7 = header := by
  match buffer with
  | [] => decide
  | [_] | [_, _] | [_, _, _] | [_, _, _, _] | [_, _, _, _, _] | [_, _, _, _, _, _] =>
    simp [fullHeader, header]
  | a :: b :: c :: d :: e :: f :: g :: rest =>
    simp [opensFc10, fullHeader, header, and_assoc]

theorem six_bytes {body : List UInt8} (size : body.length = 6) :
    ∃ a b ah al vh vl, body = [a, b, ah, al, vh, vl] := by
  match body, size with
  | [a, b, ah, al, vh, vl], _ => exact ⟨a, b, ah, al, vh, vl, rfl⟩

/-- An undecided status block: its whole header has arrived, its end has not. -/
def Undecided (stream : List UInt8) (p : Nat) : Prop :=
  slice stream p 7 = header ∧ stream.length < p + 179

/-- What may be left in the accumulator. -/
def Residual (buffer : List UInt8) : Prop :=
  buffer = [] ∨ buffer.length = 1 ∨ buffer.take 2 = [0x00, 0x06] ∧ buffer.length < 8 ∨
    buffer.take 2 = [0x00, 0x10] ∧ buffer.length < 7 ∨
    buffer.take 7 = header ∧ buffer.length < 179

section
variable [Zephyr]

/-- Header, 170 data bytes and their little-endian check sum. -/
def ValidFc10 (w : List UInt8) : Prop :=
  ∃ data : List UInt8, data.length = 170 ∧ w = stampCrc (header ++ data)

def ValidFc06 (w : List UInt8) : Prop :=
  ∃ ah al vh vl, w = stampCrc [0x00, 0x06, ah, al, vh, vl]

/-- A window with a known header whose check sum matches. -/
def FrameAt (stream : List UInt8) (p n : Nat) : Prop :=
  n = 179 ∧ ValidFc10 (slice stream p 179) ∨ n = 8 ∧ ValidFc06 (slice stream p 8)

/-- The leftmost-first parse: a frame is accepted if it overlaps no frame that
was accepted before it and every undecided block before it lies inside one. -/
def Parsed (stream : List UInt8) (p : Nat) : Prop :=
  (∃ n, FrameAt stream p n) ∧
    (∀ q, q < p → Parsed stream q → ∀ n, FrameAt stream q n → q + n ≤ p) ∧
    ∀ q, q < p → Undecided stream q →
      ∃ s, ∃ _ : s < p, Parsed stream s ∧ ∃ n, FrameAt stream s n ∧ s ≤ q ∧ q < s + n
  termination_by p

theorem parsed_iff {stream : List UInt8} {p : Nat} : Parsed stream p ↔
    (∃ n, FrameAt stream p n) ∧
    (∀ q, q < p → Parsed stream q → ∀ n, FrameAt stream q n → q + n ≤ p) ∧
    ∀ q, q < p → Undecided stream q →
      ∃ s < p, Parsed stream s ∧ ∃ n, FrameAt stream s n ∧ s ≤ q ∧ q < s + n := by
  rw [Parsed]
  simp only [exists_prop]

theorem validFc10_iff {buffer : List UInt8} : ValidFc10 (buffer.take 179) ↔
    buffer.take 7 = header ∧ 179 ≤ buffer.length ∧ crcOk (buffer.take 179) 179 = true := by
  constructor
  · rintro ⟨data, size, stamped⟩
    have length : (buffer.take 179).length = 179 := by
      rw [stamped, length_stampCrc, List.length_append, size]
      rfl
    refine ⟨?_, by rw [List.length_take] at length; omega, ?_⟩
    · have front := congrArg (List.take 7) stamped
      rw [List.take_take, stampCrc, List.append_assoc] at front
      exact front.trans (List.take_left' rfl)
    · exact (crcOk_iff length (by decide)).mpr ⟨_, by rw [List.length_append, size]; rfl, stamped⟩
  · rintro ⟨front, long, check⟩
    obtain ⟨body, size, stamped⟩ := (crcOk_iff (by rw [List.length_take]; omega) (by decide)).mp check
    refine ⟨body.drop 7, by rw [List.length_drop, size], ?_⟩
    have opening := congrArg (List.take 7) stamped
    rw [List.take_take, stampCrc, List.take_append_of_le_length (by rw [size]; decide)] at opening
    rw [stamped, ← front]
    change _ = stampCrc (List.take (min 7 179) buffer ++ _)
    rw [opening, List.take_append_drop]

theorem validFc06_iff {buffer : List UInt8} : ValidFc06 (buffer.take 8) ↔
    buffer.take 2 = [0x00, 0x06] ∧ 8 ≤ buffer.length ∧ crcOk (buffer.take 8) 8 = true := by
  constructor
  · rintro ⟨ah, al, vh, vl, stamped⟩
    have length : (buffer.take 8).length = 8 := by
      rw [stamped, length_stampCrc]
      rfl
    refine ⟨?_, by rw [List.length_take] at length; omega, ?_⟩
    · have front := congrArg (List.take 2) stamped
      rw [List.take_take] at front
      exact front
    · exact (crcOk_iff length (by decide)).mpr ⟨_, rfl, stamped⟩
  · rintro ⟨front, long, check⟩
    obtain ⟨body, size, stamped⟩ := (crcOk_iff (by rw [List.length_take]; omega) (by decide)).mp check
    have opening := congrArg (List.take 2) stamped
    rw [List.take_take, stampCrc, List.take_append_of_le_length (by rw [size]; decide)] at opening
    obtain ⟨a, b, ah, al, vh, vl, rfl⟩ := six_bytes size
    have same : [a, b] = [0x00, 0x06] := opening.symm.trans front
    obtain ⟨rfl, rfl⟩ : a = 0x00 ∧ b = 0x06 := by simpa using same
    exact ⟨ah, al, vh, vl, stamped⟩

/-- The matcher accepts a buffer exactly when it opens with a valid window. -/
theorem verdict_frame_iff {buffer : List UInt8} {n : Nat} : verdict buffer = .frame n ↔
    n = 179 ∧ ValidFc10 (buffer.take 179) ∨ n = 8 ∧ ValidFc06 (buffer.take 8) := by
  rw [verdict_frame, checked_frame, checked_frame, validFc10_iff, validFc06_iff, ← fullHeader_iff,
    ← opensFc06_iff]
  constructor
  · rintro (⟨fc10, full, rfl, long, check⟩ | ⟨_, fc06, rfl, long, check⟩)
    · exact .inl ⟨rfl, ⟨fc10, full⟩, long, check⟩
    · exact .inr ⟨rfl, fc06, long, check⟩
  · rintro (⟨rfl, ⟨fc10, full⟩, long, check⟩ | ⟨rfl, fc06, long, check⟩)
    · exact .inl ⟨fc10, full, rfl, long, check⟩
    · refine .inr ⟨?_, fc06, rfl, long, check⟩
      by_contra other
      rw [opensFc06_of_opensFc10 (Bool.eq_true_of_not_eq_false other)] at fc06
      contradiction

theorem verdict_drop {stream : List UInt8} {p n : Nat} :
    rules.verdict (stream.drop p) = .frame n ↔ FrameAt stream p n :=
  verdict_frame_iff

/-- Every residual has the shape of one of the waits. -/
theorem residual_of_wait {buffer : List UInt8} (waiting : rules.verdict buffer = .wait) :
    Residual buffer := by
  rcases verdict_wait.mp waiting with short | ⟨fc10, small⟩ | ⟨fc10, full, small⟩ | ⟨_, fc06, small⟩
  · rcases Nat.eq_zero_or_pos buffer.length with none | some
    · exact .inl (List.length_eq_zero_iff.mp none)
    · exact .inr (.inl (by omega))
  · exact .inr (.inr (.inr (.inl ⟨opensFc10_iff.mp fc10, small⟩)))
  · exact .inr (.inr (.inr (.inr ⟨fullHeader_iff.mp ⟨fc10, full⟩, small⟩)))
  · exact .inr (.inr (.inl ⟨opensFc06_iff.mp fc06, small⟩))

/-- With eight bytes behind it, only an undecided block makes a position wait. -/
theorem undecided_iff {stream : List UInt8} {q : Nat} (room : q + 8 ≤ stream.length) :
    rules.verdict (stream.drop q) = .wait ↔ Undecided stream q := by
  have left : (stream.drop q).length = stream.length - q := List.length_drop
  constructor
  · intro waiting
    rcases residual_of_wait waiting with none | one | ⟨_, small⟩ | ⟨_, small⟩ | ⟨full, small⟩
    · rw [none, List.length_nil] at left
      omega
    · omega
    · omega
    · omega
    · exact ⟨full, by omega⟩
  · rintro ⟨full, small⟩
    obtain ⟨fc10, full⟩ := fullHeader_iff.mpr full
    exact verdict_wait.mpr (.inr (.inr (.inl ⟨fc10, full, left.trans_lt (by
      simp only [fc10Len]
      omega)⟩)))

theorem FrameAt.width {stream : List UInt8} {p n : Nat} (frame : FrameAt stream p n) :
    8 ≤ n ∧ p + n ≤ stream.length := by
  have inside := rules.within (verdict_drop.mpr frame)
  rw [List.length_drop] at inside
  rcases frame with ⟨rfl, _⟩ | ⟨rfl, _⟩ <;> omega

theorem FrameAt.widthAt {stream : List UInt8} {p n : Nat} (frame : FrameAt stream p n) :
    rules.widthAt stream p = n :=
  Rules.widthAt_eq (verdict_drop.mpr frame)

/-- The scan of a whole stream accepts frames at exactly the parsed positions. -/
theorem parsed_iff_leftmost {stream : List UInt8} {p : Nat} : Parsed stream p ↔
    Leftmost (rules.widthAt stream) (fun q => rules.verdict (stream.drop q) = .wait) p := by
  refine leftmost_unique (Parsed stream) (fun p => ?_) p
  rw [parsed_iff, Rules.widthAt_pos]
  have first : (∃ n, rules.verdict (stream.drop p) = .frame n) ↔ ∃ n, FrameAt stream p n :=
    exists_congr fun n => verdict_drop
  rw [first]
  refine and_congr_right fun ⟨n, frame⟩ => and_congr ?_ ?_
  · refine forall_congr' fun q => imp_congr_right fun _ => imp_congr_right fun earlier => ?_
    obtain ⟨m, framed⟩ := (parsed_iff.mp earlier).1
    constructor
    · intro apart
      rw [framed.widthAt]
      exact apart m framed
    · intro apart m framed
      rwa [framed.widthAt] at apart
  · obtain ⟨eight, inside⟩ := frame.width
    refine forall_congr' fun q => forall_congr' fun before => ?_
    rw [undecided_iff (show q + 8 ≤ stream.length by omega)]
    refine imp_congr_right fun _ => exists_congr fun s => and_congr_right fun _ =>
      and_congr_right fun earlier => ?_
    obtain ⟨m, framed⟩ := (parsed_iff.mp earlier).1
    constructor
    · rintro ⟨m, framed, covers⟩
      rwa [framed.widthAt]
    · intro covers
      rw [framed.widthAt] at covers
      exact ⟨m, framed, covers⟩

theorem mem_frames_iff_parsed {stream : List UInt8} {p n : Nat} :
    (p, n) ∈ rules.frames stream ↔ Parsed stream p ∧ FrameAt stream p n := by
  rw [parsed_iff_leftmost, ← Rules.mem_frames_iff_leftmost]
  constructor
  · intro found
    exact ⟨⟨n, found⟩, verdict_drop.mp (Rules.mem_frames found).1⟩
  · rintro ⟨⟨m, found⟩, frame⟩
    have same := (verdict_drop.mp (Rules.mem_frames found).1).widthAt
    rw [frame.widthAt] at same
    rwa [same]

/-- Feed the chunks in order into the zeroed statics. -/
def run (clock : Clock) (chunks : List (List UInt8)) : Accumulator UInt8 accumSize × Traced :=
  chunks.foldl (panelMirrorFeed clock) booted

/-- While no feed drops a byte, a run is one drain of its stream. -/
theorem run_fits (clock : Clock) {chunks : List (List UInt8)}
    (fits : Fits rules accumSize [] chunks) :
    (run clock chunks).1.len ≤ accumSize ∧
      ((run clock chunks).1.contents, (run clock chunks).2) =
        drainAll (matcher clock) chunks.flatten ⟨initial, []⟩ :=
  Accumulator.feeds_eq_drainAll (tryDecodeAtFront_local clock) (matcher_follows clock) chunks
    (by decide) (Nat.zero_le _) _ rfl fits

theorem fits_of_small {chunks : List (List UInt8)}
    (sizes : ∀ chunk ∈ chunks, 1 ≤ chunk.length ∧ chunk.length ≤ 78) :
    Fits rules accumSize [] chunks :=
  fits_of_bound 178 78 (by decide) residual_length chunks
    (fun chunk member => (sizes chunk member).2) [] rfl

theorem run_small (clock : Clock) {chunks : List (List UInt8)}
    (sizes : ∀ chunk ∈ chunks, 1 ≤ chunk.length ∧ chunk.length ≤ 78) :
    (run clock chunks).2.accepted = (rules.frames chunks.flatten).map
        (fun f => slice chunks.flatten f.1 f.2) ∧
      (run clock chunks).1.contents = rules.residual chunks.flatten ∧
      (run clock chunks).1.len = (rules.residual chunks.flatten).length := by
  obtain ⟨bounded, same⟩ := run_fits clock (fits_of_small sizes)
  obtain ⟨contents, traced⟩ := Prod.ext_iff.mp same
  dsimp only at contents traced
  rw [(matcher_follows clock).drainAll_residual] at contents
  refine ⟨?_, contents, ?_⟩
  · rw [traced, accepted_drain]
    rfl
  · rw [← Accumulator.length_contents bounded, contents]

/-- A complete candidate that is no frame: its header or its check sum fails. -/
def Fails (buffer : List UInt8) : Prop :=
  buffer.take 2 = [0x00, 0x10] ∧ 7 ≤ buffer.length ∧ buffer.take 7 ≠ header ∨
    buffer.take 7 = header ∧ 179 ≤ buffer.length ∧ ¬ ValidFc10 (buffer.take 179) ∨
    buffer.take 2 = [0x00, 0x06] ∧ 8 ≤ buffer.length ∧ ¬ ValidFc06 (buffer.take 8)

theorem verdict_fails {buffer : List UInt8} (fails : Fails buffer) : verdict buffer = .slip := by
  rcases fails with ⟨opens, seven, other⟩ | ⟨opens, long, invalid⟩ | ⟨opens, eight, invalid⟩
  · have fc10 := opensFc10_iff.mpr opens
    have broken : fullHeader buffer = false :=
      Bool.eq_false_iff.mpr fun full => other (fullHeader_iff.mp ⟨fc10, full⟩)
    rw [verdict, if_neg (by omega), if_pos fc10, if_neg (by omega), broken]
    rfl
  · obtain ⟨fc10, full⟩ := fullHeader_iff.mpr opens
    have check : ¬ crcOk (buffer.take fc10Len) fc10Len = true :=
      fun check => invalid (validFc10_iff.mpr ⟨opens, long, check⟩)
    rw [verdict, if_neg (by omega), if_pos fc10, if_neg (by omega), if_pos full, checked,
      if_neg (show ¬ buffer.length < fc10Len from Nat.not_lt.mpr long), if_neg check]
  · have fc06 := opensFc06_iff.mpr opens
    have other : ¬ opensFc10 buffer = true := by
      rw [opensFc10_iff, opens]
      decide
    have check : ¬ crcOk (buffer.take fc06Len) fc06Len = true :=
      fun check => invalid (validFc06_iff.mpr ⟨opens, eight, check⟩)
    rw [verdict, if_neg (by omega), if_neg other, if_pos fc06, checked,
      if_neg (show ¬ buffer.length < fc06Len from Nat.not_lt.mpr eight), if_neg check]

/-- A failed candidate costs one byte and touches nothing but the failure count. -/
theorem matcher_fails (clock : Clock) {buffer : List UInt8} (fails : Fails buffer) (s : Traced) :
    (matcher clock buffer s).1 = 1 ∧ (matcher clock buffer s).2.accepted = s.accepted ∧
      { (matcher clock buffer s).2.state with crcFailures := s.state.crcFailures } = s.state := by
  rw [matcher_slip clock s (verdict_fails fails)]
  refine ⟨rfl, ?_⟩
  simp only [slipOver]
  split
  · exact ⟨rfl, rfl⟩
  · exact ⟨rfl, rfl⟩

/-- The mirror frames the stream leftmost first. After `k` chunks the accepted
frames are, once each and in order, those of the parse of what has arrived; the
residual is a suffix of it with one of five shapes, so the next chunk never
makes the accumulator drop a byte; and a failed candidate costs one byte. -/
def FramesLeftmostFirst (clock : Clock) (chunks : List (List UInt8)) : Prop :=
  (∀ k ≤ chunks.length, ∃ P : List (Nat × Nat),
      P.Pairwise (fun f g => f.1 + f.2 ≤ g.1) ∧
      (∀ p n, (p, n) ∈ P ↔
        Parsed (chunks.take k).flatten p ∧ FrameAt (chunks.take k).flatten p n) ∧
      (run clock (chunks.take k)).2.accepted =
        P.map fun f => slice (chunks.take k).flatten f.1 f.2) ∧
  (∀ k ≤ chunks.length,
      (run clock (chunks.take k)).1.contents <:+ (chunks.take k).flatten ∧
      Residual (run clock (chunks.take k)).1.contents ∧
      (run clock (chunks.take k)).1.contents.length = (run clock (chunks.take k)).1.len ∧
      (run clock (chunks.take k)).1.len ≤ 178 ∧
      ∀ chunk ∈ chunks[k]?, (run clock (chunks.take k)).1.len + chunk.length ≤ accumSize) ∧
  ∀ buffer s, Fails buffer →
    (matcher clock buffer s).1 = 1 ∧ (matcher clock buffer s).2.accepted = s.accepted

theorem mirrors_leftmost_first (clock : Clock) (chunks : List (List UInt8))
    (sizes : ∀ chunk ∈ chunks, 1 ≤ chunk.length ∧ chunk.length ≤ 78) :
    FramesLeftmostFirst clock chunks := by
  have prefixes : ∀ k, ∀ chunk ∈ chunks.take k, 1 ≤ chunk.length ∧ chunk.length ≤ 78 :=
    fun k chunk member => sizes chunk (List.mem_of_mem_take member)
  refine ⟨?_, ?_, ?_⟩
  · intro k _
    exact ⟨rules.frames (chunks.take k).flatten, Rules.frames_ordered _,
      fun p n => mem_frames_iff_parsed, (run_small clock (prefixes k)).1⟩
  · intro k _
    obtain ⟨_, contents, len⟩ := run_small clock (prefixes k)
    have waits := Rules.residual_waits (r := rules) (chunks.take k).flatten
    have short := residual_length _ waits
    rw [← len] at short
    rw [contents]
    refine ⟨List.drop_suffix _ _, residual_of_wait waits, len.symm, short, ?_⟩
    intro chunk found
    have size := (sizes chunk (List.mem_of_getElem? found)).2
    exact (Nat.add_le_add short size).trans (by decide)
  · intro buffer s fails
    obtain ⟨consumed, accepted, _⟩ := matcher_fails clock fails s
    exact ⟨consumed, accepted⟩

end

/-- A counter write split in two behind a foreign byte. -/
theorem mirrors_leftmost_first_counter :
    FramesLeftmostFirst (fun _ => 0) [[0xFF, 0x00, 0x06, 0x00], [0x01, 0x00, 0x02, 0x58, 0x1A]] :=
  mirrors_leftmost_first _ _ (by decide)

end FlexitCs60.Mirror
