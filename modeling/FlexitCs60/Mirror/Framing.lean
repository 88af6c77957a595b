import FlexitCs60.Mirror.Feed

/-! The mirror's matcher follows framing rules: a long frame committed to by a
seven-byte header, a short one by two bytes, one byte slipped on anything else. -/
namespace FlexitCs60.Mirror
open Wire Framing

/-- The first two bytes are `00 10`. -/
def opensFc10 (buffer : List UInt8) : Bool := buffer.getD 0 0 = 0x00 ∧ buffer.getD 1 0 = 0x10

/-- The first two bytes are `00 06`. -/
def opensFc06 (buffer : List UInt8) : Bool := buffer.getD 0 0 = 0x00 ∧ buffer.getD 1 0 = 0x06

/-- The bytes behind `00 10` complete the header of a status block. -/
def fullHeader (buffer : List UInt8) : Bool :=
  buffer.getD 2 0 = 0x00 ∧ buffer.getD 3 0 = 0xBE ∧ buffer.getD 4 0 = 0x00 ∧
    buffer.getD 5 0 = 0x55 ∧ buffer.getD 6 0 = 0xAA

theorem opensFc10_append {buffer : List UInt8} (long : 2 ≤ buffer.length) (later : List UInt8) :
    opensFc10 (buffer ++ later) = opensFc10 buffer := by
  rw [opensFc10, opensFc10, getD_append (by omega), getD_append (by omega)]

theorem opensFc06_append {buffer : List UInt8} (long : 2 ≤ buffer.length) (later : List UInt8) :
    opensFc06 (buffer ++ later) = opensFc06 buffer := by
  rw [opensFc06, opensFc06, getD_append (by omega), getD_append (by omega)]

theorem fullHeader_append {buffer : List UInt8} (long : 7 ≤ buffer.length) (later : List UInt8) :
    fullHeader (buffer ++ later) = fullHeader buffer := by
  simp (disch := omega) only [fullHeader, getD_append]

theorem opensFc06_of_opensFc10 {buffer : List UInt8} (fc10 : opensFc10 buffer = true) :
    opensFc06 buffer = false := by
  simp only [opensFc10, decide_eq_true_eq] at fc10
  simp only [opensFc06, fc10, decide_eq_false_iff_not]
  decide

variable [Zephyr]

/-- What a buffered frame of the given length decides. -/
def checked (len : Nat) (buffer : List UInt8) : Verdict :=
  if buffer.length < len then .wait
  else if crcOk (buffer.take len) len then .frame len else .slip

def verdict (buffer : List UInt8) : Verdict :=
  if buffer.length < 2 then .wait
  else if opensFc10 buffer then
    if buffer.length < 7 then .wait
    else if fullHeader buffer then checked fc10Len buffer
    else .slip
  else if opensFc06 buffer then checked fc06Len buffer
  else .slip

theorem checked_wait {len : Nat} {buffer : List UInt8} :
    checked len buffer = .wait ↔ buffer.length < len := by
  unfold checked
  split
  · simp [*]
  · split <;> simp [*]

theorem checked_frame {len width : Nat} {buffer : List UInt8} :
    checked len buffer = .frame width ↔
      width = len ∧ len ≤ buffer.length ∧ crcOk (buffer.take len) len = true := by
  unfold checked
  split
  · simp only [reduceCtorEq, false_iff]
    omega
  · split
    · simp only [Verdict.frame.injEq]
      exact ⟨fun same => ⟨same.symm, by omega, ‹_›⟩, fun h => h.1.symm⟩
    · simp [*]

theorem checked_append {len : Nat} {buffer : List UInt8} (long : len ≤ buffer.length)
    (later : List UInt8) : checked len (buffer ++ later) = checked len buffer := by
  have longer : len ≤ (buffer ++ later).length := by
    rw [List.length_append]
    omega
  rw [checked, checked, if_neg (Nat.not_lt.mpr longer), if_neg (Nat.not_lt.mpr long),
    List.take_append_of_le_length long]

/-- The buffers that wait, by the anchor they wait for. -/
theorem verdict_wait {buffer : List UInt8} : verdict buffer = .wait ↔
    buffer.length < 2 ∨ opensFc10 buffer = true ∧ buffer.length < 7 ∨
      opensFc10 buffer = true ∧ fullHeader buffer = true ∧ buffer.length < fc10Len ∨
      opensFc10 buffer = false ∧ opensFc06 buffer = true ∧ buffer.length < fc06Len := by
  unfold verdict
  by_cases short : buffer.length < 2
  · simp [short]
  cases opensFc10 buffer
  · cases opensFc06 buffer <;> simp [short, checked_wait]
  · by_cases small : buffer.length < 7
    · simp [short, small]
    · cases fullHeader buffer <;> simp [short, small, checked_wait]

theorem verdict_frame {buffer : List UInt8} {width : Nat} : verdict buffer = .frame width ↔
    opensFc10 buffer = true ∧ fullHeader buffer = true ∧ checked fc10Len buffer = .frame width ∨
      opensFc10 buffer = false ∧ opensFc06 buffer = true ∧
        checked fc06Len buffer = .frame width := by
  unfold verdict
  by_cases short : buffer.length < 2
  · have small : buffer.length < fc06Len ∧ buffer.length < fc10Len := by
      simp only [fc06Len, fc10Len]
      omega
    simp [short, checked_wait.mpr small.1, checked_wait.mpr small.2]
  cases opensFc10 buffer
  · cases opensFc06 buffer <;> simp [short]
  · by_cases small : buffer.length < 7
    · have : buffer.length < fc10Len := by
        simp only [fc10Len]
        omega
      simp [short, small, checked_wait.mpr this]
    · cases fullHeader buffer <;> simp [short, small]

theorem verdict_append {buffer : List UInt8} (later : List UInt8)
    (decided : verdict buffer ≠ .wait) : verdict (buffer ++ later) = verdict buffer := by
  have open' := mt verdict_wait.mpr decided
  simp only [not_or, not_and, not_lt] at open'
  obtain ⟨two, seven, long, short⟩ := open'
  have longer : buffer.length ≤ (buffer ++ later).length := by simp
  rw [verdict, verdict, if_neg (Nat.not_lt.mpr two), if_neg (Nat.not_lt.mpr (two.trans longer)),
    opensFc10_append two, opensFc06_append two]
  cases fc10 : opensFc10 buffer
  · cases fc06 : opensFc06 buffer
    · rfl
    · exact checked_append (short fc10 fc06) later
  · have seven := seven fc10
    rw [if_pos rfl, if_pos rfl, if_neg (Nat.not_lt.mpr seven),
      if_neg (Nat.not_lt.mpr (seven.trans longer)), fullHeader_append seven]
    cases header : fullHeader buffer
    · rfl
    · exact checked_append (long fc10 header) later

/-- The matcher's rules. -/
def rules : Rules UInt8 where
  verdict := verdict
  empty := rfl
  positive := by
    intro buffer width framed
    obtain ⟨_, _, framed⟩ | ⟨_, _, framed⟩ := verdict_frame.mp framed <;>
      rw [(checked_frame.mp framed).1] <;> decide
  within := by
    intro buffer width framed
    obtain ⟨_, _, framed⟩ | ⟨_, _, framed⟩ := verdict_frame.mp framed <;>
      rw [(checked_frame.mp framed).1] <;> exact (checked_frame.mp framed).2.1
  final := verdict_append

/-- The decoder a checked frame is given to. -/
def decodeFrame (uptime : UInt64) (frame : List UInt8) (s : State) : State :=
  if opensFc10 frame then (tryDecodeFc10 uptime frame s).2 else (tryDecodeFc06 uptime frame s).2

/-- The effect of an accepted frame. -/
def accept (clock : Clock) (frame : List UInt8) (s : Traced) : Traced :=
  ⟨decodeFrame (clock s.accepted.length) frame s.state, s.accepted ++ [frame]⟩

/-- The effect of a slipped byte: a candidate that fails its check is counted. -/
def slipOver (buffer : List UInt8) (s : Traced) : Traced :=
  if opensFc10 buffer && fullHeader buffer || opensFc06 buffer then
    { s with state := bumpCrcFailure s.state }
  else s

/-- The matcher on the buffered bytes. -/
def matcher (clock : Clock) : List UInt8 → Traced → Nat × Traced :=
  Accumulator.onContents (tryDecodeAtFront clock)

theorem tryDecodeFc10_gate (uptime : UInt64) (frame : List UInt8) (s : State) :
    (tryDecodeFc10 uptime frame s).1 = crcOk frame fc10Len ∧
      (crcOk frame fc10Len = false → (tryDecodeFc10 uptime frame s).2 = s) := by
  unfold tryDecodeFc10
  cases crcOk frame fc10Len <;> simp

theorem tryDecodeFc06_gate (uptime : UInt64) (frame : List UInt8) (s : State) :
    (tryDecodeFc06 uptime frame s).1 = crcOk frame fc06Len ∧
      (crcOk frame fc06Len = false → (tryDecodeFc06 uptime frame s).2 = s) := by
  unfold tryDecodeFc06
  cases crcOk frame fc06Len <;> simp

/-- One arm of the matcher, for a decoder that gates on the check sum. -/
theorem settle_eq {decoder : List UInt8 → State → Bool × State} {len : Nat} {frame : List UInt8}
    {accum : List UInt8} (front : accum.take len = frame) (s : Traced)
    (gate : (decoder frame s.state).1 = crcOk frame len ∧
      (crcOk frame len = false → (decoder frame s.state).2 = s.state)) :
    settle decoder len accum s =
      if crcOk frame len then (len, ⟨(decoder frame s.state).2, s.accepted ++ [frame]⟩)
      else (1, { s with state := bumpCrcFailure s.state }) := by
  obtain ⟨ok, same⟩ := gate
  simp only [settle, front, ok]
  split
  · rfl
  · rw [same (Bool.eq_false_iff.mpr ‹_›)]

/-- The matcher with its byte tests named. -/
theorem tryDecodeAtFront_eq (clock : Clock) (accum : List UInt8) (accumLen : Nat) (s : Traced) :
    tryDecodeAtFront clock accum accumLen s =
      if accumLen < 2 then (0, s)
      else if opensFc10 accum then
        if accumLen < 7 then (0, s)
        else if fullHeader accum then
          if accumLen < fc10Len then (0, s)
          else settle (tryDecodeFc10 (clock s.accepted.length)) fc10Len accum s
        else (1, s)
      else if opensFc06 accum then
        if accumLen < fc06Len then (0, s)
        else settle (tryDecodeFc06 (clock s.accepted.length)) fc06Len accum s
      else (1, s) := by
  simp only [tryDecodeAtFront, opensFc10, opensFc06, fullHeader, decide_eq_true_eq]

omit [Zephyr] in
theorem opensFc10_take {n : Nat} (two : 2 ≤ n) (buffer : List UInt8) :
    opensFc10 (buffer.take n) = opensFc10 buffer := by
  rw [opensFc10, opensFc10, getD_take (by omega), getD_take (by omega)]

omit [Zephyr] in
theorem opensFc06_take {n : Nat} (two : 2 ≤ n) (buffer : List UInt8) :
    opensFc06 (buffer.take n) = opensFc06 buffer := by
  rw [opensFc06, opensFc06, getD_take (by omega), getD_take (by omega)]

omit [Zephyr] in
theorem fullHeader_take {n : Nat} (seven : 7 ≤ n) (buffer : List UInt8) :
    fullHeader (buffer.take n) = fullHeader buffer := by
  simp (disch := omega) only [fullHeader, getD_take]

/-- Everything one turn of the matcher can do. -/
theorem matcher_eq (clock : Clock) (buffer : List UInt8) (s : Traced) :
    matcher clock buffer s =
      match verdict buffer with
      | .wait => (0, s)
      | .slip => (1, slipOver buffer s)
      | .frame width => (width, accept clock (buffer.take width) s) := by
  rw [matcher, Accumulator.onContents, tryDecodeAtFront_eq, verdict]
  by_cases short : buffer.length < 2
  · rw [if_pos short, if_pos short]
  rw [if_neg short, if_neg short]
  cases fc10 : opensFc10 buffer
  · cases fc06 : opensFc06 buffer
    · simp [slipOver, fc10, fc06]
    · have first : opensFc10 (buffer.take fc06Len) = false := by
        rw [opensFc10_take (by decide), fc10]
      simp only [Bool.false_eq_true, if_false, if_true, checked]
      by_cases small : buffer.length < fc06Len
      · rw [if_pos small, if_pos small]
      rw [if_neg small, if_neg small, settle_eq rfl s (tryDecodeFc06_gate _ _ _)]
      cases crcOk (buffer.take fc06Len) fc06Len
      · simp [slipOver, fc06]
      · simp [accept, decodeFrame, first]
  · have first : opensFc10 (buffer.take fc10Len) = true := by
      rw [opensFc10_take (by decide), fc10]
    simp only [if_true]
    by_cases small : buffer.length < 7
    · rw [if_pos small, if_pos small]
    rw [if_neg small, if_neg small]
    cases header : fullHeader buffer
    · have other : opensFc06 buffer = false := opensFc06_of_opensFc10 fc10
      simp [slipOver, header, other]
    · simp only [if_true, checked]
      by_cases small : buffer.length < fc10Len
      · rw [if_pos small, if_pos small]
      rw [if_neg small, if_neg small, settle_eq rfl s (tryDecodeFc10_gate _ _ _)]
      cases crcOk (buffer.take fc10Len) fc10Len
      · simp [slipOver, fc10, header]
      · simp [accept, decodeFrame, first]

theorem matcher_wait (clock : Clock) {buffer : List UInt8} (s : Traced)
    (waiting : rules.verdict buffer = .wait) : matcher clock buffer s = (0, s) := by
  rw [matcher_eq, show verdict buffer = .wait from waiting]

theorem matcher_frame (clock : Clock) {buffer : List UInt8} {width : Nat} (s : Traced)
    (framed : rules.verdict buffer = .frame width) :
    matcher clock buffer s = (width, accept clock (buffer.take width) s) := by
  rw [matcher_eq, show verdict buffer = .frame width from framed]

theorem matcher_slip (clock : Clock) {buffer : List UInt8} (s : Traced)
    (slipped : rules.verdict buffer = .slip) :
    matcher clock buffer s = (1, slipOver buffer s) := by
  rw [matcher_eq, show verdict buffer = .slip from slipped]

theorem matcher_follows (clock : Clock) : Follows rules (matcher clock) where
  consumed buffer s := by
    rw [matcher_eq]
    change _ = (verdict buffer).width
    cases verdict buffer <;> rfl
  idle := by
    intro buffer s waiting
    rw [matcher_wait clock s waiting]
  reads := by
    intro buffer later s decided
    have same : verdict (buffer ++ later) = verdict buffer := verdict_append later decided
    have open' := mt verdict_wait.mpr decided
    simp only [not_or, not_and, not_lt] at open'
    obtain ⟨two, seven, _⟩ := open'
    rw [matcher_eq, matcher_eq, same]
    cases shape : verdict buffer with
    | wait => exact absurd shape decided
    | slip =>
      simp only [slipOver, opensFc10_append two, opensFc06_append two]
      cases fc10 : opensFc10 buffer
      · rfl
      · rw [fullHeader_append (seven fc10)]
    | frame width =>
      have inside : width ≤ buffer.length := rules.within shape
      simp only [List.take_append_of_le_length inside]

theorem tryDecodeAtFront_local (clock : Clock) : Accumulator.Local (tryDecodeAtFront clock) := by
  intro cells len s bounded
  rw [tryDecodeAtFront_eq, tryDecodeAtFront_eq]
  by_cases short : len < 2
  · rw [if_pos short, if_pos short]
  have window : ∀ (decoder : List UInt8 → State → Bool × State) {n}, n ≤ len →
      settle decoder n cells s = settle decoder n (cells.take len) s := by
    intro decoder n inside
    unfold settle
    rw [List.take_take, min_eq_left inside]
  rw [if_neg short, if_neg short, opensFc10_take (by omega), opensFc06_take (by omega)]
  split
  · by_cases small : len < 7
    · rw [if_pos small, if_pos small]
    rw [if_neg small, if_neg small, fullHeader_take (by omega)]
    split
    · split
      · rfl
      · exact window _ (by omega)
    · rfl
  · split
    · split
      · rfl
      · exact window _ (by omega)
    · rfl

theorem accepted_accept (clock : Clock) (buffer : List UInt8) (s : Traced) (width : Nat)
    (framed : rules.verdict buffer = .frame width) :
    (matcher clock buffer s).2.accepted = s.accepted ++ [buffer.take width] := by
  rw [matcher_frame clock s framed]
  rfl

theorem accepted_slip (clock : Clock) (buffer : List UInt8) (s : Traced)
    (slipped : rules.verdict buffer = .slip) :
    (matcher clock buffer s).2.accepted = s.accepted := by
  rw [matcher_slip clock s slipped]
  simp only [slipOver]
  split <;> rfl

theorem accepted_drain (clock : Clock) (buffer : List UInt8) (s : Traced) :
    (drainAll (matcher clock) buffer s).2.accepted =
      s.accepted ++ (rules.frames buffer).map fun f => (buffer.drop f.1).take f.2 :=
  (matcher_follows clock).drainAll_log Traced.accepted (accepted_accept clock)
    (accepted_slip clock) buffer s

/-- A residual holds at most an unfinished status block. -/
theorem residual_length (buffer : List UInt8) (waiting : rules.verdict buffer = .wait) :
    buffer.length ≤ 178 := by
  have shape := verdict_wait.mp waiting
  simp only [fc10Len, fc06Len] at shape
  omega

end FlexitCs60.Mirror
