import FlexitCs60.Slave.Feed

/-! The slave's matcher follows framing rules: four two-byte anchors, one
eight-byte frame shape, one byte slipped on anything else. -/
namespace FlexitCs60.Slave
open Wire Framing

/-- The pairs `(addr, fc)` the matcher looks for. -/
def anchored (a b : UInt8) : Bool :=
  (a = slaveAddr ∧ (b = 0x01 ∨ b = 0x03 ∨ b = 0x04)) ∨ (a = 0x00 ∧ b = 0x65)

theorem anchored_iff {a b : UInt8} : anchored a b = true ↔
    (a = slaveAddr ∧ b = 0x01) ∨ (a = slaveAddr ∧ b = 0x03) ∨ (a = slaveAddr ∧ b = 0x04) ∨
      (a = 0x00 ∧ b = 0x65) := by
  simp only [anchored, decide_eq_true_eq]
  tauto

variable [Zephyr]

def verdict (buffer : List UInt8) : Verdict :=
  if buffer.length < 2 then .wait
  else if anchored (buffer.getD 0 0) (buffer.getD 1 0) then
    if buffer.length < fcReqLen then .wait
    else if crcOk (buffer.take fcReqLen) fcReqLen then .frame fcReqLen else .slip
  else .slip

theorem verdict_wait {buffer : List UInt8} (waiting : verdict buffer = .wait) :
    buffer.length < fcReqLen := by
  unfold verdict at waiting
  split at waiting
  · simp only [fcReqLen]
    omega
  · split at waiting
    · split at waiting
      · assumption
      · split at waiting <;> contradiction
    · contradiction

theorem verdict_frame {buffer : List UInt8} {width : Nat} (framed : verdict buffer = .frame width) :
    width = fcReqLen ∧ fcReqLen ≤ buffer.length := by
  unfold verdict at framed
  split at framed
  · contradiction
  · split at framed
    · split at framed
      · contradiction
      · split at framed
        · exact ⟨(Verdict.frame.inj framed).symm, by omega⟩
        · contradiction
    · contradiction

theorem verdict_append {buffer : List UInt8} (later : List UInt8)
    (decided : verdict buffer ≠ .wait) : verdict (buffer ++ later) = verdict buffer := by
  by_cases short : buffer.length < 2
  · exact absurd (by rw [verdict, if_pos short]) decided
  · have longer : ¬ (buffer ++ later).length < 2 := by
      rw [List.length_append]
      omega
    rw [verdict, verdict, if_neg short, if_neg longer, getD_append (by omega),
      getD_append (by omega)]
    split
    · rename_i anchor
      have room : ¬ buffer.length < fcReqLen := by
        intro small
        exact decided (by rw [verdict, if_neg short, if_pos anchor, if_pos small])
      have roomAfter : ¬ (buffer ++ later).length < fcReqLen := by
        rw [List.length_append]
        omega
      rw [if_neg room, if_neg roomAfter, List.take_append_of_le_length (by omega)]
    · rfl

/-- The matcher's rules. -/
def rules : Rules UInt8 where
  verdict := verdict
  empty := rfl
  positive := fun framed => by rw [(verdict_frame framed).1]; decide
  within := fun framed => by rw [(verdict_frame framed).1]; exact (verdict_frame framed).2
  final := verdict_append

/-- The handler a checked frame is given to. -/
def handleFrame (tx : Transmission) (uptime : UInt64) (frame : List UInt8) (s : State) :
    State × Option (List UInt8 × Int) :=
  let a := frame.getD 0 0
  let b := frame.getD 1 0
  if a = slaveAddr ∧ b = 0x01 then handleFc01Request tx frame s
  else if a = slaveAddr ∧ b = 0x03 then handleFc03Request tx frame s
  else if a = slaveAddr ∧ b = 0x04 then handleFc04Request tx frame s
  else (handleFc65Broadcast uptime frame s, none)

theorem attempt_congr {handle handle' : List UInt8 → State → State × Option (List UInt8 × Int)}
    {accum : List UInt8} (same : ∀ s, handle (accum.take fcReqLen) s = handle' (accum.take fcReqLen) s)
    (accumLen : Nat) (s : Traced) : attempt handle accum accumLen s = attempt handle' accum accumLen s := by
  unfold attempt
  simp only [same]

/-- The matcher in one line: the four arms are one attempt with the frame's own
handler. -/
theorem tryDecodeAtFront_eq (env : Env) (accum : List UInt8) (accumLen : Nat) (s : Traced) :
    tryDecodeAtFront env accum accumLen s =
      if accumLen < 2 then (0, s)
      else if anchored (accum.getD 0 0) (accum.getD 1 0) then
        attempt (handleFrame (env.tx s.handled.length) (env.uptime s.handled.length))
          accum accumLen s
      else (1, s) := by
  have first : (accum.take fcReqLen).getD 0 0 = accum.getD 0 0 := getD_take (by decide) _
  have second : (accum.take fcReqLen).getD 1 0 = accum.getD 1 0 := getD_take (by decide) _
  unfold tryDecodeAtFront
  by_cases short : accumLen < 2
  · rw [if_pos short, if_pos short]
  rw [if_neg short, if_neg short]
  dsimp only
  by_cases fc01 : accum.getD 0 0 = slaveAddr ∧ accum.getD 1 0 = 0x01
  · rw [if_pos fc01, if_pos (anchored_iff.mpr (by tauto))]
    exact attempt_congr (fun s => by simp only [handleFrame, first, second, if_pos fc01]) _ _
  rw [if_neg fc01]
  by_cases fc03 : accum.getD 0 0 = slaveAddr ∧ accum.getD 1 0 = 0x03
  · rw [if_pos fc03, if_pos (anchored_iff.mpr (by tauto))]
    exact attempt_congr (fun s => by
      simp only [handleFrame, first, second, if_neg fc01, if_pos fc03]) _ _
  rw [if_neg fc03]
  by_cases fc04 : accum.getD 0 0 = slaveAddr ∧ accum.getD 1 0 = 0x04
  · rw [if_pos fc04, if_pos (anchored_iff.mpr (by tauto))]
    exact attempt_congr (fun s => by
      simp only [handleFrame, first, second, if_neg fc01, if_neg fc03, if_pos fc04]) _ _
  rw [if_neg fc04]
  by_cases fc65 : accum.getD 0 0 = 0x00 ∧ accum.getD 1 0 = 0x65
  · rw [if_pos fc65, if_pos (anchored_iff.mpr (by tauto))]
    exact attempt_congr (fun s => by
      simp only [handleFrame, first, second, if_neg fc01, if_neg fc03, if_neg fc04]) _ _
  rw [if_neg fc65, if_neg (by rw [anchored_iff]; tauto)]

/-- The effect of an accepted frame. -/
def accept (env : Env) (frame : List UInt8) (s : Traced) : Traced :=
  let out := handleFrame (env.tx s.handled.length) (env.uptime s.handled.length) frame s.state
  ⟨out.1, s.handled ++ [⟨frame, out.2⟩]⟩

/-- The effect of a slipped byte: a candidate that fails its check is counted. -/
def slipOver (buffer : List UInt8) (s : Traced) : Traced :=
  if anchored (buffer.getD 0 0) (buffer.getD 1 0) then { s with state := bumpCrcFailure s.state }
  else s

/-- The matcher on the buffered bytes. -/
def matcher (env : Env) : List UInt8 → Traced → Nat × Traced :=
  Accumulator.onContents (tryDecodeAtFront env)

/-- Everything one turn of the matcher can do. -/
theorem matcher_eq (env : Env) (buffer : List UInt8) (s : Traced) :
    matcher env buffer s =
      match verdict buffer with
      | .wait => (0, s)
      | .slip => (1, slipOver buffer s)
      | .frame width => (width, accept env (buffer.take width) s) := by
  rw [matcher, Accumulator.onContents, tryDecodeAtFront_eq, verdict]
  by_cases short : buffer.length < 2
  · rw [if_pos short, if_pos short]
  rw [if_neg short, if_neg short]
  by_cases anchor : anchored (buffer.getD 0 0) (buffer.getD 1 0)
  · rw [if_pos anchor, if_pos anchor, attempt]
    by_cases small : buffer.length < fcReqLen
    · rw [if_pos small, if_pos small]
    rw [if_neg small, if_neg small]
    by_cases check : crcOk (buffer.take fcReqLen) fcReqLen
    · simp only [check, if_true, accept]
    · simp only [check, Bool.false_eq_true, if_false, slipOver, if_pos anchor]
  · rw [if_neg anchor, if_neg anchor]
    simp only [slipOver, if_neg anchor]

theorem matcher_wait (env : Env) {buffer : List UInt8} (s : Traced)
    (waiting : rules.verdict buffer = .wait) : matcher env buffer s = (0, s) := by
  rw [matcher_eq, show verdict buffer = .wait from waiting]

theorem matcher_frame (env : Env) {buffer : List UInt8} {width : Nat} (s : Traced)
    (framed : rules.verdict buffer = .frame width) :
    matcher env buffer s = (width, accept env (buffer.take width) s) := by
  rw [matcher_eq, show verdict buffer = .frame width from framed]

theorem matcher_slip (env : Env) {buffer : List UInt8} (s : Traced)
    (slipped : rules.verdict buffer = .slip) :
    matcher env buffer s = (1, slipOver buffer s) := by
  rw [matcher_eq, show verdict buffer = .slip from slipped]

theorem matcher_follows (env : Env) : Follows rules (matcher env) where
  consumed buffer s := by
    rw [matcher_eq]
    change _ = (verdict buffer).width
    cases verdict buffer <;> rfl
  idle := by
    intro buffer s waiting
    rw [matcher_wait env s waiting]
  reads := by
    intro buffer later s decided
    have same : verdict (buffer ++ later) = verdict buffer := verdict_append later decided
    rw [matcher_eq, matcher_eq, same]
    cases shape : verdict buffer with
    | wait => exact absurd shape decided
    | slip =>
      have long : 2 ≤ buffer.length := by
        by_contra short
        rw [verdict, if_pos (by omega)] at shape
        contradiction
      simp (disch := omega) only [slipOver, getD_append]
    | frame width =>
      obtain ⟨rfl, long⟩ := verdict_frame shape
      simp only [List.take_append_of_le_length long]

theorem tryDecodeAtFront_local (env : Env) : Accumulator.Local (tryDecodeAtFront env) := by
  intro cells len s bounded
  rw [tryDecodeAtFront_eq, tryDecodeAtFront_eq]
  by_cases short : len < 2
  · rw [if_pos short, if_pos short]
  rw [if_neg short, if_neg short, getD_take (show 0 < len by omega) cells,
    getD_take (show 1 < len by omega) cells]
  split
  · unfold attempt
    split
    · rfl
    · rw [List.take_take, min_eq_left (by omega)]
  · rfl

/-- A residual holds at most an unfinished candidate. -/
theorem residual_length (buffer : List UInt8) (waiting : rules.verdict buffer = .wait) :
    buffer.length ≤ 7 :=
  Nat.le_of_lt_succ (verdict_wait waiting)

/-- The frames handled so far. -/
def handledFrames (s : Traced) : List (List UInt8) := s.handled.map Handled.frame

theorem handledFrames_accept (env : Env) (buffer : List UInt8) (s : Traced) (width : Nat)
    (framed : rules.verdict buffer = .frame width) :
    handledFrames (matcher env buffer s).2 = handledFrames s ++ [buffer.take width] := by
  rw [matcher_frame env s framed]
  simp [handledFrames, accept]

theorem handledFrames_slip (env : Env) (buffer : List UInt8) (s : Traced)
    (slipped : rules.verdict buffer = .slip) :
    handledFrames (matcher env buffer s).2 = handledFrames s := by
  rw [matcher_slip env s slipped]
  simp only [slipOver]
  split <;> rfl

theorem handledFrames_drain (env : Env) (buffer : List UInt8) (s : Traced) :
    handledFrames (drainAll (matcher env) buffer s).2 =
      handledFrames s ++ (rules.frames buffer).map fun f => (buffer.drop f.1).take f.2 :=
  (matcher_follows env).drainAll_log handledFrames (handledFrames_accept env)
    (handledFrames_slip env) buffer s

end FlexitCs60.Slave
