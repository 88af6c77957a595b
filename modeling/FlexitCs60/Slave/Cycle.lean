import FlexitCs60.Slave.Commands
import FlexitCs60.System.Labelled

/-! The command cycle between the slave and the CS60, which polls for raised coils,
reads the register of each, and acknowledges a mode with a broadcast. -/
namespace FlexitCs60.Slave.Cycle
open Wire Framing Labelled
open Commands (Slot covers acknowledges answeredWord)

/-- Where the CS60 is in its cycle, with the raised slots it has still to read. -/
inductive Cs60 where
  | idle
  | serving (slots : List Slot)
  /-- A mode was read, and its broadcast is due. -/
  | acking (mode : UInt16) (slots : List Slot)
  deriving DecidableEq, Repr

structure System where
  slave : Accumulator UInt8 accumSize × Traced
  cs60 : Cs60
  /-- The accepted queue calls. -/
  queued : List (Slot × UInt16)
  /-- The values the CS60 has taken over. -/
  adopted : List (Slot × UInt16)

inductive Act where
  | queueMode (mode : UInt16)
  | queueSetpoint (valueX10 : UInt16)
  | poll
  | read
  | ack
  | finish
  /-- Any other frame for the slave. -/
  | other (frame : List UInt8)

/-- The actions that are not queue calls. -/
def Act.OfCs60 : Act → Prop
  | .queueMode _ | .queueSetpoint _ => False
  | _ => True

def ofSlot (slot : Slot) (calls : List (Slot × UInt16)) : List UInt16 :=
  (calls.filter (·.1 = slot)).map (·.2)

/-- Read coils 0 to 331, as the CS60 does. -/
def pollRequest [Zephyr] : List UInt8 := request 0x01 0x0000 0x014C

def readRequest [Zephyr] (slot : Slot) : List UInt8 := request 0x03 (.ofNat slot.index) 0x0001

def ackBroadcast [Zephyr] (mode : UInt16) : List UInt8 :=
  stampCrc ([0x00, 0x65] ++ putBe16 0x0000 ++ putBe16 mode)

namespace System

def state (s : System) : State := s.slave.2.state

/-- The response to the frame handled last, if it was transmitted. -/
def answer (s : System) : Option (List UInt8) :=
  match s.slave.2.handled.getLast?.bind Handled.reply with
  | some (resp, err) => if err = 0 then some resp else none
  | none => none

def hears [Zephyr] (env : Env) (frame : List UInt8) (s : System) : System :=
  { s with slave := flexitSlaveFeed env s.slave frame }

/-- A queue call, noted if it is accepted. -/
def queue (slot : Slot) (value : UInt16) (call : State → Int × State) (s : System) : System :=
  let out := call s.state
  { s with
    slave := (s.slave.1, { s.slave.2 with state := out.2 })
    queued := if out.1 = 0 then s.queued ++ [(slot, value)] else s.queued }

/-- The CS60 takes over what it has read. -/
def adopt (slot : Slot) (value : UInt16) (rest : List Slot) (s : System) : System :=
  { s with
    cs60 := if slot = .mode then .acking value rest else .serving rest
    adopted := s.adopted ++ [(slot, value)] }

end System

def boot (cells : Vector UInt8 accumSize) : System := ⟨booted cells, .idle, [], []⟩

/-- The slots whose coil is up in a response to the poll, in any order. -/
def Raised (resp : List UInt8) (slots : List Slot) : Prop :=
  slots.Nodup ∧ ∀ slot, slot ∈ slots ↔ payloadBit (resp.drop 3) slot.index = true

section
variable [Zephyr]

/-- A request that is not answered is not repeated before the next poll. -/
inductive Step (env : Env) (s : System) : Act → System → Prop where
  | queueMode (mode : UInt16) :
      Step env s (.queueMode mode) (s.queue .mode mode (flexitSlaveQueueMode mode))
  | queueSetpoint (valueX10 : UInt16) : Step env s (.queueSetpoint valueX10)
      (s.queue .setpoint valueX10 (flexitSlaveQueueSetpoint valueX10))
  | poll {resp : List UInt8} {slots : List Slot} : s.cs60 = .idle →
      (s.hears env pollRequest).answer = some resp → Raised resp slots →
      Step env s .poll { s.hears env pollRequest with cs60 := .serving slots }
  | pollLost : s.cs60 = .idle → (s.hears env pollRequest).answer = none →
      Step env s .poll (s.hears env pollRequest)
  | read {slot : Slot} {rest : List Slot} {resp : List UInt8} : s.cs60 = .serving (slot :: rest) →
      (s.hears env (readRequest slot)).answer = some resp →
      Step env s .read ((s.hears env (readRequest slot)).adopt slot
        (answeredWord (readRequest slot) resp slot) rest)
  | readLost {slot : Slot} {rest : List Slot} : s.cs60 = .serving (slot :: rest) →
      (s.hears env (readRequest slot)).answer = none →
      Step env s .read { s.hears env (readRequest slot) with cs60 := .serving rest }
  | ack {mode : UInt16} {rest : List Slot} : s.cs60 = .acking mode rest →
      Step env s .ack { s.hears env (ackBroadcast mode) with cs60 := .serving rest }
  | finish : s.cs60 = .serving [] → Step env s .finish { s with cs60 := .idle }
  | other {frame : List UInt8} : ValidWindow frame →
      (∀ slot reply, covers ⟨frame, reply⟩ slot = false ∧
        acknowledges ⟨frame, reply⟩ slot = false) →
      Step env s (.other frame) (s.hears env frame)

abbrev Run (env : Env) := Labelled.Run (Step env)

/-- No mode is queued between its read and its acknowledgement, and the read of a
setpoint is answered. -/
def Clean (env : Env) (s : System) : Act → Prop
  | .queueMode _ => ∀ mode rest, s.cs60 ≠ .acking mode rest
  | .read => ∀ rest, s.cs60 = .serving (.setpoint :: rest) →
      (env.tx s.slave.2.handled.length).Sends
  | _ => True

/-! What each frame does to the two slots. -/

omit [Zephyr] in
theorem slot_inside (slot : Slot) : slot.index.val < regCount := slot.index.isLt

/-- The register of a slot. -/
def held (slot : Slot) (s : State) : UInt16 := getElem s.regs slot.index (slot_inside slot)

namespace System

def coil (slot : Slot) (s : System) : Bool := s.state.coils.test slot.index

def reg (slot : Slot) (s : System) : UInt16 := held slot s.state

end System

/-- Frames come in whole, and leave nothing behind. -/
theorem hears_window (env : Env) {s : System} (empty : s.slave.1.len = 0) {frame : List UInt8}
    (valid : ValidWindow frame) : (s.hears env frame).slave.1.len = 0 ∧
      (s.hears env frame).slave.2 = accept env frame s.slave.2 :=
  feed_window env empty valid s.slave.2

theorem hears_state (env : Env) {s : System} (empty : s.slave.1.len = 0) {frame : List UInt8}
    (valid : ValidWindow frame) : (s.hears env frame).state =
      (handleFrame (env.tx s.slave.2.handled.length) (env.uptime s.slave.2.handled.length) frame
        s.state).1 := by
  rw [System.state, (hears_window env empty valid).2]
  rfl

/-- A read request gets its response if it can be transmitted. -/
theorem hears_answer (env : Env) {s : System} (empty : s.slave.1.len = 0) {fc : UInt8}
    (known : fc ∈ [(0x01 : UInt8), 0x03, 0x04]) (start qty : UInt16) :
    (s.hears env (request fc start qty)).answer = (response fc start qty s.state).filter fun resp =>
      (rs485UartSend (env.tx s.slave.2.handled.length) resp).1 = 0 := by
  obtain ⟨serviced, handled⟩ := handleFrame_request known start qty
    (env.tx s.slave.2.handled.length) (env.uptime s.slave.2.handled.length) s.state
  have reply : (accept env (request fc start qty) s.slave.2).handled.getLast?.bind Handled.reply =
      (response fc start qty s.state).map fun resp =>
        (resp, (rs485UartSend (env.tx s.slave.2.handled.length) resp).1) := by
    rw [accept, List.getLast?_concat, Option.bind_some, ← respond_reply _ serviced]
    exact congrArg Prod.snd handled
  rw [System.answer, (hears_window env empty (request_valid known start qty)).2, reply]
  cases response fc start qty s.state with
  | none => rfl
  | some resp => simp [Option.filter]

theorem answered_of_sends (env : Env) {s : System} (empty : s.slave.1.len = 0) {fc : UInt8}
    (known : fc ∈ [(0x01 : UInt8), 0x03, 0x04]) {start qty : UInt16}
    (served : Servable fc start.toNat qty.toNat) (sends : (env.tx s.slave.2.handled.length).Sends) :
    (s.hears env (request fc start qty)).answer ≠ none := by
  obtain ⟨resp, built⟩ := Option.isSome_iff_exists.mp
    ((response_isSome known start qty s.state).mpr served)
  obtain ⟨bc, payload, shape, _⟩ := response_answers known start qty s.state resp built
  have sent : (rs485UartSend (env.tx s.slave.2.handled.length) resp).1 = 0 :=
    (rs485UartSend_eq_zero _ _).mpr ⟨by simp [shape, stampCrc], sends⟩
  rw [hears_answer env empty known, built]
  simp [Option.filter, sent]

omit [Zephyr] in
theorem poll_servable : Servable 0x01 (0x0000 : UInt16).toNat (0x014C : UInt16).toNat :=
  .inl (by decide)

omit [Zephyr] in
theorem read_servable (slot : Slot) :
    Servable 0x03 (UInt16.ofNat slot.index).toNat (0x0001 : UInt16).toNat := by
  cases slot <;> exact .inr (.inl (by decide))

/-- A poll changes no command data, and shows the coils. -/
theorem hears_poll (env : Env) {s : System} (empty : s.slave.1.len = 0) :
    uncounted (s.hears env pollRequest).state = uncounted s.state ∧
      ∀ resp ∈ (s.hears env pollRequest).answer, ∀ slot : Slot,
        payloadBit (resp.drop 3) slot.index = s.coil slot := by
  have known : (0x01 : UInt8) ∈ [(0x01 : UInt8), 0x03, 0x04] := by decide
  refine ⟨?_, fun resp answered slot => ?_⟩
  · rw [pollRequest, hears_state env empty (request_valid known 0x0000 0x014C)]
    exact handleFc01Request_uncounted ..
  · have built : resp ∈ response 0x01 0x0000 0x014C s.state := by
      rw [pollRequest, hears_answer env empty known] at answered
      exact (Option.mem_filter_iff.mp answered).1
    obtain ⟨bc, payload, shape, _, _, _, reads⟩ := response_answers known _ _ s.state resp built
    obtain ⟨size, bits⟩ := reads.coils rfl
    have length : payload.length = 42 := size
    have inside : slot.index.val < 16 := slot.index.isLt
    have first : payloadBit (resp.drop 3) slot.index = payloadBit payload slot.index := by
      have skip : resp.drop 3 = payload ++ putLe16 (crc16Ansi ([0x01, 0x01, bc] ++ payload)) := by
        rw [shape, stampCrc, List.append_assoc]
        rfl
      rw [skip, payloadBit, payloadBit, getD_append (by omega)]
    rw [first, bits _ (by omega)]
    have wanted : slot.index.val < (0x014C : UInt16).toNat := Nat.lt_trans inside (by decide)
    have start : (0x0000 : UInt16).toNat + slot.index.val = slot.index.val := Nat.zero_add _
    rw [decide_eq_true wanted, Bool.true_and, start, coilAt, dif_pos inside]
    rfl

theorem readRequest_covers (slot : Slot) (reply : Option (List UInt8 × Int)) :
    covers ⟨readRequest slot, reply⟩ slot = true := by
  have addr : getBe16 ((readRequest slot).drop 2) = .ofNat slot.index := getBe16_putBe16 _ _
  have count : getBe16 ((readRequest slot).drop 4) = 0x0001 := getBe16_putBe16 _ _
  refine decide_eq_true ⟨rfl, rfl, ?_⟩
  dsimp only
  rw [addr, count]
  cases slot <;> decide

/-- A read takes the coil of a setpoint down, and shows the register. -/
theorem hears_read (env : Env) {s : System} (empty : s.slave.1.len = 0) (slot : Slot) :
    uncounted (s.hears env (readRequest slot)).state =
        (if slot = .setpoint ∧ s.coil .setpoint = true then
          { uncounted s.state with coils := s.state.coils.lower cmdSetpointAddr }
        else uncounted s.state) ∧
      ∀ resp ∈ (s.hears env (readRequest slot)).answer,
        answeredWord (readRequest slot) resp slot = s.reg slot := by
  have known : (0x03 : UInt8) ∈ [(0x01 : UInt8), 0x03, 0x04] := by decide
  have valid : ValidWindow (readRequest slot) := request_valid known _ _
  have handled : handleFrame (env.tx s.slave.2.handled.length) (env.uptime s.slave.2.handled.length)
      (readRequest slot) s.state = handleFc03Request _ (readRequest slot) s.state :=
    Commands.handleFrame_covered (readRequest_covers slot none)
  obtain ⟨serviced, responds⟩ := handleFrame_request known (.ofNat slot.index) 0x0001
    (env.tx s.slave.2.handled.length) (env.uptime s.slave.2.handled.length) s.state
  obtain ⟨resp, built⟩ := Option.isSome_iff_exists.mp
    ((response_isSome known (.ofNat slot.index) 0x0001 s.state).mpr (read_servable slot))
  have reply : (handleFc03Request (env.tx s.slave.2.handled.length) (readRequest slot) s.state).2 =
      some (resp, (rs485UartSend (env.tx s.slave.2.handled.length) resp).1) := by
    rw [← handled]
    change (handleFrame _ _ (request 0x03 _ _) _).2 = _
    rw [responds, respond_reply, built]
    rfl
  constructor
  · have addr : getBe16 ((readRequest slot).drop 2) = .ofNat slot.index := getBe16_putBe16 _ _
    have count : getBe16 ((readRequest slot).drop 4) = 0x0001 := getBe16_putBe16 _ _
    rw [hears_state env empty valid, handled, handleFc03Request_uncounted, reply, addr, count]
    have taken : readsSetpoint (.ofNat slot.index) 0x0001 s.state = true ↔
        slot = .setpoint ∧ s.coil .setpoint = true := by
      rw [readsSetpoint_iff]
      cases slot with
      | mode => exact iff_of_false (fun taken => absurd taken.2.1 (by decide)) (by simp)
      | setpoint => exact ⟨fun h => ⟨rfl, h.2.2⟩, fun h => ⟨by decide, by decide, h.2⟩⟩
    simp only [Option.isSome_some, true_and, taken]
  · intro resp' answered
    rw [readRequest, hears_answer env empty known, built] at answered
    obtain ⟨same, -⟩ := Option.mem_filter_iff.mp answered
    obtain rfl := Option.mem_some.mp same
    exact Commands.fc03_answeredWord (readRequest_covers slot _) reply

theorem ackBroadcast_valid (mode : UInt16) : ValidWindow (ackBroadcast mode) :=
  ⟨_, _, _, _, _, _, _, _, rfl, by decide, rfl⟩

/-- The acknowledgement of a mode leaves the setpoint alone. -/
theorem hears_ack (env : Env) {s : System} (empty : s.slave.1.len = 0) (mode : UInt16) :
    (s.hears env (ackBroadcast mode)).coil .mode = false ∧
      (s.hears env (ackBroadcast mode)).coil .setpoint = s.coil .setpoint ∧
      (s.hears env (ackBroadcast mode)).reg .setpoint = s.reg .setpoint ∧
      (s.hears env (ackBroadcast mode)).state.lastAckedMode = mode := by
  have addr : getBe16 ((ackBroadcast mode).drop 2) = 0x0000 := getBe16_putBe16 _ _
  have value : getBe16 ((ackBroadcast mode).drop 4) = mode := getBe16_putBe16 _ _
  have heard : (s.hears env (ackBroadcast mode)).state =
      handleFc65Broadcast (env.uptime s.slave.2.handled.length) (ackBroadcast mode) s.state :=
    hears_state env empty (ackBroadcast_valid mode)
  simp only [System.coil, System.reg, held, heard]
  refine ⟨?_, ?_, ?_, ?_⟩
  · rw [handleFc65Broadcast_test, addr]
    rfl
  · rw [handleFc65Broadcast_test, addr]
    rfl
  · rw [handleFc65Broadcast_reg, addr]
    rfl
  · rw [handleFc65Broadcast, addr, value]
    rfl

/-- Command data that a frame leaves as it was. -/
def Kept (before after : State) : Prop :=
  (∀ slot : Slot, after.coils.test slot.index = before.coils.test slot.index ∧
    held slot after = held slot before) ∧ after.lastAckedMode = before.lastAckedMode

omit [Zephyr] in
theorem kept_of_uncounted {before after : State} (same : uncounted after = uncounted before) :
    Kept before after := by
  refine ⟨fun slot => ⟨?_, ?_⟩, ?_⟩
  · rw [← uncounted_coils after, same]
    rfl
  · rw [held, ← uncounted_regs after, same]
    rfl
  · have acked := congrArg State.lastAckedMode same
    exact acked

/-- A poll that is answered raises the slots whose coil is up, and leaves the values. -/
theorem poll_serves (env : Env) {s : System} (empty : s.slave.1.len = 0) (idle : s.cs60 = .idle)
    (sends : (env.tx s.slave.2.handled.length).Sends) {slots : List Slot} (nodup : slots.Nodup)
    (up : ∀ slot, slot ∈ slots ↔ s.coil slot = true) :
    ∃ t, Step env s .poll t ∧ t.cs60 = .serving slots ∧ ∀ slot, t.reg slot = s.reg slot := by
  obtain ⟨resp, answered⟩ := Option.ne_none_iff_exists'.mp
    (answered_of_sends env empty (by decide) poll_servable sends)
  obtain ⟨same, shows⟩ := hears_poll env empty
  have raised : Raised resp slots :=
    ⟨nodup, fun slot => (up slot).trans (by rw [shows resp answered slot])⟩
  have step : Step env s .poll { s.hears env pollRequest with cs60 := .serving slots } :=
    .poll idle answered raised
  have kept := (kept_of_uncounted same).1
  generalize s.hears env pollRequest = t at step kept
  exact ⟨_, step, rfl, fun slot => (kept slot).2⟩

/-- A frame that neither reads nor acknowledges a slot leaves both alone. -/
theorem foreign_handleFrame (tx : Transmission) (uptime : UInt64) {frame : List UInt8} (s : State)
    (anchor : anchored (frame.getD 0 0) (frame.getD 1 0) = true)
    (foreign : ∀ slot reply, covers ⟨frame, reply⟩ slot = false ∧
      acknowledges ⟨frame, reply⟩ slot = false) : Kept s (handleFrame tx uptime frame s).1 := by
  unfold handleFrame
  dsimp only
  split_ifs with fc01 fc03 fc04
  · exact kept_of_uncounted (handleFc01Request_uncounted tx frame s)
  · have effect := handleFc03Request_uncounted tx frame s
    rw [if_neg] at effect
    · exact kept_of_uncounted effect
    · rintro ⟨_, taken⟩
      obtain ⟨lower, upper, _⟩ := (readsSetpoint_iff _ _ s).mp taken
      have covered : covers ⟨frame, none⟩ .setpoint = true :=
        decide_eq_true ⟨fc03.1, fc03.2, lower, upper⟩
      rw [(foreign .setpoint none).1] at covered
      contradiction
  · exact kept_of_uncounted (handleFc04Request_uncounted tx frame s)
  · have ack : frame.getD 0 0 = 0x00 ∧ frame.getD 1 0 = 0x65 := by
      rcases anchored_iff.mp anchor with known | known | known | ack
      · exact absurd known fc01
      · exact absurd known fc03
      · exact absurd known fc04
      · exact ack
    have other : ∀ slot : Slot, (getBe16 (frame.drop 2)).toNat ≠ slot.index.val := by
      intro slot same
      have acked : acknowledges ⟨frame, none⟩ slot = true := decide_eq_true ⟨ack.1, ack.2, same⟩
      rw [(foreign slot none).2] at acked
      contradiction
    refine ⟨fun slot => ⟨?_, ?_⟩, ?_⟩
    · simp [handleFc65Broadcast_test, other slot]
    · rw [held, handleFc65Broadcast_reg, if_neg (other slot)]
      rfl
    · have mode := other .mode
      unfold handleFc65Broadcast
      dsimp only
      split
      · split
        · rename_i same
          exact absurd same mode
        · rfl
      · rfl

theorem hears_other (env : Env) {s : System} (empty : s.slave.1.len = 0) {frame : List UInt8}
    (valid : ValidWindow frame)
    (foreign : ∀ slot reply, covers ⟨frame, reply⟩ slot = false ∧
      acknowledges ⟨frame, reply⟩ slot = false) : Kept s.state (s.hears env frame).state := by
  rw [hears_state env empty valid]
  apply foreign_handleFrame _ _ _ _ foreign
  obtain ⟨a, b, c, d, e, f, lo, hi, rfl, known, _⟩ := valid
  simp only [List.mem_cons, List.not_mem_nil, or_false, Prod.mk.injEq] at known
  exact anchored_iff.mpr known

end
end FlexitCs60.Slave.Cycle
