import FlexitCs60.Slave.Boot
import FlexitCs60.Slave.Effects
import FlexitCs60.Mirror.Feed

/-! What `ble_transport_forward_rs485` is handed while `drain_work_handler` empties
the ring buffer, beside what happens on the bus. Received bytes are forwarded in
slices before they are parsed; the echo of a response comes out of the parse. -/
namespace FlexitCs60.Uart.Forwarding
open Wire Framing Slave

def ringBufCapacity : Nat := 1024

/-- The ring buffer between the receive callback and the drain worker. -/
structure Ring where
  bytes : List UInt8
  bounded : bytes.length ≤ ringBufCapacity

namespace Ring

def empty : Ring := ⟨[], Nat.zero_le _⟩

/-- What `ring_buf_put` takes of `src`. -/
def accepted (ring : Ring) (src : List UInt8) : List UInt8 :=
  src.take (ringBufCapacity - ring.bytes.length)

def put (ring : Ring) (src : List UInt8) : Ring where
  bytes := ring.bytes ++ ring.accepted src
  bounded := by
    have := ring.bounded
    simp only [accepted, List.length_append, List.length_take]
    omega

/-- The bytes `ring_buf_get` copies into `tmp`. -/
def slice (ring : Ring) : Boot.Chunk := ⟨ring.bytes.take 128, List.length_take_le ..⟩

def rest (ring : Ring) : Ring where
  bytes := ring.bytes.drop 128
  bounded := by
    have := ring.bounded
    rw [List.length_drop]
    omega

end Ring

/-- A byte on the bus, with its direction. -/
inductive Item where
  | received (byte : UInt8)
  | sent (byte : UInt8)
  deriving DecidableEq, Repr

/-- The next call of `drain_work_handler`. -/
inductive Place where
  | ringBufGet
  | forward (tmp : Boot.Chunk)
  | mirrorFeed (tmp : Boot.Chunk)
  | slaveFeed (tmp : Boot.Chunk)
  /-- `flexit_slave_feed` runs; the slave's machine says where it is. -/
  | inSlaveFeed

structure Machine where
  ring : Ring
  place : Place
  mirror : Accumulator UInt8 Mirror.accumSize × Mirror.Traced
  slave : Boot.Machine
  /-- What `ble_transport_forward_rs485` was passed. -/
  stream : List Item
  /-- A byte is received as it enters the ring buffer. A response is sent as its
  transmission starts, if it succeeds. -/
  bus : List Item

inductive Event where
  /-- `UART_RX_RDY`, at any point of the worker's progress. -/
  | rxRdy (src : List UInt8)
  /-- The work queue takes its next step. -/
  | work
  /-- Another thread queues a command for the CS60. -/
  | queueMode (mode : UInt16)
  | queueSetpoint (valueX10 : UInt16)

/-- The frame that `rs485_uart_send` is transmitting and will echo. -/
def echo (slave : Boot.Machine) : List UInt8 :=
  match slave.place with
  | .sending _ err =>
    if err = 0 then
      match slave.traced.handled.getLast?.bind Handled.reply with
      | some (resp, _) => resp
      | none => []
    else []
  | _ => []

namespace Machine

def rxRdy (src : List UInt8) (m : Machine) : Machine :=
  { m with ring := m.ring.put src, bus := m.bus ++ (m.ring.accepted src).map .received }

/-- A call that reaches the slave's tables only. -/
def withSlave (f : Slave.State → Slave.State) (m : Machine) : Machine :=
  { m with slave.traced.state := f m.slave.traced.state }

/-- What the code has yet to forward, in the order it will. -/
def waiting (m : Machine) : List Item :=
  let slice := match m.place with
    | .forward tmp => tmp.val
    | _ => []
  slice.map .received ++ (echo m.slave).map .sent ++ m.ring.bytes.map .received

/-- The stream so far and what is to follow are the bus history. -/
def InOrder (m : Machine) : Prop := m.stream ++ m.waiting = m.bus

/-- The statics, whatever the slave and the mirror have seen before. -/
def start (mirror : Accumulator UInt8 Mirror.accumSize × Mirror.Traced)
    (slave : Accumulator UInt8 Slave.accumSize × Slave.Traced) : Machine :=
  ⟨.empty, .ringBufGet, mirror, ⟨slave.1, slave.2, .idle, []⟩, [], []⟩

end Machine

section
variable [Zephyr]

def Machine.work (env : Env) (clock : Mirror.Clock) (m : Machine) : Machine :=
  match m.place with
  | .ringBufGet =>
    if m.ring.bytes = [] then m
    else { m with ring := m.ring.rest, place := .forward m.ring.slice }
  | .forward tmp =>
    { m with stream := m.stream ++ tmp.val.map .received, place := .mirrorFeed tmp }
  | .mirrorFeed tmp =>
    { m with mirror := Mirror.panelMirrorFeed clock m.mirror tmp, place := .slaveFeed tmp }
  | .slaveFeed tmp => { m with slave := m.slave.feed tmp, place := .inSlaveFeed }
  | .inSlaveFeed =>
    match m.slave.place with
    | .idle => { m with place := .ringBufGet }
    | .deciding =>
      let slave := m.slave.turn env
      { m with slave, bus := m.bus ++ (echo slave).map .sent }
    | .sending _ _ =>
      { m with slave := m.slave.sent, stream := m.stream ++ (echo m.slave).map .sent }

def Machine.step (env : Env) (clock : Mirror.Clock) (m : Machine) : Event → Machine
  | .rxRdy src => m.rxRdy src
  | .work => m.work env clock
  | .queueMode mode => m.withSlave fun s => (flexitSlaveQueueMode mode s).2
  | .queueSetpoint valueX10 => m.withSlave fun s => (flexitSlaveQueueSetpoint valueX10 s).2

def run (env : Env) (clock : Mirror.Clock) (m : Machine) (events : List Event) : Machine :=
  events.foldl (Machine.step env clock) m

/-- The work queue's next step starts the transmission of a response, and the
transmission will succeed. -/
def Machine.Answers (env : Env) (m : Machine) : Prop :=
  m.place = .inSlaveFeed ∧ m.slave.place = .deciding ∧
    ∃ consumed, (m.slave.turn env).place = .sending consumed 0

/-- No response starts while received bytes are in the ring buffer. -/
def Drained (env : Env) (clock : Mirror.Clock) (m : Machine) (events : List Event) : Prop :=
  ∀ k, events[k]? = some .work → (run env clock m (events.take k)).Answers env →
    (run env clock m (events.take k)).ring.bytes = []

/-! What a turn of the decode loop means for the echo. -/

/-- A handler's reply carries the value its send returned. -/
theorem handleFrame_reply (tx : Transmission) (uptime : UInt64) (frame : List UInt8)
    (s : Slave.State) : ∃ resp : Option (List UInt8),
      (handleFrame tx uptime frame s).2 =
        resp.map fun resp => (resp, (rs485UartSend tx resp).1) := by
  unfold handleFrame
  dsimp only
  split
  · exact ⟨_, respond_reply ..⟩
  split
  · exact ⟨_, respond_reply ..⟩
  split
  · exact ⟨_, respond_reply ..⟩
  · exact ⟨none, rfl⟩

/-- The send that a matched frame leads to, by its result. -/
theorem sendResult_handled (env : Env) (accum : List UInt8) (accumLen : Nat) (s : Traced) {err : Int}
    (sends : Boot.sendResult s (tryDecodeAtFront env accum accumLen s).2 = some err) :
    ∃ frame resp, (tryDecodeAtFront env accum accumLen s).2.handled =
        s.handled ++ [⟨frame, some (resp, err)⟩] ∧
      (rs485UartSend (env.tx s.handled.length) resp).1 = err := by
  rcases tryDecodeAtFront_cases env accum accumLen s with same | bumped | ⟨frame, _, accepted⟩
  · rw [same] at sends
    simp [Boot.sendResult] at sends
  · rw [bumped] at sends
    simp [Boot.sendResult] at sends
  · rw [accepted] at sends ⊢
    obtain ⟨resp, reply⟩ := handleFrame_reply (env.tx s.handled.length)
      (env.uptime s.handled.length) frame s.state
    simp only [accept, reply] at sends ⊢
    cases resp with
    | none => simp [Boot.sendResult] at sends
    | some resp =>
      have result : (rs485UartSend (env.tx s.handled.length) resp).1 = err := by
        simpa [Boot.sendResult] using sends
      refine ⟨frame, resp, ?_, result⟩
      rw [Option.map_some, result]

omit [Zephyr] in
theorem echo_settled {slave : Boot.Machine} (settled : ∀ consumed err,
    slave.place ≠ .sending consumed err) : echo slave = [] := by
  unfold echo
  cases place : slave.place with
  | idle => rfl
  | deciding => rfl
  | sending consumed err => exact absurd place (settled consumed err)

omit [Zephyr] in
theorem echo_feed (tmp : Boot.Chunk) (slave : Boot.Machine) :
    echo (slave.feed tmp) = echo slave := by
  unfold Boot.Machine.feed
  cases place : slave.place with
  | deciding => rfl
  | sending consumed err => rfl
  | idle =>
    dsimp only
    split
    · rfl
    · rw [echo_settled (by simp), echo_settled (by simp [place])]

omit [Zephyr] in
theorem echo_sent (slave : Boot.Machine) : echo slave.sent = [] := by
  apply echo_settled
  intro consumed err
  unfold Boot.Machine.sent
  cases place : slave.place <;> simp [place]

/-- A turn leaves something to echo exactly if it starts a transmission that succeeds. -/
theorem echo_turn (env : Env) {slave : Boot.Machine} (deciding : slave.place = .deciding) :
    echo (slave.turn env) ≠ [] ↔ ∃ consumed, (slave.turn env).place = .sending consumed 0 := by
  unfold Boot.Machine.turn
  simp only [deciding]
  split
  · simp [echo]
  split
  · simp [echo]
  split
  · rename_i err sends
    obtain ⟨frame, resp, handled, result⟩ := sendResult_handled env _ _ _ sends
    by_cases success : err = 0
    · subst success
      have some := ((rs485UartSend_eq_zero _ _).mp result).1
      simpa [echo, handled] using some
    · simp [echo, success]
  · simp [echo]

/-- Outside `flexit_slave_feed` no echo is due. -/
def Machine.Quiet (m : Machine) : Prop := m.place ≠ .inSlaveFeed → echo m.slave = []

theorem work_quiet (env : Env) (clock : Mirror.Clock) {m : Machine} (quiet : m.Quiet) :
    (m.work env clock).Quiet := by
  unfold Machine.work
  cases place : m.place with
  | ringBufGet =>
    have silent := quiet (by simp [place])
    dsimp only
    split
    · exact fun _ => silent
    · exact fun _ => silent
  | forward tmp => exact fun _ => quiet (by simp [place])
  | mirrorFeed tmp => exact fun _ => quiet (by simp [place])
  | slaveFeed tmp => exact fun outside => absurd rfl outside
  | inSlaveFeed =>
    cases turn : m.slave.place with
    | idle => exact fun _ => echo_settled (by simp [turn])
    | deciding =>
      dsimp only
      exact fun outside => absurd rfl outside
    | sending consumed err =>
      dsimp only
      exact fun outside => absurd rfl outside

theorem step_quiet (env : Env) (clock : Mirror.Clock) {m : Machine} (quiet : m.Quiet) (e : Event) :
    (m.step env clock e).Quiet := by
  cases e with
  | rxRdy src => exact quiet
  | work => exact work_quiet env clock quiet
  | queueMode mode => exact quiet
  | queueSetpoint valueX10 => exact quiet

/-! Every step carries both sides of the equation along, but for a response that
starts before the ring buffer is empty. -/

theorem work_inOrder (env : Env) (clock : Mirror.Clock) {m : Machine} (quiet : m.Quiet)
    (inOrder : m.InOrder) (drained : m.Answers env → m.ring.bytes = []) :
    (m.work env clock).InOrder := by
  unfold Machine.InOrder at inOrder ⊢
  unfold Machine.work
  cases place : m.place with
  | ringBufGet =>
    have silent := quiet (by simp [place])
    dsimp only
    split
    · exact inOrder
    · rw [← inOrder]
      simp [Machine.waiting, place, silent, Ring.rest, Ring.slice]
  | forward tmp =>
    rw [← inOrder]
    simp [Machine.waiting, place]
  | mirrorFeed tmp =>
    rw [← inOrder]
    simp [Machine.waiting, place]
  | slaveFeed tmp =>
    rw [← inOrder]
    simp [Machine.waiting, place, echo_feed]
  | inSlaveFeed =>
    cases turn : m.slave.place with
    | idle =>
      rw [← inOrder]
      simp [Machine.waiting, place]
    | deciding =>
      have silent : echo m.slave = [] := echo_settled (by simp [turn])
      dsimp only
      rw [← inOrder]
      by_cases answer : echo (m.slave.turn env) = []
      · simp [Machine.waiting, place, silent, answer]
      · have none := drained ⟨place, turn, (echo_turn env turn).mp answer⟩
        simp [Machine.waiting, place, silent, none]
    | sending consumed err =>
      rw [← inOrder]
      simp [Machine.waiting, place, echo_sent]

theorem step_inOrder (env : Env) (clock : Mirror.Clock) {m : Machine} (quiet : m.Quiet)
    (inOrder : m.InOrder) (e : Event)
    (drained : e = .work → m.Answers env → m.ring.bytes = []) : (m.step env clock e).InOrder := by
  cases e with
  | rxRdy src =>
    unfold Machine.InOrder at inOrder ⊢
    change m.stream ++ (m.rxRdy src).waiting = m.bus ++ _
    rw [← inOrder]
    simp [Machine.waiting, Machine.rxRdy, Ring.put]
  | work => exact work_inOrder env clock quiet inOrder (drained rfl)
  | queueMode mode => exact inOrder
  | queueSetpoint valueX10 => exact inOrder

/-- A response that starts over a backlog is put before bytes that it follows. -/
theorem answer_disorders (env : Env) (clock : Mirror.Clock) {m : Machine} (inOrder : m.InOrder)
    (answers : m.Answers env) (backlog : m.ring.bytes ≠ []) : ¬ (m.work env clock).InOrder := by
  obtain ⟨place, turn, sending⟩ := answers
  have silent : echo m.slave = [] := echo_settled (by simp [turn])
  obtain ⟨first, frame, answer⟩ := List.exists_cons_of_ne_nil ((echo_turn env turn).mpr sending)
  obtain ⟨byte, rest, behind⟩ := List.exists_cons_of_ne_nil backlog
  unfold Machine.InOrder at inOrder ⊢
  unfold Machine.work
  simp only [place, turn]
  rw [← inOrder]
  simp [Machine.waiting, place, silent, answer, behind]

theorem run_take_succ (env : Env) (clock : Mirror.Clock) (m : Machine) {events : List Event}
    {k : Nat} {e : Event} (next : events[k]? = some e) :
    run env clock m (events.take (k + 1)) = (run env clock m (events.take k)).step env clock e := by
  rw [run, List.take_add_one, next, List.foldl_append]
  rfl

theorem run_quiet (env : Env) (clock : Mirror.Clock) {m : Machine} (quiet : m.Quiet)
    (events : List Event) : (run env clock m events).Quiet := by
  induction events generalizing m with
  | nil => exact quiet
  | cons e rest ih => exact ih (step_quiet env clock quiet e)

/-- The stream is in bus order throughout exactly if every response finds the ring
buffer empty when its transmission starts. -/
theorem forwarded_in_order_iff (env : Env) (clock : Mirror.Clock)
    (mirror : Accumulator UInt8 Mirror.accumSize × Mirror.Traced)
    (slave : Accumulator UInt8 Slave.accumSize × Slave.Traced) (events : List Event) :
    (∀ k ≤ events.length, (run env clock (.start mirror slave) (events.take k)).InOrder) ↔
      Drained env clock (.start mirror slave) events := by
  have quiet : ∀ k, (run env clock (.start mirror slave) (events.take k)).Quiet :=
    fun k => run_quiet env clock (fun _ => rfl) _
  constructor
  · intro ordered k next answers
    by_contra backlog
    have reached := (List.getElem?_eq_some_iff.mp next).1
    apply answer_disorders env clock (ordered k (Nat.le_of_lt reached)) answers backlog
    have after := ordered (k + 1) reached
    rwa [run_take_succ env clock _ next] at after
  · intro drained k reached
    induction k with
    | zero => rfl
    | succ k ih =>
      have next : events[k]? = some events[k] := List.getElem?_eq_getElem reached
      rw [run_take_succ env clock _ next]
      apply step_inOrder env clock (quiet k) (ih (Nat.le_of_succ_le reached))
      intro work
      exact drained k (next.trans (congrArg some work))

end

/-- 132 bytes wait. The worker answers the poll in the first 128 of them, and the
echo parts the last poll, which was complete before the answer started. -/
theorem echo_splits_frame :
    let env : Env := ⟨fun _ => 0, fun _ => .ok⟩
    let poll : List UInt8 := [0x01, 0x03, 0x00, 0x00, 0x00, 0x01, 0x84, 0x0A]
    let answer : List UInt8 := [0x01, 0x03, 0x02, 0x00, 0x00, 0xB8, 0x44]
    let backlog := List.replicate 64 0xFF ++ poll ++ List.replicate 52 0xFF ++ poll
    let start := Machine.start Mirror.booted (Slave.booted (Vector.replicate 64 0))
    let events := .rxRdy backlog :: List.replicate 6 .work
    let out := run env (fun _ => 0) start events
    out.bus = backlog.map .received ++ answer.map .sent ∧
      out.stream = (backlog.take 128).map .received ++ answer.map .sent ∧
      out.ring.bytes = poll.drop 4 ∧
      ¬ ∀ k ≤ events.length, (run env (fun _ => 0) start (events.take k)).InOrder := by
  intro env poll answer backlog start events out
  have bus : out.bus = backlog.map .received ++ answer.map .sent := by decide +kernel
  have stream : out.stream = (backlog.take 128).map .received ++ answer.map .sent := by
    decide +kernel
  refine ⟨bus, stream, by decide +kernel, fun ordered => ?_⟩
  have last := ordered 7 (by decide)
  change out.stream ++ out.waiting = out.bus at last
  rw [bus, stream] at last
  have misplaced := congrArg (·[128]?) last
  revert misplaced
  simp [backlog, poll, answer]

end FlexitCs60.Uart.Forwarding
