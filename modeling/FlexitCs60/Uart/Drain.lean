import FlexitCs60.System.Mailbox
import FlexitCs60.Uart.Forwarding

/-! The receive path behind the driver: `uart_async_cb` puts what it is told of into the
ring buffer and submits the drain work; the work queue empties it into the BLE stream,
the panel mirror and the slave. The callback may interrupt the worker anywhere. -/
namespace FlexitCs60.Uart.Drain
open Wire Framing Slave Labelled
open Forwarding (Ring Place Item)

structure Machine where
  droppedBytes : UInt32
  /-- The callback has put a report into the ring buffer; `k_work_submit` is next. -/
  submitting : Bool
  /-- `drain_work` is on the work queue. -/
  queued : Bool
  handler : Mailbox.Handler
  pipeline : Forwarding.Machine

/-- What `drain_work_handler` calls with a slice, in this order. -/
inductive Consumer where
  | bleTransportForwardRs485
  | panelMirrorFeed
  | flexitSlaveFeed
  deriving DecidableEq, Repr

inductive Act where
  /-- `UART_RX_RDY`, with what `ring_buf_put` returns. -/
  | rxRdy (src : List UInt8) (put : Nat)
  | submit
  | start
  /-- `ring_buf_get` returns a slice. -/
  | ringBufGet (tmp : Boot.Chunk)
  | call (consumer : Consumer) (tmp : Boot.Chunk)
  /-- The next step inside `flexit_slave_feed`. -/
  | work
  /-- `ring_buf_get` returns zero. -/
  | findNothing
  | finish
  | queueMode (mode : UInt16)
  | queueSetpoint (valueX10 : UInt16)
  deriving DecidableEq

/-- The call that is next. -/
def call? : Place → Option (Consumer × Boot.Chunk)
  | .forward tmp => some (.bleTransportForwardRs485, tmp)
  | .mirrorFeed tmp => some (.panelMirrorFeed, tmp)
  | .slaveFeed tmp => some (.flexitSlaveFeed, tmp)
  | .ringBufGet | .inSlaveFeed => none

namespace Machine

/-- The `UART_RX_RDY` case up to `k_work_submit`. -/
def report (src : List UInt8) (m : Machine) : Machine :=
  let put := (m.pipeline.ring.accepted src).length
  { m with
    droppedBytes := if put < src.length then m.droppedBytes + UInt32.ofNat (src.length - put)
      else m.droppedBytes
    submitting := true
    pipeline := m.pipeline.rxRdy src }

/-- The callback and the work item are at rest. -/
def AtRest (m : Machine) : Prop :=
  m.submitting = false ∧ m.queued = false ∧ m.handler = .idle

end Machine

/-- After `rs485_uart_init` and `flexit_slave_init`. -/
def boot (cells : Vector UInt8 Slave.accumSize) : Machine :=
  ⟨0, false, false, .idle, .start Mirror.booted (Slave.booted cells)⟩

section
variable [Zephyr]

inductive Step (env : Env) (clock : Mirror.Clock) (m : Machine) : Act → Machine → Prop where
  /-- The callback runs to its end before the driver raises another event. -/
  | rxRdy (src : List UInt8) : m.submitting = false →
      Step env clock m (.rxRdy src (m.pipeline.ring.accepted src).length) (m.report src)
  | submit : m.submitting = true →
      Step env clock m .submit { m with submitting := false, queued := true }
  | start : m.queued = true → m.handler = .idle →
      Step env clock m .start { m with queued := false, handler := .looping }
  | ringBufGet : m.handler = .looping → m.pipeline.place = .ringBufGet →
      m.pipeline.ring.bytes ≠ [] →
      Step env clock m (.ringBufGet m.pipeline.ring.slice)
        { m with pipeline := m.pipeline.work env clock }
  | call {consumer : Consumer} {tmp : Boot.Chunk} : m.handler = .looping →
      call? m.pipeline.place = some (consumer, tmp) →
      Step env clock m (.call consumer tmp) { m with pipeline := m.pipeline.work env clock }
  | work : m.handler = .looping → m.pipeline.place = .inSlaveFeed →
      Step env clock m .work { m with pipeline := m.pipeline.work env clock }
  | findNothing : m.handler = .looping → m.pipeline.place = .ringBufGet →
      m.pipeline.ring.bytes = [] → Step env clock m .findNothing { m with handler := .returning }
  | finish : m.handler = .returning → Step env clock m .finish { m with handler := .idle }
  | queueMode (mode : UInt16) : Step env clock m (.queueMode mode)
      { m with pipeline := m.pipeline.step env clock (.queueMode mode) }
  | queueSetpoint (valueX10 : UInt16) : Step env clock m (.queueSetpoint valueX10)
      { m with pipeline := m.pipeline.step env clock (.queueSetpoint valueX10) }

abbrev Run (env : Env) (clock : Mirror.Clock) := Labelled.Run (Step env clock)

end

/-! The bytes an action moves. -/

namespace Act

def reported : Act → List UInt8
  | .rxRdy src _ => src
  | _ => []

def put : Act → List UInt8
  | .rxRdy src n => src.take n
  | _ => []

def slice? : Act → Option (List UInt8)
  | .ringBufGet tmp => some tmp
  | _ => none

def called? (c : Consumer) : Act → Option (List UInt8)
  | .call c' tmp => if c' = c then some tmp else none
  | _ => none

end Act

/-- What the worker took out of the ring buffer, call after call. -/
def slices (acts : List Act) : List (List UInt8) := acts.filterMap Act.slice?

/-- What a consumer was called with. -/
def calls (c : Consumer) (acts : List Act) : List (List UInt8) := acts.filterMap (Act.called? c)

theorem accepted_take (ring : Ring) (src : List UInt8) :
    src.take (ring.accepted src).length = ring.accepted src := by
  unfold Ring.accepted
  rw [List.length_take, List.take_eq_take_iff]
  omega

/-! The ring buffer and the work item are a mailbox. -/

def Machine.mailbox (m : Machine) : Mailbox.State UInt8 :=
  ⟨m.pipeline.ring.bytes, if m.submitting then 1 else 0, m.queued, m.handler⟩

def Act.mail : Act → List (Mailbox.Act UInt8)
  | .rxRdy src n => [.put (src.take n)]
  | .submit => [.submit]
  | .start => [.start]
  | .ringBufGet tmp => [.take tmp]
  | .findNothing => [.findNothing]
  | .finish => [.finish]
  | _ => []

theorem Act.mail_put (a : Act) : a.mail.flatMap Mailbox.Act.put? = a.put := by
  cases a <;> simp [Act.mail, Act.put, Mailbox.Act.put?]

theorem Act.mail_taken (a : Act) :
    a.mail.flatMap Mailbox.Act.taken? = a.slice?.toList.flatten := by
  cases a <;> simp [Act.mail, Act.slice?, Mailbox.Act.taken?]

section
variable [Zephyr] {env : Env} {clock : Mirror.Clock}

/-- A consumer's step leaves the ring buffer alone. -/
theorem ring_work {m : Forwarding.Machine} (busy : m.place ≠ .ringBufGet) :
    (m.work env clock).ring = m.ring := by
  unfold Forwarding.Machine.work
  cases place : m.place with
  | ringBufGet => exact absurd place busy
  | inSlaveFeed => cases m.slave.place <;> rfl
  | _ => rfl

/-- The work queue's next slice. -/
theorem work_get {m : Forwarding.Machine} (place : m.place = .ringBufGet)
    (some : m.ring.bytes ≠ []) :
    m.work env clock = { m with ring := m.ring.rest, place := .forward m.ring.slice } := by
  simp only [Forwarding.Machine.work, place, if_neg some]

theorem mailbox_step {m n : Machine} {a : Act} (step : Step env clock m a n) :
    Labelled.Run Mailbox.Step m.mailbox a.mail n.mailbox := by
  have single : ∀ {s t : Mailbox.State UInt8} {b},
      Mailbox.Step s b t → Labelled.Run Mailbox.Step s [b] t := fun step => .next step (.refl _)
  cases step with
  | rxRdy src free =>
    apply single
    rw [accepted_take]
    have put := Mailbox.Step.put (s := m.mailbox) (m.pipeline.ring.accepted src)
    simp only [Machine.mailbox, free] at put ⊢
    exact put
  | submit due =>
    have one : m.mailbox.submitting = 0 + 1 := if_pos due
    exact single (.submit one)
  | start queued idle => exact single (.start queued idle)
  | ringBufGet looping place some =>
    apply single
    have split : m.pipeline.ring.bytes = m.pipeline.ring.slice ++ m.pipeline.ring.rest.bytes :=
      (List.take_append_drop ..).symm
    have take := Mailbox.Step.take (s := m.mailbox) looping split
    simpa only [Machine.mailbox, work_get place some] using take
  | call _ next =>
    have busy : m.pipeline.place ≠ .ringBufGet := fun place => by simp [place, call?] at next
    simp only [Act.mail, Machine.mailbox, ring_work busy]
    exact .refl _
  | work _ inside =>
    have busy : m.pipeline.place ≠ .ringBufGet := by simp [inside]
    simp only [Act.mail, Machine.mailbox, ring_work busy]
    exact .refl _
  | findNothing looping place nothing => exact single (.findNothing looping nothing)
  | finish returning => exact single (.finish returning)
  | queueMode mode => exact .refl _
  | queueSetpoint valueX10 => exact .refl _

/-! Each consumer was called with what was taken, but for the slice on its way to it. -/

/-- The slice that a consumer has yet to be called with. -/
def ahead : Consumer → Place → List (List UInt8)
  | _, .forward tmp => [tmp]
  | .panelMirrorFeed, .mirrorFeed tmp => [tmp]
  | .flexitSlaveFeed, .mirrorFeed tmp | .flexitSlaveFeed, .slaveFeed tmp => [tmp]
  | _, _ => []

def received? : Item → Option UInt8
  | .received byte => some byte
  | .sent _ => none

structure Fed (clock : Mirror.Clock) (past : List Act) (m : Forwarding.Machine) : Prop where
  called : ∀ c, calls c past ++ ahead c m.place = slices past
  forwarded : m.stream.filterMap received? = (calls .bleTransportForwardRs485 past).flatten
  mirrored : m.mirror =
    (calls .panelMirrorFeed past).foldl (Mirror.panelMirrorFeed clock) Mirror.booted
  answered : m.slave.received = (calls .flexitSlaveFeed past).flatten
  kept : ∃ starts base, Boot.Kept m.slave starts base
  /-- `flexit_slave_feed` is entered and left with its machine idle. -/
  between : m.place ≠ .inSlaveFeed → m.slave.place = .idle

omit [Zephyr] in
@[simp] theorem received?_received (byte : UInt8) : received? (.received byte) = some byte := rfl

omit [Zephyr] in
@[simp] theorem received?_sent (byte : UInt8) : received? (.sent byte) = none := rfl

omit [Zephyr] in
theorem received_feed {slave : Boot.Machine} (idle : slave.place = .idle) (tmp : Boot.Chunk) :
    (slave.feed tmp).received = slave.received ++ tmp := by
  simp only [Boot.Machine.feed, idle]
  split
  · rename_i empty
    rw [List.eq_nil_of_length_eq_zero empty, List.append_nil]
  · rfl

theorem received_turn (slave : Boot.Machine) : (slave.turn env).received = slave.received := by
  unfold Boot.Machine.turn
  repeat' split
  all_goals rfl

omit [Zephyr] in
theorem received_sends (slave : Boot.Machine) : slave.sent.received = slave.received := by
  unfold Boot.Machine.sent
  split <;> rfl

/-- An action that takes no slice and calls no consumer. -/
structure Act.Between (a : Act) : Prop where
  slice : a.slice? = none
  called : ∀ c, a.called? c = none

omit [Zephyr] in
theorem Act.Between.same {a : Act} (between : a.Between) (past : List Act) :
    slices (past ++ [a]) = slices past ∧ ∀ c, calls c (past ++ [a]) = calls c past := by
  simp [slices, calls, between.slice, between.called]

theorem Fed.concat {past : List Act} {m : Forwarding.Machine} {a : Act} (fed : Fed clock past m)
    (between : a.Between) : Fed clock (past ++ [a]) m := by
  obtain ⟨slices, calls⟩ := between.same past
  obtain ⟨called, forwarded, mirrored, answered, kept, outside⟩ := fed
  refine ⟨fun c => ?_, ?_, ?_, ?_, kept, outside⟩
  · rw [calls, slices]
    exact called c
  · rwa [calls]
  · rwa [calls]
  · rwa [calls]

theorem fed_get {past : List Act} {m : Forwarding.Machine} (fed : Fed clock past m)
    (place : m.place = .ringBufGet) (some : m.ring.bytes ≠ []) :
    Fed clock (past ++ [.ringBufGet m.ring.slice]) (m.work env clock) := by
  obtain ⟨called, forwarded, mirrored, answered, kept, between⟩ := fed
  have same : ∀ c, calls c (past ++ [.ringBufGet m.ring.slice]) = calls c past := by
    simp [calls, Act.called?]
  have taken : slices (past ++ [.ringBufGet m.ring.slice]) = slices past ++ [m.ring.slice.val] := by
    simp [slices, Act.slice?]
  rw [work_get place some]
  refine ⟨fun c => ?_, ?_, ?_, ?_, kept, fun _ => between (by simp [place])⟩
  · have sofar := called c
    have reached : ahead c (.forward m.ring.slice) = [m.ring.slice.val] := by cases c <;> rfl
    have before : ahead c .ringBufGet = [] := by cases c <;> rfl
    rw [place, before, List.append_nil] at sofar
    rw [same, taken, reached, sofar]
  · rwa [same]
  · rwa [same]
  · rwa [same]

omit [Zephyr] in
theorem calls_concat (c c' : Consumer) (tmp : Boot.Chunk) (past : List Act) :
    calls c (past ++ [.call c' tmp]) = calls c past ++ if c' = c then [tmp.val] else [] := by
  by_cases same : c' = c <;> simp [calls, Act.called?, same]

omit [Zephyr] in
theorem slices_call (c : Consumer) (tmp : Boot.Chunk) (past : List Act) :
    slices (past ++ [.call c tmp]) = slices past := by
  simp [slices, Act.slice?]

theorem fed_call {past : List Act} {m : Forwarding.Machine} (fed : Fed clock past m)
    {c : Consumer} {tmp : Boot.Chunk} (next : call? m.place = some (c, tmp)) :
    Fed clock (past ++ [.call c tmp]) (m.work env clock) := by
  obtain ⟨called, forwarded, mirrored, answered, ⟨starts, base, kept⟩, between⟩ := fed
  cases place : m.place with
  | ringBufGet => simp [place, call?] at next
  | inSlaveFeed => simp [place, call?] at next
  | forward tmp' =>
    simp only [place, call?, Option.some.injEq, Prod.mk.injEq] at next
    obtain ⟨rfl, rfl⟩ := next
    rw [place] at called
    simp only [Forwarding.Machine.work, place]
    refine ⟨fun c => ?_, ?_, ?_, ?_, ⟨starts, base, kept⟩, fun _ => between (by simp [place])⟩
    · rw [slices_call, ← called c, calls_concat]
      cases c <;> simp [ahead]
    · simp [calls_concat, forwarded, Function.comp_def]
    · simpa [calls_concat] using mirrored
    · simpa [calls_concat] using answered
  | mirrorFeed tmp' =>
    simp only [place, call?, Option.some.injEq, Prod.mk.injEq] at next
    obtain ⟨rfl, rfl⟩ := next
    rw [place] at called
    simp only [Forwarding.Machine.work, place]
    refine ⟨fun c => ?_, ?_, ?_, ?_, ⟨starts, base, kept⟩, fun _ => between (by simp [place])⟩
    · rw [slices_call, ← called c, calls_concat]
      cases c <;> simp [ahead]
    · simpa [calls_concat] using forwarded
    · simp [calls_concat, mirrored]
    · simpa [calls_concat] using answered
  | slaveFeed tmp' =>
    simp only [place, call?, Option.some.injEq, Prod.mk.injEq] at next
    obtain ⟨rfl, rfl⟩ := next
    rw [place] at called
    obtain ⟨base', fed⟩ := Boot.feed_kept kept tmp'
    have idle := between (by simp [place])
    simp only [Forwarding.Machine.work, place]
    refine ⟨fun c => ?_, ?_, ?_, ?_, ⟨starts, base', fed⟩, fun outside => absurd rfl outside⟩
    · rw [slices_call, ← called c, calls_concat]
      cases c <;> simp [ahead]
    · simpa [calls_concat] using forwarded
    · simpa [calls_concat] using mirrored
    · simp [calls_concat, received_feed idle, answered]

/-- Inside `flexit_slave_feed` the machine of the slave moves. -/
theorem fed_work {past : List Act} {m : Forwarding.Machine} (fed : Fed clock past m)
    (place : m.place = .inSlaveFeed) : Fed clock past (m.work env clock) := by
  obtain ⟨called, forwarded, mirrored, answered, ⟨starts, base, kept⟩, between⟩ := fed
  have outside : ∀ c, calls c past = slices past := by
    intro c
    have sofar := called c
    rw [place] at sofar
    cases c <;> simpa [ahead] using sofar
  rw [place] at called
  unfold Forwarding.Machine.work
  simp only [place]
  cases turn : m.slave.place with
  | idle =>
    refine ⟨fun c => ?_, forwarded, mirrored, answered, ⟨starts, base, kept⟩, fun _ => turn⟩
    cases c <;> simp [ahead, outside]
  | deciding =>
    refine ⟨called, forwarded, mirrored, ?_, Boot.turn_kept env kept, fun away => absurd rfl away⟩
    simpa [received_turn] using answered
  | sending consumed err =>
    obtain ⟨base', sent⟩ := Boot.sent_kept kept
    refine ⟨called, ?_, mirrored, ?_, ⟨starts, base', sent⟩, fun away => absurd rfl away⟩
    · simpa [Function.comp_def] using forwarded
    · simpa [received_sends] using answered

omit [Zephyr] in
/-- A call for the slave's tables moves no byte. -/
theorem kept_withSlave {m : Boot.Machine} {starts : List Nat} {base : Nat}
    (kept : Boot.Kept m starts base) (f : Slave.State → Slave.State) :
    Boot.Kept { m with traced.state := f m.traced.state } starts base := by
  obtain ⟨bounded, split, contents, taking, apart, passed, handled⟩ := kept
  exact ⟨bounded, split, contents, taking, apart, passed, handled⟩

theorem fed_withSlave {past : List Act} {m : Forwarding.Machine} (fed : Fed clock past m)
    (f : Slave.State → Slave.State) : Fed clock past (m.withSlave f) := by
  obtain ⟨called, forwarded, mirrored, answered, ⟨starts, base, kept⟩, between⟩ := fed
  exact ⟨called, forwarded, mirrored, answered, ⟨starts, base, kept_withSlave kept f⟩, between⟩

/-- What the receive path has carried so far. -/
structure Carried (clock : Mirror.Clock) (past : List Act) (m : Machine) : Prop where
  fits : (past.flatMap Act.put).length ≤ (past.flatMap Act.reported).length
  dropped : m.droppedBytes =
    UInt32.ofNat ((past.flatMap Act.reported).length - (past.flatMap Act.put).length)
  fed : Fed clock past m.pipeline
  outside : m.handler ≠ .looping → m.pipeline.place = .ringBufGet

theorem carried_boot (clock : Mirror.Clock) (cells : Vector UInt8 Slave.accumSize) :
    Carried clock [] (boot cells) := by
  refine ⟨Nat.le_refl _, rfl, ?_, fun _ => rfl⟩
  refine ⟨fun c => ?_, rfl, rfl, rfl, ⟨[], 0, ?_⟩, fun _ => rfl⟩
  · cases c <;> rfl
  constructor <;>
    simp [boot, Forwarding.Machine.start, Slave.booted, Boot.Place.taking, handledFrames,
      Accumulator.contents]

/-- An action that moves no byte into the ring buffer. -/
theorem Carried.silent {past : List Act} {m n : Machine} {a : Act} (carried : Carried clock past m)
    (reported : a.reported = []) (put : a.put = []) (dropped : n.droppedBytes = m.droppedBytes)
    (fed : Fed clock (past ++ [a]) n.pipeline)
    (outside : n.handler ≠ .looping → n.pipeline.place = .ringBufGet) :
    Carried clock (past ++ [a]) n := by
  have same : (past ++ [a]).flatMap Act.reported = past.flatMap Act.reported ∧
      (past ++ [a]).flatMap Act.put = past.flatMap Act.put := by
    simp [reported, put]
  refine ⟨?_, ?_, fed, outside⟩
  · rw [same.1, same.2]
    exact carried.fits
  · rw [same.1, same.2, dropped]
    exact carried.dropped

/-- The accounts of a report: what the ring buffer has no room for is dropped. -/
theorem Carried.report {past : List Act} {m : Machine} (src : List UInt8)
    (carried : Carried clock past m) :
    Carried clock (past ++ [.rxRdy src (m.pipeline.ring.accepted src).length]) (m.report src) := by
  obtain ⟨fits, dropped, fed, outside⟩ := carried
  have short : (m.pipeline.ring.accepted src).length ≤ src.length := List.length_take_le' ..
  let rxRdy : Act := .rxRdy src (m.pipeline.ring.accepted src).length
  have reported : (past ++ [rxRdy]).flatMap Act.reported = past.flatMap Act.reported ++ src := by
    simp [rxRdy, Act.reported]
  have put : (past ++ [rxRdy]).flatMap Act.put =
      past.flatMap Act.put ++ m.pipeline.ring.accepted src := by
    simp [rxRdy, Act.put, accepted_take]
  obtain ⟨called, forwarded, mirrored, answered, kept, between⟩ :=
    fed.concat (a := rxRdy) ⟨rfl, fun _ => rfl⟩
  refine ⟨?_, ?_, ⟨called, forwarded, mirrored, answered, kept, between⟩, outside⟩
  · rw [reported, put, List.length_append, List.length_append]
    omega
  · have sum : (past.flatMap Act.reported).length + src.length -
        ((past.flatMap Act.put).length + (m.pipeline.ring.accepted src).length) =
        ((past.flatMap Act.reported).length - (past.flatMap Act.put).length) +
          (src.length - (m.pipeline.ring.accepted src).length) := by omega
    rw [reported, put, List.length_append, List.length_append, sum, UInt32.ofNat_add, ← dropped]
    simp only [Machine.report]
    split
    · rfl
    · have none : src.length - (m.pipeline.ring.accepted src).length = 0 := by omega
      rw [none]
      exact (UInt32.add_zero _).symm

theorem carried_step {past : List Act} {m n : Machine} {a : Act} (step : Step env clock m a n)
    (carried : Carried clock past m) : Carried clock (past ++ [a]) n := by
  have fed := carried.fed
  have outside := carried.outside
  cases step with
  | rxRdy src _ => exact carried.report src
  | submit _ => exact carried.silent rfl rfl rfl (fed.concat ⟨rfl, fun _ => rfl⟩) outside
  | start _ idle =>
    exact carried.silent rfl rfl rfl (fed.concat ⟨rfl, fun _ => rfl⟩) fun out => absurd rfl out
  | ringBufGet looping place some =>
    exact carried.silent rfl rfl rfl (fed_get fed place some) fun out => absurd looping out
  | call looping next =>
    exact carried.silent rfl rfl rfl (fed_call fed next) fun out => absurd looping out
  | work looping inside =>
    exact carried.silent rfl rfl rfl ((fed_work fed inside).concat ⟨rfl, fun _ => rfl⟩) fun out =>
      absurd looping out
  | findNothing looping place nothing =>
    exact carried.silent rfl rfl rfl (fed.concat ⟨rfl, fun _ => rfl⟩) fun _ => place
  | finish returning =>
    exact carried.silent rfl rfl rfl (fed.concat ⟨rfl, fun _ => rfl⟩) fun _ =>
      outside (by simp [returning])
  | queueMode mode =>
    have queued := fed_withSlave fed fun s => (flexitSlaveQueueMode mode s).2
    exact carried.silent rfl rfl rfl (queued.concat ⟨rfl, fun _ => rfl⟩) outside
  | queueSetpoint valueX10 =>
    have queued := fed_withSlave fed fun s => (flexitSlaveQueueSetpoint valueX10 s).2
    exact carried.silent rfl rfl rfl (queued.concat ⟨rfl, fun _ => rfl⟩) outside

theorem carried_run {past acts : List Act} {m n : Machine} (run : Run env clock m acts n)
    (carried : Carried clock past m) : Carried clock (past ++ acts) n :=
  run.history (Carried clock) carried_step past carried

theorem mailbox_run {cells : Vector UInt8 Slave.accumSize} {acts : List Act} {m : Machine}
    (run : Run env clock (boot cells) acts m) :
    Labelled.Run Mailbox.Step Mailbox.empty (acts.flatMap Act.mail) m.mailbox :=
  run.project Machine.mailbox Act.mail mailbox_step

/-! The work queue on its own comes to rest. -/

/-- How many steps of the slave's machine are left, at most. -/
def slaveLeft (slave : Boot.Machine) : Nat :=
  match slave.place with
  | .idle => 1
  | .deciding => 2 * slave.accum.len + 2
  | .sending consumed _ => 2 * (slave.accum.len - consumed) + 3

/-- A slice costs its three calls and the decode loop over a full accumulator. -/
def workLeft (p : Forwarding.Machine) : Nat :=
  134 * p.ring.bytes.length +
    match p.place with
    | .ringBufGet => 0
    | .forward _ => 133
    | .mirrorFeed _ => 132
    | .slaveFeed _ => 131
    | .inSlaveFeed => slaveLeft p.slave

/-- How many steps the callback's submission and the work queue can make. -/
def Machine.remaining (m : Machine) : Nat :=
  workLeft m.pipeline + (if m.submitting then 4 else 0) + (if m.queued then 3 else 0) +
    match m.handler with
    | .idle => 0
    | .returning => 1
    | .looping => 2

theorem slaveLeft_turn {slave : Boot.Machine} (deciding : slave.place = .deciding)
    (bounded : slave.accum.len ≤ accumSize) : slaveLeft (slave.turn env) < slaveLeft slave := by
  have size := Accumulator.length_contents bounded
  have shorter : ∀ {count}, 0 < count → count ≤ slave.accum.len →
      (slave.accum.consume count).len < slave.accum.len := by
    intro count positive inside
    have := (Accumulator.consume_contents count bounded (by decide) inside).1
    omega
  have before : slaveLeft slave = 2 * slave.accum.len + 2 := by rw [slaveLeft, deciding]
  rw [Boot.turn_eq env deciding bounded, before]
  cases shape : verdict slave.accum.contents with
  | wait =>
    simp only [slaveLeft]
    omega
  | slip =>
    have some := rules.slip_nonempty shape
    have less := shorter Nat.one_pos (by omega)
    simp only [slaveLeft, deciding]
    omega
  | frame width =>
    have positive := rules.positive shape
    have inside : width ≤ slave.accum.len := size ▸ rules.within shape
    have less := shorter positive inside
    dsimp only
    split
    · simp only [slaveLeft]
      omega
    · simp only [slaveLeft, deciding]
      omega

omit [Zephyr] in
theorem slaveLeft_sent {slave : Boot.Machine} {starts : List Nat} {base consumed : Nat} {err : Int}
    (kept : Boot.Kept slave starts base) (sending : slave.place = .sending consumed err) :
    slaveLeft slave.sent < slaveLeft slave := by
  have inside := kept.taking
  rw [sending, Boot.Place.taking] at inside
  have left := (Accumulator.consume_contents consumed kept.bounded (by decide) inside).1
  simp only [slaveLeft, Boot.Machine.sent, sending, left]
  omega

omit [Zephyr] in
theorem slaveLeft_feed {slave : Boot.Machine} {starts : List Nat} {base : Nat}
    (kept : Boot.Kept slave starts base) (idle : slave.place = .idle) (tmp : Boot.Chunk) :
    slaveLeft (slave.feed tmp) < 131 := by
  obtain ⟨_, fed⟩ := Boot.feed_kept kept tmp
  have bounded := fed.bounded
  have size : accumSize = 64 := rfl
  simp only [Boot.Machine.feed, idle] at bounded ⊢
  split
  · simp only [slaveLeft, idle]
    omega
  · rename_i some
    rw [if_neg some] at bounded
    have full : (slave.accum.fill tmp.val).len ≤ accumSize := bounded
    simp only [slaveLeft]
    omega

theorem workLeft_work {past : List Act} {p : Forwarding.Machine} (fed : Fed clock past p)
    (busy : p.place ≠ .ringBufGet) : workLeft (p.work env clock) < workLeft p := by
  obtain ⟨_, _, kept⟩ := fed.kept
  unfold workLeft
  rw [ring_work busy]
  apply Nat.add_lt_add_left
  cases place : p.place with
  | ringBufGet => exact absurd place busy
  | forward tmp => simp [Forwarding.Machine.work, place]
  | mirrorFeed tmp => simp [Forwarding.Machine.work, place]
  | slaveFeed tmp =>
    have idle := fed.between (by simp [place])
    simpa [Forwarding.Machine.work, place] using slaveLeft_feed kept idle tmp
  | inSlaveFeed =>
    cases turn : p.slave.place with
    | idle => simp [Forwarding.Machine.work, place, turn, slaveLeft]
    | deciding =>
      simpa [Forwarding.Machine.work, place, turn] using slaveLeft_turn turn kept.bounded
    | sending consumed err =>
      simpa [Forwarding.Machine.work, place, turn] using slaveLeft_sent kept turn

/-- The callback's submission, and what the work queue does. -/
def Act.settles : Act → Bool
  | .submit | .start | .ringBufGet _ | .call _ _ | .work | .findNothing | .finish => true
  | _ => false

/-- Runs of the work queue and of a submission that is due. -/
abbrev Settling (env : Env) (clock : Mirror.Clock) :=
  Labelled.Run (Guarded (fun _ a => a.settles = true) (Step env clock))

theorem remaining_step {past : List Act} {m n : Machine} {a : Act} (step : Step env clock m a n)
    (settles : a.settles = true) (carried : Carried clock past m) : n.remaining < m.remaining := by
  have fed := carried.fed
  cases step with
  | rxRdy src _ => contradiction
  | queueMode mode => contradiction
  | queueSetpoint valueX10 => contradiction
  | submit due =>
    cases queued : m.queued <;> simp [Machine.remaining, due, queued]
  | start queued idle => simp [Machine.remaining, queued, idle]
  | ringBufGet looping place some =>
    have length := List.length_pos_iff.mpr some
    have less : workLeft (m.pipeline.work env clock) < workLeft m.pipeline := by
      rw [work_get place some]
      simp only [workLeft, place, Ring.rest, List.length_drop]
      omega
    simp only [Machine.remaining]
    omega
  | call looping next =>
    have less : workLeft (m.pipeline.work env clock) < workLeft m.pipeline :=
      workLeft_work fed fun place => by simp [place, call?] at next
    simp only [Machine.remaining]
    omega
  | work looping inside =>
    have less : workLeft (m.pipeline.work env clock) < workLeft m.pipeline :=
      workLeft_work fed (by simp [inside])
    simp only [Machine.remaining]
    omega
  | findNothing looping place nothing => simp [Machine.remaining, looping]
  | finish returning => simp [Machine.remaining, returning]

variable (env clock) in
/-- The next step of the work queue, a submission first. -/
def Machine.settle? (m : Machine) : Option (Act × Machine) :=
  if m.submitting then some (.submit, { m with submitting := false, queued := true })
  else
    match m.handler with
    | .idle => if m.queued then some (.start, { m with queued := false, handler := .looping })
      else none
    | .returning => some (.finish, { m with handler := .idle })
    | .looping =>
      let next := { m with pipeline := m.pipeline.work env clock }
      match m.pipeline.place with
      | .ringBufGet =>
        if m.pipeline.ring.bytes = [] then some (.findNothing, { m with handler := .returning })
        else some (.ringBufGet m.pipeline.ring.slice, next)
      | .forward tmp => some (.call .bleTransportForwardRs485 tmp, next)
      | .mirrorFeed tmp => some (.call .panelMirrorFeed tmp, next)
      | .slaveFeed tmp => some (.call .flexitSlaveFeed tmp, next)
      | .inSlaveFeed => some (.work, next)

theorem settle?_step {m n : Machine} {a : Act} (next : m.settle? env clock = some (a, n)) :
    a.settles = true ∧ Step env clock m a n := by
  unfold Machine.settle? at next
  split at next
  · rename_i due
    obtain ⟨rfl, rfl⟩ := Option.some.inj next
    exact ⟨rfl, .submit due⟩
  · split at next
    · rename_i idle
      split at next
      · rename_i queued
        obtain ⟨rfl, rfl⟩ := Option.some.inj next
        exact ⟨rfl, .start queued idle⟩
      · contradiction
    · rename_i returning
      obtain ⟨rfl, rfl⟩ := Option.some.inj next
      exact ⟨rfl, .finish returning⟩
    · rename_i looping
      dsimp only at next
      split at next
      · rename_i place
        split at next
        · rename_i nothing
          obtain ⟨rfl, rfl⟩ := Option.some.inj next
          exact ⟨rfl, .findNothing looping place nothing⟩
        · rename_i some
          obtain ⟨rfl, rfl⟩ := Option.some.inj next
          exact ⟨rfl, .ringBufGet looping place some⟩
      · rename_i place
        obtain ⟨rfl, rfl⟩ := Option.some.inj next
        exact ⟨rfl, .call looping (by rw [place]; rfl)⟩
      · rename_i place
        obtain ⟨rfl, rfl⟩ := Option.some.inj next
        exact ⟨rfl, .call looping (by rw [place]; rfl)⟩
      · rename_i place
        obtain ⟨rfl, rfl⟩ := Option.some.inj next
        exact ⟨rfl, .call looping (by rw [place]; rfl)⟩
      · rename_i place
        obtain ⟨rfl, rfl⟩ := Option.some.inj next
        exact ⟨rfl, .work looping place⟩

theorem atRest_of_settle? {m : Machine} (none : m.settle? env clock = none) : m.AtRest := by
  unfold Machine.settle? at none
  split at none
  · contradiction
  · rename_i submitted
    split at none
    · rename_i idle
      split at none
      · contradiction
      · rename_i unqueued
        exact ⟨Bool.not_eq_true _ ▸ submitted, Bool.not_eq_true _ ▸ unqueued, idle⟩
    · contradiction
    · dsimp only at none
      split at none
      · split at none <;> contradiction
      all_goals contradiction

/-- Whatever the interleaving so far, the callback's submission and the work queue
alone, in any order, make no more than `remaining` steps and can go on until they are
at rest; and at rest nothing is left in the ring buffer, so no wake-up was lost. -/
theorem worker_settles {cells : Vector UInt8 Slave.accumSize} {acts : List Act} {m : Machine}
    (run : Run env clock (boot cells) acts m) :
    (∀ {later n}, Settling env clock m later n → later.length + n.remaining ≤ m.remaining ∧
      (n.AtRest ∨ ∃ a k, a.settles = true ∧ Step env clock n a k)) ∧
    (m.AtRest → m.pipeline.ring.bytes = []) := by
  constructor
  · intro later n settling
    have carried := carried_run run (carried_boot clock cells)
    refine ⟨settling.bounded (fun m => ∃ past, Carried clock past m) Machine.remaining ?_
      ⟨_, carried⟩, ?_⟩
    · rintro s a t ⟨settles, step⟩ ⟨past, carried⟩
      exact ⟨⟨_, carried_step step carried⟩, remaining_step step settles carried⟩
    · cases next : n.settle? env clock with
      | none => exact .inl (atRest_of_settle? next)
      | some step =>
        obtain ⟨settles, step⟩ := settle?_step next
        exact .inr ⟨_, _, settles, step⟩
  · rintro ⟨submitted, unqueued, idle⟩
    have awake := Mailbox.awake_run (mailbox_run run)
    exact awake.quiet (if_neg (by simp [submitted])) unqueued idle

/-- What has been delivered when the receive path is at rest. -/
structure Delivered (clock : Mirror.Clock) (acts : List Act) (m : Machine) : Prop where
  /-- The BLE stream, the mirror and the slave were handed the same slices. -/
  called : ∀ c, calls c acts = slices acts
  sliced : (slices acts).flatten = acts.flatMap Act.put
  forwarded : m.pipeline.stream.filterMap received? = acts.flatMap Act.put
  mirrored : m.pipeline.mirror =
    (slices acts).foldl (Mirror.panelMirrorFeed clock) Mirror.booted
  answered : m.pipeline.slave.received = acts.flatMap Act.put
  /-- No request was handled twice. -/
  once : Boot.HandledOnce m.pipeline.slave
  /-- `dropped_bytes` counts what was reported and not put. -/
  dropped : m.droppedBytes =
    UInt32.ofNat ((acts.flatMap Act.reported).length - (acts.flatMap Act.put).length)

/-- The ring buffer is first in, first out. -/
theorem put_eq {cells : Vector UInt8 Slave.accumSize} {acts : List Act} {m : Machine}
    (run : Run env clock (boot cells) acts m) :
    acts.flatMap Act.put = (slices acts).flatten ++ m.pipeline.ring.bytes := by
  have puts : (acts.flatMap Act.mail).flatMap Mailbox.Act.put? = acts.flatMap Act.put := by
    rw [List.flatMap_assoc]
    exact List.flatMap_congr fun a _ => a.mail_put
  have takes : (acts.flatMap Act.mail).flatMap Mailbox.Act.taken? = (slices acts).flatten := by
    rw [List.flatMap_assoc, slices, List.filterMap_eq_flatMap_toList, List.flatten_eq_flatMap,
      List.flatMap_assoc]
    refine List.flatMap_congr fun a _ => ?_
    rw [a.mail_taken, List.flatten_eq_flatMap]
  have fifo := Mailbox.fifo_run (mailbox_run run)
  rwa [puts, takes] at fifo

/-- Over any interleaving of the callback, the work queue and the threads that queue
commands, what was put into the ring buffer reaches the three consumers unchanged,
and what was not put is counted. -/
theorem delivered_at_rest {cells : Vector UInt8 Slave.accumSize} {acts : List Act} {m : Machine}
    (run : Run env clock (boot cells) acts m) (rest : m.AtRest) : Delivered clock acts m := by
  obtain ⟨submitted, unqueued, idle⟩ := rest
  have carried : Carried clock acts m := carried_run run (carried_boot clock cells)
  have awake := Mailbox.awake_run (mailbox_run run)
  have nothing : m.pipeline.ring.bytes = [] :=
    awake.quiet (if_neg (by simp [submitted])) unqueued idle
  have fifo : (slices acts).flatten = acts.flatMap Act.put := by
    rw [put_eq run, nothing, List.append_nil]
  have place := carried.outside (by simp [idle])
  obtain ⟨called, forwarded, mirrored, answered, ⟨_, _, kept⟩, _⟩ := carried.fed
  have same : ∀ c, calls c acts = slices acts := by
    intro c
    have all := called c
    rw [place] at all
    cases c <;> simpa [ahead] using all
  refine ⟨same, fifo, ?_, ?_, ?_, kept.handledOnce, carried.dropped⟩
  · rw [forwarded, same, fifo]
  · rw [mirrored, same]
  · rw [answered, same, fifo]

variable (env clock) in
/-- The work queue's steps, a submission first, until it is at rest or the fuel is gone. -/
def Machine.settle : Nat → Machine → List Act × Machine
  | 0, m => ([], m)
  | fuel + 1, m =>
    match m.settle? env clock with
    | none => ([], m)
    | some (a, n) => (a :: (n.settle fuel).1, (n.settle fuel).2)

theorem settle_run (fuel : Nat) (m : Machine) :
    Settling env clock m (m.settle env clock fuel).1 (m.settle env clock fuel).2 := by
  induction fuel generalizing m with
  | zero => exact .refl m
  | succ fuel ih =>
    rw [Machine.settle]
    cases next : m.settle? env clock with
    | none => exact .refl m
    | some step => exact .next (settle?_step next) (ih step.2)

end

/-- The firmware at rest, with its sends going through. -/
def quietEnv : Env := ⟨fun _ => 0, fun _ => .ok⟩

def poll : List UInt8 := [0x01, 0x03, 0x00, 0x00, 0x00, 0x01, 0x84, 0x0A]

/-- Seven polls that the worker gets at once, and one that it gets in two slices. -/
def backlog : List UInt8 := List.replicate 68 0xFF ++ (List.replicate 8 poll).flatten

/-- The backlog is reported after the boot. -/
def reported : Machine := (boot (Vector.replicate 64 0)).report backlog

def settled : List Act × Machine := reported.settle quietEnv (fun _ => 0) 100

theorem reported_run : Run quietEnv (fun _ => 0) (boot (Vector.replicate 64 0))
    [.rxRdy backlog 132] reported :=
  .next (.rxRdy backlog rfl) (.refl _)

theorem settled_polls : (settled.2.submitting = false ∧ settled.2.queued = false ∧
    settled.2.handler = .idle) ∧ slices settled.1 = [backlog.take 128, poll.drop 4] ∧
      handledFrames settled.2.pipeline.slave.traced = List.replicate 8 poll := by
  decide +kernel

theorem worker_settles_backlog : ∃ later n, Settling quietEnv (fun _ => 0) reported later n ∧
    later.length + n.remaining ≤ reported.remaining ∧ n.AtRest ∧ n.pipeline.ring.bytes = [] := by
  have settling : Settling quietEnv (fun _ => 0) reported settled.1 settled.2 := settle_run 100 _
  obtain ⟨bounded, _⟩ := (worker_settles reported_run).1 settling
  obtain ⟨rest, _⟩ := settled_polls
  exact ⟨_, _, settling, bounded, rest,
    (worker_settles (reported_run.trans settling.unguarded)).2 rest⟩

theorem delivered_at_rest_backlog : ∃ acts n,
    Run quietEnv (fun _ => 0) (boot (Vector.replicate 64 0)) acts n ∧ n.AtRest ∧
      slices acts = [backlog.take 128, poll.drop 4] ∧
      handledFrames n.pipeline.slave.traced = List.replicate 8 poll ∧
      Delivered (fun _ => 0) acts n := by
  have settling : Settling quietEnv (fun _ => 0) reported settled.1 settled.2 := settle_run 100 _
  have run := reported_run.trans settling.unguarded
  obtain ⟨rest, taken, handled⟩ := settled_polls
  exact ⟨_, _, run, rest, taken, handled, delivered_at_rest run rest⟩

end FlexitCs60.Uart.Drain
