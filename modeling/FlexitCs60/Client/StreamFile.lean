import FlexitCs60.Ble.Forward
import FlexitCs60.System.Labelled
import FlexitCs60.Uart.Forwarding

/-! A `ble-client stream` capture from end to end: what the drain worker forwards is cut
into notifications, which the client queues for its writer, which appends them to a
file. At each of these places bytes can be lost, and none is ever made up. -/
namespace FlexitCs60.Client.Stream
open Wire Framing Slave Labelled
open Uart.Forwarding (Item Event Place)

def Item.byte : Item → UInt8
  | .received byte => byte
  | .sent byte => byte

/-- The capacity of `writeCh`. -/
def writeChCap : Nat := 256

structure State where
  machine : Uart.Forwarding.Machine
  connected : Bool
  streamActive : Bool
  /-- Notifications that `bt_nus_send` took and the client has not seen. -/
  air : List (List UInt8)
  writeCh : List (List UInt8)
  file : List UInt8

inductive Act where
  /-- The device's side of the bus. A forwarded slice meets a Bluetooth host. -/
  | uart (event : Event) (host : Ble.Host)
  | connected
  | disconnected
  /-- The client writes `stream` or `stop` to NUS RX. -/
  | write (command : List UInt8)
  /-- The notification callback of the client. -/
  | notify
  /-- The writer goroutine; `f.Write` takes so many bytes. -/
  | append (n : Nat)

/-- What `nus_received` makes of `stream_active`. -/
def streamAfter (active : Bool) (effects : List Ble.Effect) : Bool :=
  effects.foldl (fun active effect =>
    match effect with
    | .streamActive on => on
    | _ => active) active

theorem nusReceived_stream (s : Slave.State) :
    Ble.nusReceived (ascii "stream") s = (s, [.streamActive true]) := rfl

namespace State

/-- Bytes that `ble_transport_forward_rs485` was passed. -/
def forwarded (s : State) : List UInt8 := s.machine.stream.map Item.byte

/-- What the file holds, and what is still on its way there. -/
def captured (s : State) : List UInt8 := s.file ++ s.writeCh.flatten ++ s.air.flatten

section
variable [Zephyr] (env : Env) (clock : Mirror.Clock)

def uart (event : Event) (host : Ble.Host) (s : State) : State :=
  let machine := s.machine.step env clock event
  let data := (machine.stream.drop s.machine.stream.length).map Item.byte
  { s with machine, air := s.air ++ Ble.forwardRs485 s.streamActive s.connected host data }

end

def disconnect (s : State) : State :=
  { s with connected := false, streamActive := false, air := [] }

def write (command : List UInt8) (s : State) : State :=
  let (slave, effects) := Ble.nusReceived command s.machine.slave.traced.state
  { s with
    machine := s.machine.withSlave fun _ => slave
    streamActive := streamAfter s.streamActive effects }

/-- The callback copies the notification into the channel, or drops it. -/
def notify (buf : List UInt8) (rest : List (List UInt8)) (s : State) : State :=
  { s with
    air := rest
    writeCh := if s.writeCh.length < writeChCap then s.writeCh ++ [buf] else s.writeCh }

end State

section
variable [Zephyr]

inductive Step (env : Env) (clock : Mirror.Clock) (s : State) : Act → State → Prop where
  | uart (event : Event) (host : Ble.Host) :
      Step env clock s (.uart event host) (s.uart env clock event host)
  | connected : s.connected = false → Step env clock s .connected { s with connected := true }
  | disconnected : s.connected = true → Step env clock s .disconnected s.disconnect
  | write {command : List UInt8} : s.connected = true →
      command = ascii "stream" ∨ command = ascii "stop" →
      Step env clock s (.write command) (s.write command)
  | notify {buf : List UInt8} {rest : List (List UInt8)} : s.air = buf :: rest →
      Step env clock s .notify (s.notify buf rest)
  | append {data : List UInt8} {rest : List (List UInt8)} {n : Nat} :
      s.writeCh = data :: rest → n ≤ data.length →
      Step env clock s (.append n) { s with file := s.file ++ data.take n, writeCh := rest }

abbrev Run (env : Env) (clock : Mirror.Clock) := Labelled.Run (Step env clock)

/-- Nothing is taken back from the stream. -/
theorem stream_step (env : Env) (clock : Mirror.Clock) (m : Uart.Forwarding.Machine)
    (event : Event) : m.stream <+: (m.step env clock event).stream := by
  cases event with
  | rxRdy src => exact List.prefix_refl _
  | queueMode mode => exact List.prefix_refl _
  | queueSetpoint valueX10 => exact List.prefix_refl _
  | work =>
    change m.stream <+: (m.work env clock).stream
    unfold Uart.Forwarding.Machine.work
    cases m.place with
    | ringBufGet =>
      dsimp only
      split <;> exact List.prefix_refl _
    | forward tmp => exact List.prefix_append ..
    | mirrorFeed tmp => exact List.prefix_refl _
    | slaveFeed tmp => exact List.prefix_refl _
    | inSlaveFeed =>
      cases m.slave.place with
      | idle => exact List.prefix_refl _
      | deciding => exact List.prefix_refl _
      | sending consumed err => exact List.prefix_append ..

/-- A slice is forwarded, and of it what the host takes is sent. -/
theorem uart_captured (env : Env) (clock : Mirror.Clock) (event : Event) (host : Ble.Host)
    (s : State) : ∃ data, (s.uart env clock event host).forwarded = s.forwarded ++ data ∧
      (s.uart env clock event host).captured =
        s.captured ++ (Ble.forwardRs485 s.streamActive s.connected host data).flatten := by
  obtain ⟨slice, grown⟩ := stream_step env clock s.machine event
  refine ⟨slice.map Item.byte, ?_, ?_⟩
  · rw [State.forwarded, State.forwarded, ← List.map_append, grown]
    rfl
  · simp only [State.captured, State.uart, ← grown, List.drop_left, List.flatten_append,
      List.append_assoc]

theorem captured_step {env : Env} {clock : Mirror.Clock} {s s' : State} {a : Act}
    (step : Step env clock s a s') (kept : s.captured.Sublist s.forwarded) :
    s'.captured.Sublist s'.forwarded := by
  cases step with
  | uart event host =>
    obtain ⟨data, forwarded, captured⟩ := uart_captured env clock event host s
    rw [forwarded, captured]
    exact kept.append (Ble.forwardRs485_prefix ..).sublist
  | connected down => exact kept
  | disconnected up =>
    refine List.Sublist.trans ?_ kept
    simp only [State.captured, State.disconnect, List.flatten_nil, List.append_nil]
    exact List.sublist_append_left ..
  | write up command => exact kept
  | @notify buf rest air =>
    refine List.Sublist.trans ?_ kept
    simp only [State.captured, State.notify, air, List.flatten_cons]
    split
    · simp
    · exact (List.Sublist.refl _).append (List.sublist_append_right ..)
  | @append data rest n queued whole =>
    refine List.Sublist.trans ?_ kept
    simp only [State.captured, queued, List.flatten_cons, List.append_assoc]
    apply (List.Sublist.refl _).append
    exact (List.take_sublist ..).append (List.Sublist.refl _)

/-- What the client has is part of what was forwarded, each byte once and in order, and
the device streams to nobody but a central. -/
structure Honest (s : State) : Prop where
  kept : s.captured.Sublist s.forwarded
  attended : s.streamActive = true → s.connected = true
  solid : ∀ buf ∈ s.writeCh ++ s.air, buf ≠ []

omit [Zephyr] in
theorem forwardRs485_solid (streamActive connected : Bool) (host : Ble.Host) (data : List UInt8) :
    ∀ piece ∈ Ble.forwardRs485 streamActive connected host data, piece ≠ [] := by
  cases on : streamActive && connected with
  | false =>
    rw [Ble.forwardRs485_silent on]
    exact List.forall_mem_nil _
  | true =>
    obtain ⟨rfl, rfl⟩ := Bool.and_eq_true_iff.mp on
    exact fun piece member => ((Ble.forwardRs485_forwarded host data).pieces piece member).1

theorem Honest.step {env : Env} {clock : Mirror.Clock} {s s' : State} {a : Act}
    (step : Step env clock s a s') (honest : Honest s) : Honest s' := by
  obtain ⟨kept, attended, solid⟩ := honest
  refine ⟨captured_step step kept, ?_, ?_⟩
  · cases step with
    | uart event host => exact attended
    | connected down => exact fun _ => rfl
    | disconnected up => exact fun on => absurd on (by simp [State.disconnect])
    | write up command => exact fun _ => up
    | notify air => exact attended
    | append queued whole => exact attended
  · cases step with
    | uart event host =>
      intro buf member
      rw [State.uart, ← List.append_assoc] at member
      rcases List.mem_append.mp member with before | new
      · exact solid buf before
      · exact forwardRs485_solid _ _ _ _ buf new
    | connected down => exact solid
    | disconnected up =>
      simp only [State.disconnect, List.append_nil]
      exact (List.forall_mem_append.mp solid).1
    | write up command => exact solid
    | @notify buf rest air =>
      rw [air] at solid
      obtain ⟨queued, inAir⟩ := List.forall_mem_append.mp solid
      obtain ⟨first, later⟩ := List.forall_mem_cons.mp inAir
      refine List.forall_mem_append.mpr ⟨?_, later⟩
      simp only [State.notify]
      split
      · exact List.forall_mem_append.mpr ⟨queued, List.forall_mem_singleton.mpr first⟩
      · exact queued
    | @append data rest n queued whole =>
      rw [queued] at solid
      exact fun buf member => solid buf (List.mem_cons_of_mem _ member)

/-- The steps that keep the echo of a response in its place. -/
def InPlace (env : Env) (s : State) : Act → Prop
  | .uart event _ => event = .work → s.machine.Answers env → s.machine.ring.bytes = []
  | _ => True

/-- The steps at which nothing is lost and the stream goes on. -/
def Lossless (env : Env) (s : State) : Act → Prop
  | .uart event host => InPlace env s (.uart event host) ∧ ∀ off, host.results off = 0
  | .disconnected => False
  | .write command => command = ascii "stream"
  | .notify => s.writeCh.length < writeChCap
  | .append n => s.writeCh.head?.map List.length = some n
  | .connected => True

structure Ordered (s : State) : Prop where
  quiet : s.machine.Quiet
  inOrder : s.machine.InOrder

theorem Ordered.step {env : Env} {clock : Mirror.Clock} {s s' : State} {a : Act}
    (inPlace : InPlace env s a) (step : Step env clock s a s') (ordered : Ordered s) :
    Ordered s' := by
  obtain ⟨quiet, inOrder⟩ := ordered
  cases step with
  | uart event host =>
    exact ⟨Uart.Forwarding.step_quiet env clock quiet event,
      Uart.Forwarding.step_inOrder env clock quiet inOrder event inPlace⟩
  | connected down => exact ⟨quiet, inOrder⟩
  | disconnected up => exact ⟨quiet, inOrder⟩
  | write up command => exact ⟨quiet, inOrder⟩
  | notify air => exact ⟨quiet, inOrder⟩
  | append queued whole => exact ⟨quiet, inOrder⟩

/-- A capture under way: the stream is on, and has been caught since it held so much. -/
structure Catching (before : List UInt8) (since : Nat) (s : State) : Prop where
  active : s.connected = true ∧ s.streamActive = true
  reached : since ≤ s.forwarded.length
  caught : s.captured = before ++ s.forwarded.drop since

theorem Catching.step {env : Env} {clock : Mirror.Clock} {before : List UInt8} {since : Nat}
    {s s' : State} {a : Act} (lossless : Lossless env s a) (step : Step env clock s a s')
    (catching : Catching before since s) : Catching before since s' := by
  obtain ⟨active, reached, caught⟩ := catching
  cases step with
  | uart event host =>
    obtain ⟨data, forwarded, captured⟩ := uart_captured env clock event host s
    refine ⟨active, ?_, ?_⟩
    · rw [forwarded, List.length_append]
      omega
    · rw [captured, active.1, active.2, Ble.forwardRs485_whole lossless.2, caught, forwarded,
        List.drop_append_of_le_length reached, List.append_assoc]
  | connected down =>
    rw [active.1] at down
    contradiction
  | disconnected up => contradiction
  | write up command =>
    obtain rfl : _ = ascii "stream" := lossless
    have on : streamAfter s.streamActive
        (Ble.nusReceived (ascii "stream") s.machine.slave.traced.state).2 = true := by
      rw [nusReceived_stream]
      rfl
    exact ⟨⟨active.1, on⟩, reached, caught⟩
  | @notify buf rest air =>
    refine ⟨active, reached, Eq.trans ?_ caught⟩
    have room : s.writeCh.length < writeChCap := lossless
    simp [State.captured, State.notify, air, room]
  | @append data rest n queued whole =>
    refine ⟨active, reached, Eq.trans ?_ caught⟩
    have all : s.writeCh.head?.map List.length = some n := lossless
    rw [queued, List.head?_cons, Option.map_some, Option.some.injEq] at all
    simp [State.captured, queued, ← all]

/-- After boot, with whatever the slave and the mirror have seen before. -/
def start (mirror : Accumulator UInt8 Mirror.accumSize × Mirror.Traced)
    (slave : Accumulator UInt8 Slave.accumSize × Slave.Traced) : State :=
  ⟨.start mirror slave, false, false, [], [], []⟩

/-- Over any run, with the central coming and going and any sends failing. -/
theorem capture_honest {env : Env} {clock : Mirror.Clock}
    {mirror : Accumulator UInt8 Mirror.accumSize × Mirror.Traced}
    {slave : Accumulator UInt8 Slave.accumSize × Slave.Traced} {acts : List Act} {y : State}
    (run : Run env clock (start mirror slave) acts y) :
    y.file.Sublist y.forwarded ∧ Honest y := by
  have honest : Honest y := run.invariant Honest Honest.step
    ⟨List.Sublist.refl _, fun on => absurd on Bool.false_ne_true, List.forall_mem_nil _⟩
  refine ⟨List.Sublist.trans ?_ honest.kept, honest⟩
  rw [State.captured, List.append_assoc]
  exact List.sublist_append_left ..

/-- A capture that starts when the stream is on holds the bus traffic from there on: what
is in the file, on the way to it and still to be forwarded is what was on the bus. -/
theorem capture_complete {env : Env} {clock : Mirror.Clock}
    {mirror : Accumulator UInt8 Mirror.accumSize × Mirror.Traced}
    {slave : Accumulator UInt8 Slave.accumSize × Slave.Traced} {before after : List Act}
    {x y : State}
    (first : Labelled.Run (Guarded (InPlace env) (Step env clock)) (start mirror slave) before x)
    (active : x.connected = true ∧ x.streamActive = true)
    (later : Labelled.Run (Guarded (Lossless env) (Step env clock)) x after y) :
    y.captured ++ y.machine.waiting.map Item.byte =
      x.captured ++ (y.machine.bus.drop x.machine.stream.length).map Item.byte := by
  have ordered : Ordered x := first.invariant Ordered (fun step => .step step.1 step.2)
    ⟨fun _ => rfl, rfl⟩
  have reached : Ordered y ∧ Catching x.captured x.forwarded.length y := by
    refine later.invariant (fun s => Ordered s ∧ Catching x.captured x.forwarded.length s) ?_
      ⟨ordered, active, le_refl _, ?_⟩
    · rintro s a t ⟨lossless, step⟩ ⟨ordered, catching⟩
      refine ⟨ordered.step ?_ step, catching.step lossless step⟩
      cases a with
      | uart event host => exact lossless.1
      | _ => trivial
    · rw [List.drop_length, List.append_nil]
  obtain ⟨ordered, active, reached, caught⟩ := reached
  have bus : y.machine.stream ++ y.machine.waiting = y.machine.bus := ordered.inOrder
  have length : x.machine.stream.length ≤ y.machine.stream.length := by
    rw [State.forwarded, State.forwarded, List.length_map, List.length_map] at reached
    exact reached
  rw [caught, List.append_assoc, State.forwarded, State.forwarded, List.length_map, ← List.map_drop,
    ← List.map_append, ← List.drop_append_of_le_length length, bus]

end

/-- The bus carries two bytes, once the client has asked for the stream. -/
def attaching : List Act := [.connected, .write (ascii "stream")]

def catching (host : Ble.Host) : List Act :=
  [.uart (.rxRdy [0x00, 0x10]) host, .uart .work host, .uart .work host, .notify, .append 2]

theorem two_bytes_caught :
    let env : Env := ⟨fun _ => 0, fun _ => .ok⟩
    let start := start Mirror.booted (Slave.booted (Vector.replicate 64 0))
    ∃ x y, Labelled.Run (Guarded (InPlace env) (Step env fun _ => 0)) start attaching x ∧
      (x.connected = true ∧ x.streamActive = true) ∧ x.machine.stream = [] ∧ x.captured = [] ∧
      Labelled.Run (Guarded (Lossless env) (Step env fun _ => 0)) x
        (catching ⟨23, fun _ => 0⟩) y ∧ y.file = [0x00, 0x10] := by
  intro env start
  refine ⟨_, _, .next ⟨trivial, .connected rfl⟩ (.next ⟨trivial, .write rfl (.inl rfl)⟩ (.refl _)),
    ⟨rfl, rfl⟩, rfl, rfl,
    .next ⟨⟨fun work => ?_, fun _ => rfl⟩, .uart _ _⟩
      (.next ⟨⟨fun _ answers => absurd answers.1 ?_, fun _ => rfl⟩, .uart _ _⟩
      (.next ⟨⟨fun _ answers => absurd answers.1 ?_, fun _ => rfl⟩, .uart _ _⟩
      (.next ⟨?_, .notify rfl⟩ (.next ⟨rfl, .append rfl (by decide)⟩ (.refl _))))), ?_⟩
  · contradiction
  · exact (by simp : Place.ringBufGet ≠ .inSlaveFeed)
  · exact (by simp : Place.forward _ ≠ .inSlaveFeed)
  · exact Nat.zero_lt_succ _
  · rfl

/-- A host that has no buffer for the second notification of a slice. -/
def crowded : Ble.Host := ⟨23, fun off => if off = 20 then -12 else 0⟩

def crowding : List Act :=
  attaching ++ [.uart (.rxRdy (.replicate 21 0x10)) crowded, .uart .work crowded,
    .uart .work crowded, .notify, .append 20, .disconnected]

/-- Of 21 bytes the first notification arrives, and the second one is dropped. -/
theorem capture_honest_dropped : ∃ y, Run ⟨fun _ => 0, fun _ => .ok⟩ (fun _ => 0)
      (start Mirror.booted (Slave.booted (Vector.replicate 64 0))) crowding y ∧
    y.file = .replicate 20 0x10 ∧ y.forwarded = .replicate 21 0x10 ∧
      y.file.Sublist y.forwarded ∧ Honest y := by
  have run : ∃ y, Run ⟨fun _ => 0, fun _ => .ok⟩ (fun _ => 0)
      (start Mirror.booted (Slave.booted (Vector.replicate 64 0))) crowding y ∧
      y.file = .replicate 20 0x10 ∧ y.forwarded = .replicate 21 0x10 :=
    ⟨_, .next (.connected rfl) (.next (.write rfl (.inl rfl)) (.next (.uart _ _)
      (.next (.uart _ _) (.next (.uart _ _) (.next (.notify rfl) (.next (.append rfl (by decide))
      (.next (.disconnected rfl) (.refl _)))))))), rfl, rfl⟩
  obtain ⟨y, run, file, forwarded⟩ := run
  exact ⟨y, run, file, forwarded, capture_honest run⟩

theorem capture_complete_two : ∃ x y : State, y.file = [0x00, 0x10] ∧
    y.captured ++ y.machine.waiting.map Item.byte =
      x.captured ++ (y.machine.bus.drop x.machine.stream.length).map Item.byte := by
  obtain ⟨x, y, first, active, _, _, later, file⟩ := two_bytes_caught
  exact ⟨x, y, file, capture_complete first active later⟩

end FlexitCs60.Client.Stream
