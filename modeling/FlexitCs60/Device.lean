import FlexitCs60.Bridge
import FlexitCs60.Ble.Nus
import FlexitCs60.Slave.Coupling

/-! Every way into the command slots: bytes from the bus, BLE payloads and Zigbee
attribute writes, in any order. -/
namespace FlexitCs60.Device
open Wire Framing Slave Slave.Commands

/-- A client's setpoint, within the range of the conversion to `int32_t`. -/
abbrev SetpointValue := {v : ℚ // |v| < 2 ^ 31}

inductive Op where
  | feed (data : List UInt8)
  | nusReceived (data : List UInt8)
  | fanModeWrite (fanMode : UInt8)
  | setpointWrite (uptime : ℤ) (valueDc : SetpointValue)

/-- The device, with each handled frame recorded together with the slave state it
was handled in. -/
structure Machine where
  accum : Accumulator UInt8 accumSize
  traced : Traced
  record : List (Slave.State × Handled)
  pending : Zigbee.Pending

section
variable [Zephyr]

/-- The matcher, recording the state before each frame it handles. -/
def recording (env : Env) (accum : List UInt8) (accumLen : Nat)
    (x : Traced × List (Slave.State × Handled)) : Nat × (Traced × List (Slave.State × Handled)) :=
  let (consumed, traced) := tryDecodeAtFront env accum accumLen x.1
  (consumed, traced, x.2 ++ (traced.handled.drop x.1.handled.length).map (x.1.state, ·))

/-- Recording changes nothing about the feed. -/
theorem recording_feed (env : Env) (a : Accumulator UInt8 accumSize)
    (x : Traced × List (Slave.State × Handled)) (data : List UInt8) :
    flexitSlaveFeed env (a, x.1) data =
      ((Accumulator.feed (recording env) (a, x) data).1,
        (Accumulator.feed (recording env) (a, x) data).2.1) :=
  Accumulator.feed_erase (fun _ _ _ => rfl) a x data

/-- A call that reaches the slave's tables only. -/
def withSlave (f : Slave.State → Slave.State) (m : Machine) : Machine :=
  { m with traced := { m.traced with state := f m.traced.state } }

def step (env : Env) (m : Machine) : Op → Machine
  | .feed data =>
    let out := flexitSlaveFeed env (m.accum, m.traced) data
    let record := (Accumulator.feed (recording env) (m.accum, m.traced, m.record) data).2.2
    { m with accum := out.1, traced := out.2, record }
  | .nusReceived data => withSlave (fun s => (Ble.nusReceived data s).1) m
  | .fanModeWrite fanMode => withSlave (Bridge.fanModeWrite fanMode) m
  | .setpointWrite uptime valueDc =>
    { withSlave (fun s => (Bridge.setpointWrite uptime valueDc m.pending s).2) m with
      pending := (Zigbee.handleSetpointWrite uptime valueDc m.pending).1 }

theorem step_feed (env : Env) (m : Machine) (data : List UInt8) :
    let out := Accumulator.feed (recording env) (m.accum, m.traced, m.record) data
    step env m (.feed data) = { m with accum := out.1, traced := out.2.1, record := out.2.2 } := by
  have same := recording_feed env m.accum (m.traced, m.record) data
  simp only [step, same]

def boot (cells : Vector UInt8 accumSize) : Machine :=
  ⟨(booted cells).1, (booted cells).2, [], Zigbee.bootPending⟩

def run (env : Env) (cells : Vector UInt8 accumSize) (ops : List Op) : Machine :=
  ops.foldl (step env) (boot cells)

/-- The slave is coupled, was so whenever it handled a frame, and answered
truthfully. -/
structure Sound (s : Slave.State) (record : List (Slave.State × Handled)) : Prop where
  now : Coupled s
  recorded : ∀ e ∈ record, Coupled e.1 ∧ Truthful e.1 e.2

theorem sound_recording (env : Env) (accum : List UInt8) (accumLen : Nat)
    (x : Traced × List (Slave.State × Handled)) (sound : Sound x.1.state x.2) :
    Sound (recording env accum accumLen x).2.1.state (recording env accum accumLen x).2.2 := by
  rcases tryDecodeAtFront_cases env accum accumLen x.1 with same | bumped | ⟨frame, _, accepted⟩
  · simp only [recording, same, List.drop_length, List.map_nil, List.append_nil]
    exact sound
  · simp only [recording, bumped, List.drop_length, List.map_nil, List.append_nil]
    exact ⟨coupled_uncounted sound.now (bumpCrcFailure_uncounted _), sound.recorded⟩
  · simp only [recording, accepted, accept, List.drop_left, List.map_singleton]
    refine ⟨coupled_handleFrame _ _ frame sound.now, fun e member => ?_⟩
    rcases List.mem_append.mp member with earlier | new
    · exact sound.recorded e earlier
    · obtain rfl := List.mem_singleton.mp new
      exact ⟨sound.now, truthful_handleFrame _ _ frame sound.now⟩

omit [Zephyr] in
theorem coupled_nusReceived (data : List UInt8) {s : Slave.State} (coupled : Coupled s) :
    Coupled (Ble.nusReceived data s).1 := by
  rcases Ble.nusReceived_queues data s with same | ⟨mode, queued⟩ | ⟨dc, queued⟩
  · rwa [same]
  · rw [queued]
    exact coupled_queueMode mode coupled
  · rw [queued]
    apply coupled_queueSetpoint _ coupled
    obtain ⟨lower, upper⟩ := Ble.clampTenths_bounds dc
    have word : (UInt16.ofNat (Ble.clampTenths dc)).toNat = Ble.clampTenths dc := by
      rw [UInt16.toNat_ofNat']
      omega
    constructor <;> omega

omit [Zephyr] in
theorem coupled_fanModeWrite (fanMode : UInt8) {s : Slave.State} (coupled : Coupled s) :
    Coupled (Bridge.fanModeWrite fanMode s) := by
  unfold Bridge.fanModeWrite
  split
  · exact coupled_queueMode _ coupled
  · exact coupled

omit [Zephyr] in
theorem coupled_setpointWrite (uptime : ℤ) (valueDc : ℚ) (p : Zigbee.Pending) {s : Slave.State}
    (coupled : Coupled s) : Coupled (Bridge.setpointWrite uptime valueDc p s).2 := by
  apply coupled_queueSetpoint _ coupled
  have word := Bridge.setpoint_word
    (Zigbee.truncate (valueDc + if valueDc ≥ 0 then 1 / 2 else -1 / 2))
  constructor <;> omega

theorem sound_step (env : Env) {m : Machine} (sound : Sound m.traced.state m.record) (op : Op) :
    Sound (step env m op).traced.state (step env m op).record := by
  cases op with
  | feed data =>
    rw [step_feed]
    exact Accumulator.feed_induction (sound_recording env) m.accum (m.traced, m.record) data sound
  | nusReceived data => exact ⟨coupled_nusReceived data sound.now, sound.recorded⟩
  | fanModeWrite fanMode => exact ⟨coupled_fanModeWrite fanMode sound.now, sound.recorded⟩
  | setpointWrite uptime valueDc =>
    exact ⟨coupled_setpointWrite uptime valueDc m.pending sound.now, sound.recorded⟩

/-- Nothing on the bus changes which command is pending. -/
theorem pending_feed (env : Env) (m : Machine) (data : List UInt8) (slot : Slot) :
    slot.pending (step env m (.feed data)).traced.state = slot.pending m.traced.state := by
  have turn : ∀ accum accumLen (x : Traced × List (Slave.State × Handled)),
      slot.pending x.1.state = slot.pending m.traced.state →
      slot.pending (recording env accum accumLen x).2.1.state = slot.pending m.traced.state := by
    intro accum accumLen x kept
    refine Eq.trans ?_ kept
    change slot.pending (tryDecodeAtFront env accum accumLen x.1).2.state = _
    rcases tryDecodeAtFront_cases env accum accumLen x.1 with same | bumped | ⟨frame, _, accepted⟩
    · rw [same]
    · rw [bumped]
      cases slot <;> rfl
    · rw [accepted]
      exact pending_handleFrame slot _ _ frame x.1.state
  rw [step_feed]
  exact Accumulator.feed_induction turn m.accum (m.traced, m.record) data rfl

/-- In every run the command slots are coupled, also in the middle of a feed. Every
answer to a read of a raised slot carries the pending command, which is the latest
queued one: no feed changes it. -/
theorem command_slots_coupled (env : Env) (cells : Vector UInt8 accumSize) (ops : List Op) :
    Coupled (run env cells ops).traced.state ∧
      (∀ e ∈ (run env cells ops).record, Coupled e.1 ∧ Truthful e.1 e.2) ∧
      ∀ (data : List UInt8) (slot : Slot),
        slot.pending (step env (run env cells ops) (.feed data)).traced.state =
          slot.pending (run env cells ops).traced.state := by
  have general : ∀ m : Machine, Sound m.traced.state m.record →
      Sound (ops.foldl (step env) m).traced.state (ops.foldl (step env) m).record := by
    induction ops with
    | nil => exact fun m sound => sound
    | cons op rest ih => exact fun m sound => ih _ (sound_step env sound op)
  have sound := general (boot cells) ⟨coupled_init, fun e member => by contradiction⟩
  exact ⟨sound.now, sound.recorded, pending_feed env _⟩

end
end FlexitCs60.Device
