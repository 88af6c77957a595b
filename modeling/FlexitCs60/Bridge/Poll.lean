import FlexitCs60.Gateway.Threads

/-! `bridge_work_fn`: what an execution pushes, and the system with the bridge as
the only caller of the setters. -/
namespace FlexitCs60.Bridge
open Mirror (Uptime)

/-- The setter calls for a snapshot, in the order of the source. -/
def pushes (st : Mirror.State) : List Zigbee.Setter :=
  let alarm (flag : UInt8) : Bool := st.alarms &&& flag ≠ 0
  [.temperature .supply (.ofInt (st.tempSupplyAirX10.toInt * 10)),
    .intakeTemp st.tempOutdoorAirX10,
    .percent .heatExchanger st.pctHeatExchanger,
    .percent .heating st.pctHeating,
    .setpoint st.tempSetpoint2X10,
    .binary .supplySensor (alarm Mirror.alarmSupplySensor),
    .binary .outdoorSensor (alarm Mirror.alarmOutdoorSensor),
    .binary .heatExchanger (alarm Mirror.alarmHeatExchanger),
    .binary .overheat (alarm Mirror.alarmOverheat),
    .binary .filter (alarm Mirror.alarmFilter)] ++
  if st.mode ≤ 3 then [.mode st.mode.toUInt8] else []

/-- From a snapshot and the static frame count: the new count, and the calls. -/
def bridgeWorkFn (st : Mirror.State) (pushedFc10Frames : UInt32) : UInt32 × List Zigbee.Setter :=
  if st.fc10Frames ≠ pushedFc10Frames then (st.fc10Frames, pushes st) else (pushedFc10Frames, [])

/-- An execution: what had arrived at its snapshot, and the calls it makes. -/
structure Execution where
  arrivals : List (Uptime × List UInt8)
  calls : List Zigbee.Setter

structure State where
  gateway : Gateway.State
  pushedFc10Frames : UInt32
  /-- The calls an execution under way has still to make. -/
  due : List Zigbee.Setter
  executions : List Execution

def boot : State := ⟨Gateway.boot, 0, [], []⟩

inductive Act where
  | gateway (act : Gateway.Act)
  | work
  | call (call : Zigbee.Setter)
  deriving DecidableEq, Repr

def Act.gateway? : Act → Option Gateway.Act
  | .gateway act => some act
  | .work => none
  | .call made => some (.zigbee (.set made))

def State.arrivals (s : State) : List (Uptime × List UInt8) := s.gateway.listener.arrivals

/-- The snapshot is taken, and the calls are due. -/
def State.work (s : State) : State :=
  let (count, calls) := bridgeWorkFn s.gateway.listener.traced.state s.pushedFc10Frames
  { s with
    pushedFc10Frames := count
    due := calls
    executions := s.executions ++ [⟨s.arrivals, calls⟩] }

variable [Zephyr]

/-- Executions follow each other on the work queue; the calls of one are steps of
their own. Nobody else calls a setter. -/
inductive Step (t : Uptime) (s : State) : Act → State → Prop where
  | gateway {act : Gateway.Act} {g : Gateway.State} : (∀ call, act ≠ .zigbee (.set call)) →
      Gateway.Step t s.gateway act g → Step t s (.gateway act) { s with gateway := g }
  | work : s.due = [] → Step t s .work s.work
  | call {call : Zigbee.Setter} {rest : List Zigbee.Setter} {g : Gateway.State} :
      s.due = call :: rest → Gateway.Step t s.gateway (.zigbee (.set call)) g →
      Step t s (.call call) { s with gateway := g, due := rest }

abbrev Run := Timed.Run Step

/-- What a status block is turned into. -/
def frameCalls (frame : List UInt8) : List Zigbee.Setter := pushes (Mirror.blockStatus frame)

omit [Zephyr] in
/-- An execution reads nothing but the status fields. -/
theorem pushes_status (st : Mirror.State) : pushes (Mirror.status st) = pushes st := rfl

omit [Zephyr] in
theorem pushes_ne_nil (st : Mirror.State) : pushes st ≠ [] := by
  simp [pushes]

omit [Zephyr] in
/-- A mode is pushed as the block has it, if it is one the panel can set. -/
theorem mode_mem_pushes {st : Mirror.State} {v : UInt8} :
    .mode v ∈ pushes st ↔ st.mode ≤ 3 ∧ v = st.mode.toUInt8 := by
  unfold pushes
  split
  · rename_i small
    simp [small]
  · rename_i large
    simp [large]

end FlexitCs60.Bridge
