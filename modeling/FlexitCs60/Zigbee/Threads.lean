import FlexitCs60.Zigbee.Publish
import FlexitCs60.System.Timed

/-! The two threads of the Zigbee data model. Setters run on any thread, each
under the lock; attribute writes and ticks run one at a time on the ZBOSS thread,
and setters fall between their steps. -/
namespace FlexitCs60.Zigbee

/-- A call of a public setter. -/
inductive Setter where
  | temperature (ch : TempChannel) (centiCelsius : Int16)
  | percent (ch : AnalogChannel) (percent : UInt16)
  | binary (ch : BinaryChannel) (active : Bool)
  | intakeTemp (valueDc : Int16)
  | mode (flexitMode : UInt8)
  | setpoint (valueDc : Int16)
  deriving DecidableEq, Repr

def Setter.call (uptime : ℤ) : Setter → Pending → Pending
  | .temperature ch v => setTemperature uptime ch v
  | .percent ch v => setPercent ch v
  | .binary ch v => setBinary ch v
  | .intakeTemp v => setIntakeTemp v
  | .mode v => setMode v
  | .setpoint v => setSetpoint uptime v

/-- Where the ZBOSS thread is. -/
inductive Zboss where
  | idle
  /-- A setpoint is stored in its attribute and `handle_setpoint_write` is due. -/
  | written (valueDc : ℚ)
  /-- The tick holds a copy of the latches. -/
  | publishing (copy : Latches)

structure State where
  pending : Pending
  published : Published
  zboss : Zboss

def boot : State := ⟨bootPending, bootPublished, .idle⟩

/-- `PresentValue` of the setpoint endpoint. -/
def State.presentValue (s : State) : ℚ := s.published.attrs.analogValue .setpoint

inductive Act where
  | set (call : Setter)
  /-- The stack stores a fan mode; the handler changes nothing modelled here. -/
  | writeFanMode (fanMode : UInt8)
  /-- The stack stores a setpoint. -/
  | storeSetpoint (valueDc : ℚ)
  | handleSetpointWrite
  | copyLatches
  | publishCopy (linkUp : Bool)
  deriving DecidableEq, Repr

namespace State

def set (uptime : ℤ) (call : Setter) (s : State) : State :=
  { s with pending := call.call uptime s.pending }

def storeFanMode (v : UInt8) (s : State) : State :=
  { s with published := { s.published with attrs := writeFanMode .ctrl v s.published.attrs } }

def storeSetpoint (v : ℚ) (s : State) : State :=
  { s with
    published := { s.published with attrs := writeAnalogValue .setpoint v s.published.attrs }
    zboss := .written v }

def handleSetpointWrite (uptime : ℤ) (v : ℚ) (s : State) : State :=
  { s with
    pending := (Zigbee.handleSetpointWrite uptime v s.pending).1
    zboss := .idle }

def copyLatches (s : State) : State :=
  { s with
    pending := (Zigbee.copyLatches s.pending).2
    zboss := .publishing (Zigbee.copyLatches s.pending).1 }

def publishCopy (uptime : ℤ) (linkUp : Bool) (copy : Latches) (s : State) : State :=
  { s with
    published := Zigbee.publishCopy uptime linkUp copy s.published
    zboss := .idle }

variable (uptime : ℤ) (s : State)

@[simp] theorem zboss_storeSetpoint (v : ℚ) : (s.storeSetpoint v).zboss = .written v := rfl
@[simp] theorem zboss_handleSetpointWrite (v : ℚ) :
    (s.handleSetpointWrite uptime v).zboss = .idle := rfl
@[simp] theorem zboss_copyLatches :
    s.copyLatches.zboss = .publishing (Zigbee.copyLatches s.pending).1 := rfl
@[simp] theorem zboss_publishCopy (linkUp : Bool) (copy : Latches) :
    (s.publishCopy uptime linkUp copy).zboss = .idle := rfl

@[simp] theorem presentValue_storeSetpoint (v : ℚ) : (s.storeSetpoint v).presentValue = v := by
  simp [State.presentValue, storeSetpoint, writeAnalogValue]

/-- The tick writes the setpoint attribute from its copy of the setpoint latch. -/
theorem presentValue_publishCopy (linkUp : Bool) (copy : Latches) :
    (s.publishCopy uptime linkUp copy).presentValue =
      if copy.setpoint.dirty then copy.setpoint.val else s.presentValue :=
  publishCopy_analogValue ..

end State

/-- One step at an uptime, from the place the ZBOSS thread must be in for it. -/
inductive Step (uptime : ℤ) (s : State) : Act → State → Prop where
  | set (call : Setter) : Step uptime s (.set call) (s.set uptime call)
  | writeFanMode (v : UInt8) : s.zboss = .idle → Step uptime s (.writeFanMode v) (s.storeFanMode v)
  | storeSetpoint (v : ℚ) : s.zboss = .idle → Step uptime s (.storeSetpoint v) (s.storeSetpoint v)
  | handleSetpointWrite (v : ℚ) : s.zboss = .written v →
      Step uptime s .handleSetpointWrite (s.handleSetpointWrite uptime v)
  | copyLatches : s.zboss = .idle → Step uptime s .copyLatches s.copyLatches
  | publishCopy (linkUp : Bool) (copy : Latches) : s.zboss = .publishing copy →
      Step uptime s (.publishCopy linkUp) (s.publishCopy uptime linkUp copy)

abbrev Run := Timed.Run Step

/-- One `publish_tick`. Setters may fall between its copy and its writes. -/
def publishTick (copied : ℤ) (during : List (ℤ × Setter)) (now : ℤ) (linkUp : Bool) :
    List (ℤ × Act) :=
  (copied, .copyLatches) :: (during.map fun e => (e.1, .set e.2)) ++ [(now, .publishCopy linkUp)]

/-- While a tick publishes, setters leave its copy and the attributes alone. -/
theorem publishing_run {copy : Latches} {during : List (ℤ × Setter)} {x y : ℤ × State} {now : ℤ}
    {linkUp : Bool} (place : x.2.zboss = .publishing copy)
    (run : Run x ((during.map fun e => (e.1, .set e.2)) ++ [(now, .publishCopy linkUp)]) y) :
    y.1 = now ∧ y.2.zboss = .idle ∧
      y.2.published = Zigbee.publishCopy now linkUp copy x.2.published := by
  induction during generalizing x with
  | nil =>
    cases run with
    | next ordered step rest =>
      cases rest with
      | refl =>
        cases step with
        | publishCopy linkUp held publishing =>
          cases place.symm.trans publishing
          exact ⟨rfl, rfl, rfl⟩
  | cons first during ih =>
    cases run with
    | next ordered step rest =>
      cases step with
      | set call =>
        exact @ih (first.1, State.set first.1 first.2 _) place rest

/-- What a whole tick writes, from the latches it found. -/
theorem publishTick_published {copied now : ℤ} {during : List (ℤ × Setter)} {linkUp : Bool}
    {x y : ℤ × State} (run : Run x (publishTick copied during now linkUp) y) :
    y.1 = now ∧ x.1 ≤ now ∧ x.2.zboss = .idle ∧ y.2.zboss = .idle ∧
      y.2.published = Zigbee.publishCopy now linkUp x.2.pending.toLatches x.2.published := by
  cases run with
  | next ordered step rest =>
    cases step with
    | copyLatches idle =>
      obtain ⟨time, place, published⟩ := publishing_run rfl rest
      exact ⟨time, ordered.trans (time ▸ rest.ordered), idle, place, published⟩

end FlexitCs60.Zigbee
