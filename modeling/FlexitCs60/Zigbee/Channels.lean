import FlexitCs60.System.Latched
import FlexitCs60.Zigbee.Threads

/-! The analog and binary channels, each a latched cell of its own: what the two
threads do to a channel is what its own setters and the ticks do to one cell. -/
namespace FlexitCs60.Zigbee
open Latched

inductive Channel where
  | analog (ch : AnalogChannel)
  | binary (ch : BinaryChannel)
  deriving DecidableEq, Repr

abbrev Channel.Value : Channel → Type
  | .analog _ => ℚ
  | .binary _ => Bool

def Latches.channel (l : Latches) : (c : Channel) → Latch c.Value
  | .analog ch => l.analog ch
  | .binary ch => l.binary ch

/-- `PresentValue` of the channel's input cluster. -/
def Attributes.input (a : Attributes) : (c : Channel) → c.Value
  | .analog ch => a.analogInput (analogEpId ch)
  | .binary ch => a.binaryInput (binaryEpId ch)

/-- The value a setter call latches for a channel. -/
def Setter.value? : Setter → (c : Channel) → Option c.Value
  | .percent ch v, .analog ch' => if ch = ch' then some (v.toNat : ℚ) else none
  | .intakeTemp valueDc, .analog .intakeTemp => some (Binary32.round (valueDc.toInt / 10))
  | .binary ch active, .binary ch' => if ch = ch' then some active else none
  | _, _ => none

/-- What an action is to a channel. -/
def view (c : Channel) : Act → Option (Event c.Value)
  | .set call => (call.value? c).map .set
  | .copyLatches => some .copy
  | .publishCopy _ => some .publish
  | _ => none

/-- The value a copied latch still has to publish. -/
def Latch.due {α : Type} (l : Latch α) : Option α := if l.dirty then some l.val else none

theorem Latch.due_getD {α : Type} (l : Latch α) (shown : α) :
    (if l.dirty then l.val else shown) = l.due.getD shown := by
  unfold due
  split <;> rfl

def Zboss.due (c : Channel) : Zboss → Option c.Value
  | .publishing copy => (copy.channel c).due
  | _ => none

/-- One channel of a state. -/
def State.cell (c : Channel) (s : State) : Cell c.Value where
  latched := (s.pending.channel c).val
  dirty := (s.pending.channel c).dirty
  copied := s.zboss.due c
  shown := s.published.attrs.input c

/-- A setter latches its own channel and leaves the others alone. -/
theorem call_channel (c : Channel) (call : Setter) (uptime : ℤ) (p : Pending) :
    (call.call uptime p).channel c =
      match call.value? c with
      | some v => .fresh v
      | none => p.channel c := by
  cases call with
  | temperature ch v => cases c <;> rfl
  | percent ch v =>
    cases c with
    | analog ch' =>
      by_cases same : ch = ch'
      · simp [same, Setter.value?, Setter.call, setPercent, Latches.channel]
      · simp [same, Ne.symm same, Setter.value?, Setter.call, setPercent, Latches.channel]
    | binary ch' => rfl
  | binary ch v =>
    cases c with
    | analog ch' => rfl
    | binary ch' =>
      by_cases same : ch = ch'
      · simp [same, Setter.value?, Setter.call, setBinary, Latches.channel]
      · simp [same, Ne.symm same, Setter.value?, Setter.call, setBinary, Latches.channel]
  | intakeTemp v =>
    cases c with
    | analog ch' => cases ch' <;> rfl
    | binary ch' => rfl
  | mode v =>
    change (setMode v p).channel c = p.channel c
    unfold setMode
    split <;> rfl
  | setpoint v =>
    change (setSetpoint uptime v p).channel c = p.channel c
    unfold setSetpoint
    split <;> rfl

theorem publishCopy_input (c : Channel) (now : ℤ) (linkUp : Bool) (copy : Latches) (x : Published) :
    (publishCopy now linkUp copy x).attrs.input c =
      (copy.channel c).due.getD (x.attrs.input c) := by
  cases c with
  | analog ch =>
    refine (publishCopy_analogInput now linkUp copy x ch).trans ?_
    exact (copy.analog ch).due_getD _
  | binary ch =>
    refine (publishCopy_binaryInput now linkUp copy x ch).trans ?_
    exact (copy.binary ch).due_getD _

/-- Every step of the threads is a step of the cell, or none of its business. -/
theorem cell_step (c : Channel) {uptime : ℤ} {s s' : State} {a : Act} (step : Step uptime s a s') :
    s'.cell c = match view c a with
      | some e => (s.cell c).step e
      | none => s.cell c := by
  cases step with
  | set call =>
    have latch := call_channel c call uptime s.pending
    simp only [State.cell, State.set, view, latch]
    cases call.value? c with
    | none => rfl
    | some v => rfl
  | writeFanMode v idle => cases c <;> rfl
  | storeSetpoint v idle =>
    simp only [State.cell, State.storeSetpoint, view, idle]
    cases c <;> rfl
  | handleSetpointWrite v written =>
    simp only [State.cell, State.handleSetpointWrite, view, written]
    cases c <;> rfl
  | copyLatches idle =>
    simp only [State.cell, State.copyLatches, view, idle]
    cases c <;> rfl
  | publishCopy linkUp copy publishing =>
    simp only [State.cell, State.publishCopy, view, publishing, publishCopy_input]
    rfl

theorem cell_run (c : Channel) {x y : ℤ × State} {events : List (ℤ × Act)} (run : Run x events y) :
    y.2.cell c = (x.2.cell c).run (events.filterMap fun e => view c e.2) := by
  induction run with
  | refl => rfl
  | next _ head _ ih =>
    rw [ih, cell_step c head, List.filterMap_cons]
    cases view c _ with
    | none => rfl
    | some e => rfl

/-- The state of the link cache and the attribute it stands for. -/
theorem linkCached_run {x y : ℤ × State} {events : List (ℤ × Act)}
    (run : Run x events y)
    (initial : ∀ up, x.2.published.cs60LinkState = some up →
      x.2.published.attrs.binaryInput .setpoint = up) :
    ∀ up, y.2.published.cs60LinkState = some up →
      y.2.published.attrs.binaryInput .setpoint = up := by
  refine run.invariant (fun s => ∀ up, s.published.cs60LinkState = some up →
    s.published.attrs.binaryInput .setpoint = up) ?_ initial
  intro t s a s' step cached up
  cases step with
  | set call => exact cached up
  | writeFanMode v idle => exact cached up
  | storeSetpoint v idle => exact cached up
  | handleSetpointWrite v written => exact cached up
  | copyLatches idle => exact cached up
  | publishCopy linkUp copy publishing =>
    intro same
    change (publishCopy t linkUp copy s.published).cs60LinkState = some up at same
    change (publishCopy t linkUp copy s.published).attrs.binaryInput .setpoint = up
    rw [publishCopy_cs60LinkState] at same
    rw [publishCopy_link, ← Option.some.inj same]
    split
    · exact cached linkUp ‹_›
    · rfl

/-- Where the ZBOSS thread is, leaving aside what it copied. -/
def Zboss.stage : Zboss → Option (Option ℚ)
  | .idle => none
  | .written v => some (some v)
  | .publishing _ => some none

theorem stage_idle {z : Zboss} (idle : z.stage = none) : z = .idle := by
  cases z with
  | idle => rfl
  | _ => contradiction

/-- What the latches hold decides nothing about which steps are possible. -/
theorem stage_step {t : ℤ} {s s' r : State} {a : Act} (step : Step t s a s')
    (place : s.zboss.stage = r.zboss.stage) :
    ∃ r', Step t r a r' ∧ s'.zboss.stage = r'.zboss.stage := by
  cases step with
  | set call => exact ⟨_, .set call, place⟩
  | writeFanMode v idle =>
    rw [idle] at place
    exact ⟨_, .writeFanMode v (stage_idle place.symm), by rw [State.storeFanMode, idle, place]; rfl⟩
  | storeSetpoint v idle =>
    rw [idle] at place
    exact ⟨_, .storeSetpoint v (stage_idle place.symm), rfl⟩
  | handleSetpointWrite v written =>
    rw [written] at place
    cases there : r.zboss with
    | written w =>
      rw [there] at place
      cases place
      exact ⟨_, .handleSetpointWrite v there, rfl⟩
    | _ => simp [there, Zboss.stage] at place
  | copyLatches idle =>
    rw [idle] at place
    exact ⟨_, .copyLatches (stage_idle place.symm), rfl⟩
  | publishCopy linkUp copy publishing =>
    rw [publishing] at place
    cases there : r.zboss with
    | publishing copy' => exact ⟨_, .publishCopy linkUp copy' there, rfl⟩
    | _ => simp [there, Zboss.stage] at place

end FlexitCs60.Zigbee
