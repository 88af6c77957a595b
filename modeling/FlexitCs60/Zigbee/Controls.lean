import FlexitCs60.Zigbee.Channels

/-! The two attributes that clients write as well, the fan mode and the setpoint: each a
latched cell that a client's write changes behind the publisher's back. -/
namespace FlexitCs60.Zigbee
open Latched

inductive Control where
  | fanMode
  | setpoint
  deriving DecidableEq, Repr

abbrev Control.Value : Control → Type
  | .fanMode => UInt8
  | .setpoint => ℚ

def Latches.control (l : Latches) : (c : Control) → Latch c.Value
  | .fanMode => l.mode
  | .setpoint => l.setpoint

def Attributes.control (a : Attributes) : (c : Control) → c.Value
  | .fanMode => a.fanMode .ctrl
  | .setpoint => a.analogValue .setpoint

/-- The value a setter call has for a control. -/
def Setter.control? : Setter → (c : Control) → Option c.Value
  | .mode v, .fanMode => some v
  | .setpoint v, .setpoint => some v.toInt
  | _, _ => none

/-- The value a client writes. -/
def Act.written? : Act → (c : Control) → Option c.Value
  | .writeFanMode v, .fanMode => some v
  | .storeSetpoint v, .setpoint => some v
  | _, _ => none

/-- What an action is to a control that it neither sets nor writes. -/
def Act.publishes {V : Type} : Act → Option (Event V)
  | .copyLatches => some .copy
  | .publishCopy _ => some .publish
  | _ => none

/-- Actions that are none of a control's business, but for the ticks. -/
def Act.Foreign (c : Control) (a : Act) : Prop :=
  a.written? c = none ∧ ∀ call, a = .set call → call.control? c = none

def Zboss.controlDue (c : Control) : Zboss → Option c.Value
  | .publishing copy => (copy.control c).due
  | _ => none

/-- One control of a state. -/
def State.controlCell (c : Control) (s : State) : Cell c.Value where
  latched := (s.pending.control c).val
  dirty := (s.pending.control c).dirty
  copied := s.zboss.controlDue c
  shown := s.published.attrs.control c

/-- Whether a setter takes the value: no mode but 0 to 3, no setpoint before the hold is over. -/
def Control.Takes (uptime : ℤ) (p : Pending) : (c : Control) → c.Value → Prop
  | .fanMode, v => v ≤ 3
  | .setpoint, _ => p.setpointHoldUntil ≤ uptime

theorem call_control_taken {c : Control} {call : Setter} {v : c.Value} {uptime : ℤ} {p : Pending}
    (sets : call.control? c = some v) (takes : c.Takes uptime p v) :
    (call.call uptime p).control c = .fresh v := by
  cases call with
  | mode w =>
    cases c with
    | fanMode =>
      obtain rfl := Option.some.inj sets
      have small : ¬ w > 3 := UInt8.not_lt.mpr takes
      rw [Setter.call, setMode, if_neg small]
      rfl
    | setpoint => contradiction
  | setpoint w =>
    cases c with
    | fanMode => contradiction
    | setpoint =>
      obtain rfl := Option.some.inj sets
      have due : uptime ≥ p.setpointHoldUntil := takes
      rw [Setter.call, setSetpoint, if_pos due]
      rfl
  | _ => cases c <;> contradiction

theorem call_control_foreign {c : Control} {call : Setter} (foreign : call.control? c = none)
    (uptime : ℤ) (p : Pending) : (call.call uptime p).control c = p.control c := by
  cases call with
  | mode w =>
    cases c with
    | fanMode => contradiction
    | setpoint =>
      change (setMode w p).control .setpoint = _
      unfold setMode
      split <;> rfl
  | setpoint w =>
    cases c with
    | fanMode =>
      change (setSetpoint uptime w p).control .fanMode = _
      unfold setSetpoint
      split <;> rfl
    | setpoint => contradiction
  | _ => cases c <;> rfl

theorem publishCopy_control (c : Control) (now : ℤ) (linkUp : Bool) (copy : Latches)
    (x : Published) : (publishCopy now linkUp copy x).attrs.control c =
      (copy.control c).due.getD (x.attrs.control c) := by
  cases c with
  | fanMode =>
    rw [← Latch.due_getD, publishCopy_eq]
    exact copy.mode.into_self ..
  | setpoint =>
    refine (publishCopy_analogValue now linkUp copy x).trans ?_
    exact copy.setpoint.due_getD _

/-- A step that is foreign to a control copies it, publishes it, or leaves it alone. -/
theorem control_step {c : Control} {uptime : ℤ} {s s' : State} {a : Act} (foreign : a.Foreign c)
    (step : Step uptime s a s') : s'.controlCell c = match a.publishes with
      | some e => (s.controlCell c).step e
      | none => s.controlCell c := by
  obtain ⟨unwritten, unset⟩ := foreign
  cases step with
  | set call =>
    have latch := call_control_foreign (unset call rfl) uptime s.pending
    simp only [State.controlCell, State.set, Act.publishes, latch]
  | writeFanMode v idle =>
    cases c with
    | fanMode => contradiction
    | setpoint => rfl
  | storeSetpoint v idle =>
    cases c with
    | fanMode =>
      simp only [State.controlCell, State.storeSetpoint, Act.publishes, idle]
      rfl
    | setpoint => contradiction
  | handleSetpointWrite v written =>
    simp only [State.controlCell, State.handleSetpointWrite, Act.publishes, written]
    cases c <;> rfl
  | copyLatches idle =>
    simp only [State.controlCell, State.copyLatches, Act.publishes, idle]
    cases c <;> rfl
  | publishCopy linkUp copy publishing =>
    simp only [State.controlCell, State.publishCopy, Act.publishes, publishing,
      publishCopy_control]
    rfl

theorem control_run {c : Control} {x y : ℤ × State} {events : List (ℤ × Act)}
    (run : Run x events y) (foreign : ∀ e ∈ events, e.2.Foreign c) :
    y.2.controlCell c = (x.2.controlCell c).run (events.filterMap fun e => e.2.publishes) := by
  induction run with
  | refl => rfl
  | next _ head _ ih =>
    have later := ih fun e member => foreign e (List.mem_cons_of_mem _ member)
    rw [later, control_step (foreign _ List.mem_cons_self) head, List.filterMap_cons]
    dsimp only
    cases Act.publishes (V := c.Value) _ with
    | none => rfl
    | some e => rfl

theorem publishes_silent {V : Type} (events : List (ℤ × Act)) :
    ∀ e ∈ events.filterMap fun e => e.2.publishes (V := V), e.value? = none := by
  intro e member
  obtain ⟨⟨_, act⟩, _, seen⟩ := List.mem_filterMap.mp member
  cases act with
  | copyLatches => exact Option.some.inj seen ▸ rfl
  | publishCopy up => exact Option.some.inj seen ▸ rfl
  | _ => contradiction

/-! There is no hold on the fan mode. -/

/-- `FanMode` is the written value, whatever follows but for another push or write of it. -/
def KeptUntilPush (now : ℤ) (w : UInt8) (s : State) : Prop :=
  ∀ after y, Run (now, s) after y → (∀ e ∈ after, e.2.Foreign .fanMode) →
    y.2.published.attrs.control .fanMode = w

theorem copyLatches_foreign (c : Control) : Act.Foreign c .copyLatches := ⟨rfl, nofun⟩

theorem publishCopy_foreign (c : Control) (up : Bool) : Act.Foreign c (.publishCopy up) :=
  ⟨rfl, nofun⟩

/-- A client's write is kept until the next push exactly when no other mode waits in the
latch as the client writes. -/
theorem fan_mode_write_kept_iff {now t : ℤ} {s s' : State} {w : UInt8}
    (write : Run (now, s) [(t, .writeFanMode w)] (t, s')) :
    KeptUntilPush t w s' ↔ (s.pending.mode.dirty = true → s.pending.mode.val = w) := by
  cases write.single with
  | writeFanMode _ free =>
    have idle : s.zboss = .idle := free
    have cell : (s.storeFanMode w).controlCell .fanMode =
        ⟨s.pending.mode.val, s.pending.mode.dirty, none, w⟩ := by
      simp only [State.controlCell, State.storeFanMode, idle]
      rfl
    constructor
    · intro kept dirty
      have tick : Run (t, s.storeFanMode w) [(t, .copyLatches), (t, .publishCopy true)]
          (t, (s.storeFanMode w).copyLatches.publishCopy t true (Zigbee.copyLatches s.pending).1) :=
        .next (le_refl t) (.copyLatches idle)
          (.next (le_refl t) (.publishCopy true _ rfl) (.refl _))
      have foreign : ∀ e ∈ [(t, Act.copyLatches), (t, .publishCopy true)],
          e.2.Foreign .fanMode := by
        intro e member
        rcases List.mem_pair.mp member with rfl | rfl
        · exact copyLatches_foreign _
        · exact publishCopy_foreign _ _
      have shown := congrArg Cell.shown (control_run tick foreign)
      rw [cell, dirty] at shown
      exact shown.symm.trans (kept _ _ tick foreign)
    · intro agrees after y later foreign
      have settled : ((s.storeFanMode w).controlCell .fanMode).Settled w := by
        rw [cell]
        exact ⟨rfl, agrees, fun v copied => by contradiction⟩
      have still := settled.run (publishes_silent after)
      rw [← control_run later foreign] at still
      exact still.shown

/-- A client's write of 2 between a push of 1 and the tick that publishes it. -/
theorem fan_mode_write_kept_iff_pushed :
    ¬ KeptUntilPush 1500 2 ((boot.set 1000 (.mode 1)).storeFanMode 2) := by
  have write : Run (1500, boot.set 1000 (.mode 1)) [(1500, .writeFanMode 2)]
      (1500, (boot.set 1000 (.mode 1)).storeFanMode 2) :=
    .next (le_refl _) (.writeFanMode 2 rfl) (.refl _)
  intro kept
  have same := (fan_mode_write_kept_iff write).mp kept rfl
  exact absurd same (by decide)

end FlexitCs60.Zigbee
