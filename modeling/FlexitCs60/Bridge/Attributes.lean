import FlexitCs60.Bridge.NewFrames
import FlexitCs60.Gateway.Channels

/-! From the panel to the Zigbee attributes: once the bridge has pushed the latest
status block and a tick has published, the inputs show that block. -/
namespace FlexitCs60.Bridge
open Zigbee (Channel)
open Mirror (Uptime statusBlocks)

/-- What a status block says an input should show. -/
def blockInput (frame : List UInt8) : (c : Channel) → c.Value
  | .analog .intakeTemp =>
    Binary32.round ((Mirror.blockStatus frame).tempOutdoorAirX10.toInt / 10)
  | .analog .heatExchanger => (Mirror.blockStatus frame).pctHeatExchanger.toNat
  | .analog .heating => (Mirror.blockStatus frame).pctHeating.toNat
  | .binary .supplySensor => (Mirror.blockStatus frame).alarms &&& Mirror.alarmSupplySensor ≠ 0
  | .binary .outdoorSensor => (Mirror.blockStatus frame).alarms &&& Mirror.alarmOutdoorSensor ≠ 0
  | .binary .heatExchanger => (Mirror.blockStatus frame).alarms &&& Mirror.alarmHeatExchanger ≠ 0
  | .binary .overheat => (Mirror.blockStatus frame).alarms &&& Mirror.alarmOverheat ≠ 0
  | .binary .filter => (Mirror.blockStatus frame).alarms &&& Mirror.alarmFilter ≠ 0

/-- An execution latches every input as its block says. -/
theorem latest_frameCalls (c : Channel) (frame : List UInt8) :
    Latched.latest (fun call => Zigbee.Setter.value? call c) (frameCalls frame) =
      some (blockInput frame c) := by
  unfold frameCalls pushes
  split
  all_goals rcases c with (_ | _ | _) | (_ | _ | _ | _ | _) <;> rfl

theorem latest_append {A V : Type*} (f : A → Option V) (before after : List A) :
    Latched.latest f (before ++ after) = (Latched.latest f after).or (Latched.latest f before) := by
  rw [Latched.latest, List.reverse_append, List.findSome?_append]
  rfl

/-- What the calls so far, and those that are due, leave in the latches. -/
def Pushed (past : List (Uptime × Act)) (s : State) : Prop :=
  ∀ c : Channel, Latched.latest (fun call => Zigbee.Setter.value? call c) (made past ++ s.due) =
    (statusBlocks (seen s.executions)).getLast?.map fun a => blockInput a.2 c

theorem made_append (before after : List (Uptime × Act)) :
    made (before ++ after) = made before ++ made after :=
  List.filterMap_append ..

/-- The counter wraps at 32 bits, so an execution can miss 2 ^ 32 blocks in a row. -/
def Fewer (earlier : List Execution) (m : Execution) : Prop := (fresh earlier m).length < 2 ^ 32

theorem statusBlocks_eq_of_fresh {earlier : List Execution} {m : Execution}
    (grows : seen earlier <+: m.arrivals) (none : fresh earlier m = []) :
    statusBlocks m.arrivals = statusBlocks (seen earlier) := by
  obtain ⟨tail, arrivals⟩ := grows
  rw [fresh, ← arrivals, List.drop_left] at none
  rw [← arrivals, statusBlocks_append, none, List.append_nil]

/-- An execution leaves the latches due to what the latest block says, whether it
pushes or finds nothing new. -/
theorem Pushed.work {now : Uptime} {past : List (Uptime × Act)} {s : State} (t : Uptime)
    (polled : Polled now s) (few : Fewer s.executions ⟨s.arrivals, s.work.due⟩) (idle : s.due = [])
    (pushed : Pushed past s) : Pushed (past ++ [(t, .work)]) s.work := by
  intro c
  have new := polled.pushesNew
  have last : seen s.work.executions = s.arrivals := seen_concat ..
  have already := pushed c
  have made : made (past ++ [(t, .work)]) = made past := by
    rw [made_append]
    exact List.append_nil _
  rw [idle, List.append_nil] at already
  rw [made, last, latest_append]
  by_cases nothing : s.work.due = []
  · have none : fresh s.executions ⟨s.arrivals, s.work.due⟩ = [] :=
      of_not_not fun some => (new.pushes_iff few).mpr some nothing
    rw [nothing, already, ← statusBlocks_eq_of_fresh polled.grows none]
    rfl
  · obtain ⟨a, latest, calls, _⟩ := new.latest nothing
    change s.work.due = _ at calls
    rw [calls, latest_frameCalls, latest]
    rfl

section
variable [Zephyr]

/-- The invariant: it is the latest block an execution has seen. -/
theorem pushed_run {events : List (Uptime × Act)} {y : Uptime × State}
    (run : Run (Uptime.boot, boot) events y) (few : Labelled.Accounted Fewer y.2.executions) :
    Pushed events y.2 := by
  refine (run.history (fun past y => Polled y.1 y.2 ∧
    (Labelled.Accounted Fewer y.2.executions → Pushed past y.2)) ?_ []
    ⟨polled_boot _, fun _ c => rfl⟩).2 few
  rintro past now t s a s' ordered step ⟨polled, sofar⟩
  refine ⟨polled_step ordered step polled, fun few c => ?_⟩
  cases step with
  | gateway setter step =>
    rw [made_append]
    change Latched.latest _ (made past ++ [] ++ s.due) = _
    rw [List.append_nil]
    exact sofar few c
  | work idle =>
    exact (sofar few.init).work t polled (few _ _ [] rfl) idle c
  | @call call rest g due step =>
    rw [made_append]
    change Latched.latest _ (made past ++ [call] ++ rest) = _
    rw [List.append_assoc, List.singleton_append, ← due]
    exact sofar few c

/-- Once it is up to date, the bridge makes no call until a further block comes. -/
theorem silent_run {x y : Uptime × State} {events : List (Uptime × Act)} (run : Run x events y)
    (polled : Polled x.1 x.2) (current : UpToDate x.2)
    (same : statusBlocks y.2.arrivals = statusBlocks x.2.arrivals) : made events = [] := by
  refine (run.history (fun past z => Polled z.1 z.2 ∧
    statusBlocks x.2.arrivals <+: statusBlocks z.2.arrivals ∧
    (statusBlocks z.2.arrivals = statusBlocks x.2.arrivals → UpToDate z.2 ∧ made past = [])) ?_ []
    ⟨polled, List.prefix_refl _, fun _ => ⟨current, rfl⟩⟩).2.2 same |>.2
  rintro past now t s a s' ordered step ⟨polled, grown, quiet⟩
  have grows : statusBlocks s.arrivals <+: statusBlocks s'.arrivals :=
    (arrivals_step step).filter _
  refine ⟨polled_step ordered step polled, grown.trans grows, fun same => ?_⟩
  have unchanged : statusBlocks s.arrivals = statusBlocks x.2.arrivals := by
    rw [same] at grows
    exact grows.eq_of_length_le grown.length_le
  obtain ⟨⟨saw, idle⟩, silent⟩ := quiet unchanged
  rw [made_append, silent]
  cases step with
  | gateway setter step => exact ⟨⟨saw.trans (unchanged.trans same.symm), idle⟩, rfl⟩
  | work _ =>
    refine ⟨⟨?_, polled.work_due saw⟩, rfl⟩
    exact congrArg statusBlocks (seen_concat ..)
  | call due step =>
    rw [idle] at due
    contradiction

omit [Zephyr] in
/-- What a step is to an input. -/
def inputEvent (c : Channel) : Act → Option (Latched.Event c.Value)
  | .gateway (.zigbee .copyLatches) => some .copy
  | .gateway (.zigbee (.publishCopy _)) => some .publish
  | .call call => (call.value? c).map .set
  | _ => none

theorem cell_step (c : Channel) {t : Uptime} {s s' : State} {a : Act} (step : Step t s a s') :
    s'.gateway.zigbee.cell c = match inputEvent c a with
      | some e => (s.gateway.zigbee.cell c).step e
      | none => s.gateway.zigbee.cell c := by
  cases step with
  | gateway setter step =>
    cases step with
    | mirror step => rfl
    | @zigbee act z step link =>
      have moved := Zigbee.cell_step c step
      cases act with
      | set call => exact absurd rfl (setter call)
      | _ => exact moved
  | work idle => rfl
  | call due step =>
    cases step with
    | zigbee step link => exact Zigbee.cell_step c step

theorem cell_run (c : Channel) {x y : Uptime × State} {events : List (Uptime × Act)}
    (run : Run x events y) : y.2.gateway.zigbee.cell c =
      (x.2.gateway.zigbee.cell c).run (events.filterMap fun e => inputEvent c e.2) := by
  induction run with
  | refl => rfl
  | next ordered step rest ih =>
    rw [ih, cell_step c step, List.filterMap_cons]
    dsimp only
    cases inputEvent c _ with
    | none => rfl
    | some e => rfl

omit [Zephyr] in
/-- Only calls latch, and in their order. -/
theorem latest_inputEvent (c : Channel) (events : List (Uptime × Act)) :
    Latched.latest Latched.Event.value? (events.filterMap fun e => inputEvent c e.2) =
      Latched.latest (fun call => Zigbee.Setter.value? call c) (made events) := by
  rw [made, Latched.latest_filterMap, Latched.latest_filterMap]
  congr 1
  funext e
  rcases e with ⟨t, (act | act) | _ | call⟩
  · rfl
  · cases act <;> rfl
  · rfl
  · cases sets : call.value? c <;> simp [inputEvent, Latched.Event.value?, sets]

omit [Zephyr] in
theorem inputEvent_silent {c : Channel} {events : List (Uptime × Act)} (silent : made events = []) :
    ∀ e ∈ events.filterMap fun e => inputEvent c e.2, e.value? = none := by
  intro e member
  have none := latest_inputEvent c events
  rw [silent] at none
  exact List.findSome?_eq_none_iff.mp none e (List.mem_reverse.mpr member)

omit [Zephyr] in
/-- In single precision the intake temperature is off by less than a thousandth. -/
theorem blockInput_intake_near (frame : List UInt8) :
    |(blockInput frame (.analog .intakeTemp) : ℚ) -
      (Mirror.blockStatus frame).tempOutdoorAirX10.toInt / 10| ≤ 1 / 2 ^ 13 := by
  have lower := (Mirror.blockStatus frame).tempOutdoorAirX10.le_toInt
  have upper := (Mirror.blockStatus frame).tempOutdoorAirX10.toInt_lt
  have small : |((Mirror.blockStatus frame).tempOutdoorAirX10.toInt / 10 : ℚ)| < 2 ^ (11 + 1) := by
    rw [abs_lt]
    have below : (-2 ^ 15 : ℚ) ≤ (Mirror.blockStatus frame).tempOutdoorAirX10.toInt := by
      exact_mod_cast lower
    have above : ((Mirror.blockStatus frame).tempOutdoorAirX10.toInt : ℚ) < 2 ^ 15 := by
      exact_mod_cast upper
    constructor <;> linarith
  refine (Binary32.round_near_of_lt small).trans_eq ?_
  norm_num

/-- From any reachable state in which the bridge is up to date: once a whole tick
has run, and for as long as no further block is accepted, every input shows what
the latest block says, the intake temperature in single precision. -/
theorem inputs_settle {before : List (Uptime × Act)} {x y : Uptime × State}
    (run : Run (Uptime.boot, boot) before x) (current : UpToDate x.2)
    (few : Labelled.Accounted Fewer x.2.executions)
    {arrived : Uptime} {frame : List UInt8}
    (latest : (statusBlocks x.2.arrivals).getLast? = some (arrived, frame))
    {first during last : List (Uptime × Act)} {copied now : Uptime} {up : Bool}
    (later : Run x (first ++ [(copied, .gateway (.zigbee .copyLatches))] ++ during ++
      [(now, .gateway (.zigbee (.publishCopy up)))] ++ last) y)
    (same : statusBlocks y.2.arrivals = statusBlocks x.2.arrivals) :
    (∀ c, y.2.gateway.zigbee.published.attrs.input c = blockInput frame c) ∧
      |y.2.gateway.zigbee.published.attrs.analogInput .intake -
        (Mirror.blockStatus frame).tempOutdoorAirX10.toInt / 10| ≤ 1 / 2 ^ 13 := by
  suffices shows : ∀ c, y.2.gateway.zigbee.published.attrs.input c = blockInput frame c by
    refine ⟨shows, ?_⟩
    have intake : y.2.gateway.zigbee.published.attrs.analogInput .intake =
        blockInput frame (.analog .intakeTemp) := shows (.analog .intakeTemp)
    rw [intake]
    exact blockInput_intake_near frame
  intro c
  have keeps : (x.2.gateway.zigbee.cell c).Keeps (blockInput frame c) := by
    rw [cell_run c run]
    apply Latched.Cell.run_keeps
    have pushed := pushed_run run few c
    rw [current.2, List.append_nil, current.1, latest] at pushed
    exact (latest_inputEvent c before).trans pushed
  have silent := silent_run later (polled_run run (polled_boot _)) current same
  simp only [made_append, List.append_eq_nil_iff] at silent
  obtain ⟨⟨⟨⟨untilCopy, -⟩, untilPublish⟩, -⟩, afterwards⟩ := silent
  have quiet : made (first ++ during ++ last) = [] := by
    simp only [made_append, untilCopy, untilPublish, afterwards, List.append_nil]
  have unset := inputEvent_silent (c := c) quiet
  rw [List.filterMap_append, List.filterMap_append] at unset
  have flushed := keeps.flushes unset
  have shown := congrArg Latched.Cell.shown (cell_run c later)
  simp only [List.filterMap_append] at shown
  exact shown.trans flushed

end

theorem winterBlock_shows :
    blockInput winterBlock (.analog .intakeTemp) = (-4404019 / 2 ^ 21 : ℚ) ∧
      blockInput winterBlock (.analog .heatExchanger) = (64 : ℚ) ∧
      blockInput winterBlock (.analog .heating) = (35 : ℚ) ∧
      blockInput winterBlock (.binary .filter) = true := by
  decide +kernel

/-- A winter's block, pushed and published at once. -/
theorem inputs_settle_winter : ∃ before x after y, Run (Uptime.boot, boot) before x ∧
    Run x after y ∧ (∀ c, y.2.gateway.zigbee.published.attrs.input c = blockInput winterBlock c) ∧
    y.2.gateway.zigbee.published.attrs.analogInput .intake = -4404019 / 2 ^ 21 ∧
    y.2.gateway.zigbee.published.attrs.analogInput .heatExch = 64 ∧
    y.2.gateway.zigbee.published.attrs.binaryInput .ctrl = true := by
  obtain ⟨before, x, run, current, executions, idle, blocks⟩ :=
    block_pushed Uptime.boot (show winterRegisters.length = 170 from rfl)
  have few : Labelled.Accounted Fewer x.executions := by
    rw [executions]
    refine (Labelled.accounted_nil _).concat (?_ : (statusBlocks x.arrivals).length < 2 ^ 32)
    rw [blocks]
    exact Nat.one_lt_two_pow (by decide)
  have tick : ∃ up y, Run (Uptime.boot, x) ([] ++
      [(Uptime.boot, .gateway (.zigbee .copyLatches))] ++ [] ++
      [(Uptime.boot, .gateway (.zigbee (.publishCopy up)))] ++ []) (Uptime.boot, y) ∧
      y.arrivals = x.arrivals :=
    ⟨_, _, .next (le_refl _) (.gateway (by simp) (.zigbee (.copyLatches idle) (by simp)))
      (.next (le_refl _) (.gateway (by simp) (.zigbee
        (.publishCopy (x.gateway.linkUp Uptime.boot) _ rfl) (by rintro up ⟨⟩; rfl)))
        (.refl _)), rfl⟩
  obtain ⟨up, y, later, same⟩ := tick
  have latest : (statusBlocks x.arrivals).getLast? = some (Uptime.boot, winterBlock) := by
    rw [blocks]
    rfl
  obtain ⟨shows, -⟩ := inputs_settle run current few latest later (congrArg statusBlocks same)
  obtain ⟨intake, exchanger, -, filter⟩ := winterBlock_shows
  exact ⟨before, _, _, _, run, later, shows, (shows (.analog .intakeTemp)).trans intake,
    (shows (.analog .heatExchanger)).trans exchanger, (shows (.binary .filter)).trans filter⟩

end FlexitCs60.Bridge
