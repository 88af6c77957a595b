import FlexitCs60.Bridge.Attributes
import FlexitCs60.Zigbee.Controls

/-! The controls read back: what a client sees of the fan mode and the setpoint once the
bridge has pushed a status block. -/
namespace FlexitCs60.Bridge
open Zigbee (Control)
open Mirror (Uptime statusBlocks)

/-- What a status block says a control should show, if anything. -/
def blockControl? (frame : List UInt8) : (c : Control) → Option c.Value
  | .fanMode =>
    let mode := (Mirror.blockStatus frame).mode
    if mode ≤ 3 then some mode.toUInt8 else none
  | .setpoint => some (Mirror.blockStatus frame).tempSetpoint2X10.toInt

/-- An execution has one call at most for a control. -/
theorem frameCalls_control (c : Control) (frame : List UInt8) :
    (frameCalls frame).filterMap (fun call => call.control? c) =
      (blockControl? frame c).toList := by
  unfold frameCalls pushes
  cases c with
  | fanMode =>
    unfold blockControl?
    by_cases small : (Mirror.blockStatus frame).mode ≤ 3
    · simp only [if_pos small]
      rfl
    · simp only [if_neg small]
      rfl
  | setpoint => split <;> rfl

/-- The calls before a call for a control, the call, and the calls behind it. -/
theorem control_calls {c : Control} {frame : List UInt8} {earlier later : List Zigbee.Setter}
    {call : Zigbee.Setter} {v : c.Value} (sets : call.control? c = some v)
    (calls : earlier ++ call :: later = frameCalls frame) :
    blockControl? frame c = some v ∧ ∀ call ∈ later, call.control? c = none := by
  have one := frameCalls_control c frame
  rw [← calls, List.filterMap_append, List.filterMap_cons, sets] at one
  dsimp only at one
  cases said : blockControl? frame c with
  | none =>
    rw [said] at one
    exact absurd (List.append_eq_nil_iff.mp one).2 (List.cons_ne_nil _ _)
  | some w =>
    rw [said, Option.toList_some, List.append_eq_singleton_iff] at one
    rcases one with ⟨_, alone⟩ | ⟨_, empty⟩
    · obtain ⟨same, none⟩ := List.cons_eq_cons.mp alone
      exact ⟨congrArg some same.symm, List.filterMap_eq_nil_iff.mp none⟩
    · contradiction

/-- What an action is to the Zigbee threads. -/
def Act.zigbee? (a : Act) : Option Zigbee.Act := a.gateway?.bind Gateway.Act.zigbee?

/-- The value a client writes to a control. -/
def Act.written? (a : Act) (c : Control) : Option c.Value :=
  a.zigbee?.bind fun act => act.written? c

/-- The Zigbee threads' part of a history. -/
def zigbeeEvents (events : List (Uptime × Act)) : List (ℤ × Zigbee.Act) :=
  events.filterMap fun e => e.2.zigbee?.map (Gateway.uptimeMs e.1, ·)

theorem zigbeeEvents_append (before after : List (Uptime × Act)) :
    zigbeeEvents (before ++ after) = zigbeeEvents before ++ zigbeeEvents after :=
  List.filterMap_append ..

section
variable [Zephyr]

/-- A run of the whole is a run of the Zigbee threads. -/
theorem zigbee_run {x y : Uptime × State} {events : List (Uptime × Act)} (run : Run x events y) :
    ∃ later ≤ Gateway.uptimeMs y.1, Zigbee.Run (Gateway.uptimeMs x.1, x.2.gateway.zigbee)
      (zigbeeEvents events) (later, y.2.gateway.zigbee) := by
  refine run.project (fun s : State => s.gateway.zigbee) Act.zigbee?
    (fun _ _ => Gateway.uptimeMs_le) ?_ (le_refl _)
  intro t s a s' step
  cases step with
  | gateway setter step =>
    cases step with
    | mirror step => rfl
    | zigbee step link => exact step
  | work idle => rfl
  | call due step =>
    cases step with
    | zigbee step link => exact step

/-- The calls of an execution, those made and those still due, while no other pushes. -/
theorem execution_calls {before : List (Uptime × Act)} {x y : Uptime × State}
    (run : Run (Uptime.boot, boot) before x) {pushed : Uptime} {events : List (Uptime × Act)}
    (later : Run x ((pushed, .work) :: events) y)
    (quiet : ∃ idle, y.2.executions = x.2.work.executions ++ idle ∧ ∀ n ∈ idle, n.calls = []) :
    made events ++ y.2.due = x.2.work.due := by
  obtain ⟨idle, executions, silent⟩ := quiet
  have earlier := made_run run
  have all := made_run (run.trans later)
  have none : idle.flatMap Execution.calls = [] := List.flatMap_eq_nil_iff.mpr silent
  have drained : x.2.due = [] := by
    cases later with
    | next _ step _ =>
      cases step with
      | work idle => exact idle
  have latest : x.2.work.executions = x.2.executions ++ [⟨x.2.arrivals, x.2.work.due⟩] := rfl
  rw [drained, List.append_nil] at earlier
  rw [executions, latest, List.flatMap_append, List.flatMap_append, List.flatMap_singleton, none,
    ← earlier, made_append, List.append_nil, List.append_assoc] at all
  exact List.append_cancel_left all

/-- A call for a control has what the latest block says, and none of the calls behind it
is for that control. -/
theorem execution_control {before : List (Uptime × Act)} {x y : Uptime × State}
    (run : Run (Uptime.boot, boot) before x) {arrived : Uptime} {frame : List UInt8}
    (latest : (statusBlocks x.2.arrivals).getLast? = some (arrived, frame))
    {pushed t : Uptime} {earlier behind : List (Uptime × Act)} {call : Zigbee.Setter}
    (later : Run x ((pushed, .work) :: (earlier ++ (t, .call call) :: behind)) y)
    (quiet : ∃ idle, y.2.executions = x.2.work.executions ++ idle ∧ ∀ n ∈ idle, n.calls = [])
    {c : Control} {v : c.Value} (sets : call.control? c = some v) :
    blockControl? frame c = some v ∧ ∀ call ∈ made behind, call.control? c = none := by
  have calls := execution_calls run later quiet
  rw [made_append] at calls
  change made earlier ++ call :: made behind ++ y.2.due = _ at calls
  rw [List.append_assoc, List.cons_append] at calls
  have pushes : x.2.work.due ≠ [] := by
    rw [← calls]
    exact List.append_ne_nil_of_right_ne_nil _ (List.cons_ne_nil _ _)
  obtain ⟨a, last, made, _⟩ := (polled_run run (polled_boot _)).pushesNew.latest pushes
  obtain rfl := Option.some.inj (latest.symm.trans last)
  obtain ⟨said, none⟩ := control_calls sets (calls.trans made)
  exact ⟨said, fun call member => none call (List.mem_append_left _ member)⟩

/-- Only calls of the bridge set anything. -/
theorem set_made {x y : Uptime × State} {events : List (Uptime × Act)} (run : Run x events y)
    {e : Uptime × Act} (member : e ∈ events) {call : Zigbee.Setter}
    (sets : e.2.zigbee? = some (.set call)) : call ∈ made events := by
  induction run with
  | refl => contradiction
  | @next now t s s' a rest z _ step _ ih =>
    rw [made, List.filterMap_cons]
    rcases List.mem_cons.mp member with rfl | later
    · cases step with
      | @gateway act g setter step =>
        cases act with
        | mirror act => contradiction
        | zigbee act => exact absurd (congrArg _ (Option.some.inj sets)) (setter call)
      | work idle => contradiction
      | call due step =>
        obtain rfl : _ = call := Zigbee.Act.set.inj (Option.some.inj sets)
        exact List.mem_cons_self
    · have behind := ih later
      dsimp only
      split
      · exact behind
      · exact List.mem_cons_of_mem _ behind

theorem zigbeeEvents_foreign {x y : Uptime × State} {events : List (Uptime × Act)}
    (run : Run x events y) {c : Control} (unset : ∀ call ∈ made events, call.control? c = none)
    (unwritten : ∀ e ∈ events, e.2.written? c = none) :
    ∀ e ∈ zigbeeEvents events, e.2.Foreign c := by
  intro e member
  obtain ⟨origin, inside, image⟩ := List.mem_filterMap.mp member
  obtain ⟨act, seen, rfl⟩ := Option.map_eq_some_iff.mp image
  constructor
  · have none := unwritten origin inside
    rw [Act.written?, seen] at none
    exact none
  · rintro call rfl
    exact unset call (set_made run inside seen)

omit [Zephyr] in
/-- What the bridge pushes for a control is taken, but for a setpoint during its hold. -/
theorem pushed_taken {c : Control} {frame : List UInt8} {v : c.Value}
    (said : blockControl? frame c = some v) {uptime : ℤ} {p : Zigbee.Pending}
    (free : c = .setpoint → p.setpointHoldUntil ≤ uptime) : c.Takes uptime p v := by
  cases c with
  | fanMode =>
    obtain ⟨small, value⟩ := Option.ite_none_right_eq_some.mp said
    exact (mode_mem_frameCalls (mode_mem_pushes.mpr ⟨small, (Option.some.inj value).symm⟩)).2
  | setpoint => exact free rfl

/-- After the call that sets a control, its cell keeps the value. -/
theorem call_keeps {t : Uptime} {s s' : State} {call : Zigbee.Setter} {c : Control} {v : c.Value}
    (sets : call.control? c = some v)
    (takes : c.Takes (Gateway.uptimeMs t) s.gateway.zigbee.pending v)
    (step : Step t s (.call call) s') : (s'.gateway.zigbee.controlCell c).Keeps v := by
  cases step with
  | call due step =>
    cases step with
    | zigbee step link =>
      cases step with
      | set call =>
        have latch := Zigbee.call_control_taken sets takes
        refine ⟨?_, .inl ?_⟩
        · exact congrArg Zigbee.Latch.val latch
        · exact congrArg Zigbee.Latch.dirty latch

/-- A history with a whole tick in it. -/
def throughTick (first : List (Uptime × Act)) (copied : Uptime) (during : List (Uptime × Act))
    (now : Uptime) (up : Bool) (last : List (Uptime × Act)) : List (Uptime × Act) :=
  first ++ [(copied, .gateway (.zigbee .copyLatches))] ++ during ++
    [(now, .gateway (.zigbee (.publishCopy up)))] ++ last

/-- A value that is kept, and neither set nor written again, is shown after a whole tick. -/
theorem keeps_settles {x y : Uptime × State} {first during last : List (Uptime × Act)}
    {copied now : Uptime} {up : Bool} (run : Run x (throughTick first copied during now up last) y)
    {c : Control} {v : c.Value} (keeps : (x.2.gateway.zigbee.controlCell c).Keeps v)
    (unset : ∀ call ∈ made (throughTick first copied during now up last), call.control? c = none)
    (unwritten : ∀ e ∈ throughTick first copied during now up last, e.2.written? c = none) :
    y.2.gateway.zigbee.published.attrs.control c = v := by
  obtain ⟨later, _, zigbee⟩ := zigbee_run run
  have cell := Zigbee.control_run zigbee (zigbeeEvents_foreign run unset unwritten)
  have shown := congrArg Latched.Cell.shown cell
  simp only [throughTick, zigbeeEvents_append, List.filterMap_append] at shown
  refine shown.trans (keeps.flushes ?_)
  rw [← List.filterMap_append, ← List.filterMap_append]
  exact Zigbee.publishes_silent _

/-- A call for a control has what the latest block says, and that is shown after a tick. -/
theorem call_settles {before : List (Uptime × Act)} {x m y : Uptime × State}
    (run : Run (Uptime.boot, boot) before x) {arrived : Uptime} {frame : List UInt8}
    (latest : (statusBlocks x.2.arrivals).getLast? = some (arrived, frame))
    {pushed t copied now : Uptime} {earlier first during last : List (Uptime × Act)} {up : Bool}
    (execution : Run x ((pushed, .work) :: earlier) m) {c : Control} {call : Zigbee.Setter}
    {v : c.Value} (sets : call.control? c = some v)
    (free : c = .setpoint →
      m.2.gateway.zigbee.pending.setpointHoldUntil ≤ Gateway.uptimeMs t)
    (later : Run m ((t, .call call) :: throughTick first copied during now up last) y)
    (unwritten : ∀ e ∈ throughTick first copied during now up last, e.2.written? c = none)
    (quiet : ∃ idle, y.2.executions = x.2.work.executions ++ idle ∧ ∀ n ∈ idle, n.calls = []) :
    blockControl? frame c = some v ∧ y.2.gateway.zigbee.published.attrs.control c = v := by
  obtain ⟨said, unset⟩ := execution_control run latest (execution.trans later) quiet sets
  refine ⟨said, ?_⟩
  cases later with
  | next _ step rest =>
    have keeps := call_keeps sets (pushed_taken said free) step
    exact keeps_settles rest keeps unset unwritten

/-- From any reachable state: once the bridge has made the call for a control, a whole
tick has run and no client has written the control since, it shows what the block says
that was the latest at the execution, until another execution pushes. -/
theorem controls_settle {before : List (Uptime × Act)} {x m y : Uptime × State}
    (run : Run (Uptime.boot, boot) before x) {arrived : Uptime} {frame : List UInt8}
    (latest : (statusBlocks x.2.arrivals).getLast? = some (arrived, frame))
    {pushed t copied now : Uptime} {earlier first during last : List (Uptime × Act)} {up : Bool}
    (execution : Run x ((pushed, .work) :: earlier) m) {c : Control} {call : Zigbee.Setter}
    (sets : call.control? c ≠ none)
    (free : c = .setpoint →
      m.2.gateway.zigbee.pending.setpointHoldUntil ≤ Gateway.uptimeMs t)
    (later : Run m ((t, .call call) :: throughTick first copied during now up last) y)
    (unwritten : ∀ e ∈ throughTick first copied during now up last, e.2.written? c = none)
    (quiet : ∃ idle, y.2.executions = x.2.work.executions ++ idle ∧ ∀ n ∈ idle, n.calls = []) :
    blockControl? frame c = some (y.2.gateway.zigbee.published.attrs.control c) := by
  obtain ⟨v, sets⟩ := Option.ne_none_iff_exists'.mp sets
  obtain ⟨said, shown⟩ := call_settles run latest execution sets free later unwritten quiet
  rw [said, shown]

end

theorem frameCalls_mode {frame : List UInt8} (small : (Mirror.blockStatus frame).mode ≤ 3) :
    ∃ others, frameCalls frame = others ++ [.mode (Mirror.blockStatus frame).mode.toUInt8] := by
  unfold frameCalls pushes
  rw [if_pos small]
  exact ⟨_, rfl⟩

/-- A status block that is zero but for its mode register. -/
def modeBlock (mode : UInt8) : List UInt8 := [0, 0, 0, mode] ++ .replicate 166 0

/-- A block of mode 2 -/
def blockOfTwo [Zephyr] : List UInt8 := stampCrc (Mirror.header ++ modeBlock 2)

theorem blockStatus_blockOfTwo : (Mirror.blockStatus blockOfTwo).mode = 2 := by decide +kernel

theorem blockOfTwo_mode : blockControl? blockOfTwo .fanMode = some 2 := by
  rw [blockControl?, blockStatus_blockOfTwo]
  rfl

/-- A block of mode 2 is pushed while a client writes 3, and published at once. -/
theorem two_published {before : List (Uptime × Act)} {l : Mirror.Listener}
    (run : Run (Uptime.boot, boot) before (Uptime.boot, ⟨⟨l, Zigbee.boot⟩, 0, [], []⟩))
    (blocks : statusBlocks l.arrivals = [(Uptime.boot, blockOfTwo)])
    (counted : l.traced.state.fc10Frames = 1) : ∃ earlier m up y,
      Run (Uptime.boot, ⟨⟨l, Zigbee.boot⟩, 0, [], []⟩) ((Uptime.boot, .work) :: earlier)
        (Uptime.boot, m) ∧
      Run (Uptime.boot, m) ((Uptime.boot, .call (.mode 2)) ::
        throughTick [] Uptime.boot [] Uptime.boot up []) (Uptime.boot, y) ∧
      (∀ e ∈ throughTick [] Uptime.boot [] Uptime.boot up [], e.2.written? .fanMode = none) ∧
      y.executions = (State.work ⟨⟨l, Zigbee.boot⟩, 0, [], []⟩).executions := by
  obtain ⟨others, calls⟩ := frameCalls_mode (by rw [blockStatus_blockOfTwo]; decide)
  rw [blockStatus_blockOfTwo] at calls
  have due := (first_due run blocks counted).trans calls
  obtain ⟨m, made, left, idle, executions, _⟩ :=
    calls_run Uptime.boot (s := State.work ⟨⟨l, Zigbee.boot⟩, 0, [], []⟩) rfl due
  have written : Run (Uptime.boot, m) [(Uptime.boot, .gateway (.zigbee (.writeFanMode 3)))]
      (Uptime.boot, { m with gateway := { m.gateway with
        zigbee := m.gateway.zigbee.storeFanMode 3 } }) :=
    .next (le_refl _) (.gateway (by simp) (.zigbee (.writeFanMode 3 idle) (by simp))) (.refl _)
  have execution := (Timed.Run.next (le_refl Uptime.boot) (.work rfl) made).trans written
  have tick : ∃ up y, Run (Uptime.boot, { m with gateway := { m.gateway with
        zigbee := m.gateway.zigbee.storeFanMode 3 } })
      ((Uptime.boot, .call (.mode 2)) ::
        throughTick [] Uptime.boot [] Uptime.boot up []) (Uptime.boot, y) ∧
      y.executions = m.executions := by
    refine ⟨_, _, .next (le_refl _) (.call left (.zigbee (.set _) (by simp)))
      (.next (le_refl _) (.gateway (by simp) (.zigbee (.copyLatches idle) (by simp)))
        (.next (le_refl _) (.gateway (by simp) (.zigbee
          (.publishCopy (m.gateway.linkUp Uptime.boot) _ rfl) (by rintro up ⟨⟩; rfl)))
          (.refl _))), rfl⟩
  obtain ⟨up, y, later, same⟩ := tick
  refine ⟨_, _, up, y, execution, later, ?_, same.trans executions⟩
  simp [throughTick, Act.written?, Act.zigbee?, Act.gateway?, Gateway.Act.zigbee?,
    Zigbee.Act.written?]

theorem controls_settle_two : ∃ before x after y, Run (Uptime.boot, boot) before x ∧
    Run x after y ∧ y.2.gateway.zigbee.published.attrs.control .fanMode = 2 := by
  obtain ⟨before, l, run, blocks, counted⟩ :=
    block_accepted Uptime.boot (show (modeBlock 2).length = 170 from rfl)
  obtain ⟨earlier, m, up, y, execution, later, unwritten, same⟩ := two_published run blocks counted
  have latest : (statusBlocks l.arrivals).getLast? = some (Uptime.boot, blockOfTwo) := by
    rw [blocks]
    rfl
  have sets : (Zigbee.Setter.mode 2).control? .fanMode ≠ none := Option.some_ne_none _
  have shown := controls_settle run latest execution sets nofun later unwritten
    ⟨[], by rw [same, List.append_nil], nofun⟩
  rw [blockOfTwo_mode] at shown
  exact ⟨before, _, _, _, run, execution.trans later, (Option.some.inj shown).symm⟩

end FlexitCs60.Bridge
