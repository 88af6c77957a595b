import FlexitCs60.System.Alarms
import FlexitCs60.System.Latched
import FlexitCs60.System.Timed

/-! The network state behind the status LED, the alarm that drives the publish tick,
and the factory reset. Signals and alarms run on the ZBOSS thread, whose queue takes
every alarm; factory resets are requested by any number of threads; the reboot runs
on the work queue. -/
namespace FlexitCs60.Zigbee.Network
open Alarms (Queue)

/-- `enum zigbee_net_state` -/
inductive NetState where
  | idle
  | joining
  | joined
  deriving DecidableEq, Repr

inductive Signal where
  | deviceFirstStart
  | deviceReboot
  | steering
  | leave
  | noActiveLinksLeft
  | other
  deriving DecidableEq, Repr

inductive Alarm where
  | joinWindowExpire
  | publishTick
  deriving DecidableEq, Repr

/-- `ZB_TIME_ONE_SECOND * (CONFIG_ZIGBEE_DEV_REJOIN_TIMEOUT_MS / 1000)` -/
def joinWindowMs : ℕ := 1000 * (60000 / 1000)

/-- `FLEXIT_PUBLISH_INTERVAL` -/
def publishIntervalMs : ℕ := 2000

/-- The next step of `zboss_signal_handler` behind its switch. -/
inductive Handler where
  | idle
  /-- `sig == ZB_ZDO_SIGNAL_LEAVE && atomic_get(&factory_reset_pending)` -/
  | checkPending
  | reschedule
  deriving DecidableEq, Repr

/-- The next step of a thread in `zigbee_ep_factory_reset`. -/
inductive Caller where
  | outside
  | schedule
  | clear
  | reschedule
  deriving DecidableEq, Repr

structure State where
  netState : NetState
  publishStarted : Bool
  factoryResetPending : Int
  alarms : Queue Alarm
  handler : Handler
  callers : ℕ → Caller
  /-- When `reboot_work` is due. -/
  rebootWork : Option ℕ
  rebooted : Bool

def boot : State := ⟨.idle, false, 0, [], .idle, fun _ => .outside, none, false⟩

inductive Act where
  /-- A signal, with whether its status is `RET_OK`. -/
  | signal (sig : Signal) (ok : Bool)
  | checkPending
  | expediteReboot
  | alarm (callback : Alarm)
  | request (thread : ℕ)
  /-- `ZB_SCHEDULE_APP_CALLBACK`, with whether it returns `RET_OK`. -/
  | scheduleReset (thread : ℕ) (ok : Bool)
  | clearPending (thread : ℕ)
  | armReboot (thread : ℕ)
  /-- `reboot_work_fn` -/
  | reboot
  deriving DecidableEq, Repr

namespace State

/-- The switch over the signal. -/
def track (t : ℕ) (sig : Signal) (ok : Bool) (s : State) : State :=
  match sig with
  | .deviceFirstStart =>
    if ok then
      { s with
        netState := .joining
        alarms := Alarms.schedule s.alarms (t + joinWindowMs) .joinWindowExpire }
    else s
  | .deviceReboot => { s with netState := if ok then .joined else .idle }
  | .steering => if ok then { s with netState := .joined } else s
  | .leave | .noActiveLinksLeft => { s with netState := .idle }
  | .other => s

/-- The last block of the handler. -/
def startPublish (t : ℕ) (sig : Signal) (s : State) : State :=
  if !s.publishStarted ∧ (sig = .deviceFirstStart ∨ sig = .deviceReboot) then
    { s with
      publishStarted := true
      alarms := Alarms.schedule s.alarms (t + publishIntervalMs) .publishTick }
  else s

def signal (t : ℕ) (sig : Signal) (ok : Bool) (s : State) : State :=
  { (s.track t sig ok).startPublish t sig with
    handler := if sig = .leave then .checkPending else .idle }

def checkPending (s : State) : State :=
  { s with handler := if s.factoryResetPending ≠ 0 then .reschedule else .idle }

/-- `k_work_reschedule` -/
def rescheduleReboot (due : ℕ) (s : State) : State := { s with rebootWork := some due }

/-- An alarm that is due at `due` and runs at `t`. -/
def runAlarm (t due : ℕ) (callback : Alarm) (s : State) : State :=
  let s := { s with alarms := Alarms.take s.alarms due callback }
  match callback with
  | .joinWindowExpire =>
    { s with netState := if s.netState = .joining then .idle else s.netState }
  | .publishTick =>
    { s with alarms := Alarms.schedule s.alarms (t + publishIntervalMs) .publishTick }

def moveCaller (i : ℕ) (place : Caller) (s : State) : State :=
  { s with callers := Function.update s.callers i place }

/-- `atomic_set(&factory_reset_pending, 1) == 1` returns at once. -/
def request (i : ℕ) (s : State) : State :=
  { s.moveCaller i (if s.factoryResetPending = 1 then .outside else .schedule) with
    factoryResetPending := 1 }

end State

inductive Step (t : ℕ) (s : State) : Act → State → Prop where
  | signal (sig : Signal) (ok : Bool) : s.rebooted = false → s.handler = .idle →
      Step t s (.signal sig ok) (s.signal t sig ok)
  | checkPending : s.rebooted = false → s.handler = .checkPending →
      Step t s .checkPending s.checkPending
  | expediteReboot : s.rebooted = false → s.handler = .reschedule →
      Step t s .expediteReboot { s.rescheduleReboot (t + 1000) with handler := .idle }
  | alarm {due : ℕ} {callback : Alarm} : s.rebooted = false → s.handler = .idle →
      (due, callback) ∈ s.alarms → due ≤ t →
      Step t s (.alarm callback) (s.runAlarm t due callback)
  | request (i : ℕ) : s.rebooted = false → s.callers i = .outside →
      Step t s (.request i) (s.request i)
  | scheduleReset (i : ℕ) (ok : Bool) : s.rebooted = false → s.callers i = .schedule →
      Step t s (.scheduleReset i ok) (s.moveCaller i (if ok then .reschedule else .clear))
  | clearPending (i : ℕ) : s.rebooted = false → s.callers i = .clear →
      Step t s (.clearPending i) { s.moveCaller i .outside with factoryResetPending := 0 }
  | armReboot (i : ℕ) : s.rebooted = false → s.callers i = .reschedule →
      Step t s (.armReboot i) ((s.moveCaller i .outside).rescheduleReboot (t + 5000))
  | reboot {due : ℕ} : s.rebooted = false → s.rebootWork = some due → due ≤ t →
      Step t s .reboot { s with rebootWork := none, rebooted := true }

abbrev Run := Timed.Run Step

/-! What the signals and alarms so far say about the network state. -/

/-- The state a signal puts the device in, whatever it was in before. -/
def decision? : Act → Option NetState
  | .signal .deviceFirstStart true => some .joining
  | .signal .deviceReboot ok => some (if ok then .joined else .idle)
  | .signal .steering true => some .joined
  | .signal .leave _ | .signal .noActiveLinksLeft _ => some .idle
  | _ => none

/-- When an event opens the join window; none if it closes it. -/
def window? (e : ℕ × Act) : Option (Option ℕ) :=
  match e.2 with
  | .alarm .joinWindowExpire => some none
  | a => (decision? a).map fun state => if state = .joining then some e.1 else none

/-- What keeps the network state: the latest decision, and the alarm that will close
an open window. -/
structure Tracked (past : List (ℕ × Act)) (s : State) : Prop where
  joined : s.netState = .joined ↔ Latched.latest (fun e => decision? e.2) past = some .joined
  joining : s.netState = .joining ↔ ∃ opened, Latched.latest window? past = some (some opened)
  window : s.netState = .joining → ∀ opened, Latched.latest window? past = some (some opened) →
    opened + joinWindowMs ∈ Alarms.dues s.alarms .joinWindowExpire

theorem tracked_boot : Tracked [] boot := by
  constructor <;> simp [boot, Latched.latest]

/-- Neither a decision nor the end of a window. -/
theorem tracked_other {past : List (ℕ × Act)} {s s' : State} {t : ℕ} {a : Act}
    (tracked : Tracked past s) (decision : decision? a = none) (window : window? (t, a) = none)
    (same : s'.netState = s.netState)
    (alarms : ∀ due ∈ Alarms.dues s.alarms .joinWindowExpire,
      due ∈ Alarms.dues s'.alarms .joinWindowExpire) : Tracked (past ++ [(t, a)]) s' := by
  have decided : Latched.latest (fun e => decision? e.2) (past ++ [(t, a)]) =
      Latched.latest (fun e => decision? e.2) past := by
    rw [Latched.latest_concat, decision, Option.none_or]
  have opened : Latched.latest window? (past ++ [(t, a)]) = Latched.latest window? past := by
    rw [Latched.latest_concat, window, Option.none_or]
  constructor
  · rw [same, decided]
    exact tracked.joined
  · rw [same, opened]
    exact tracked.joining
  · rw [same, opened]
    exact fun joining time last => alarms _ (tracked.window joining time last)

/-- A decision other than to join. -/
theorem tracked_decided {past : List (ℕ × Act)} {s : State} {t : ℕ} {a : Act} (state : NetState)
    (decision : decision? a = some state) (window : window? (t, a) = some none)
    (closed : state ≠ .joining) (same : s.netState = state) : Tracked (past ++ [(t, a)]) s := by
  have decided : Latched.latest (fun e => decision? e.2) (past ++ [(t, a)]) = some state := by
    rw [Latched.latest_concat, decision, Option.some_or]
  have opened : Latched.latest window? (past ++ [(t, a)]) = some none := by
    rw [Latched.latest_concat, window, Option.some_or]
  constructor
  · rw [same, decided, Option.some_inj]
  · rw [same, opened]
    simp [closed]
  · exact fun joining => absurd (same.symm.trans joining) closed

theorem startPublish_netState (t : ℕ) (sig : Signal) (s : State) :
    (s.startPublish t sig).netState = s.netState := by
  unfold State.startPublish
  split <;> rfl

theorem startPublish_window (t : ℕ) (sig : Signal) (s : State) :
    Alarms.dues (s.startPublish t sig).alarms .joinWindowExpire =
      Alarms.dues s.alarms .joinWindowExpire := by
  unfold State.startPublish
  split
  · exact Alarms.dues_schedule_other _ _ _ _ (by decide)
  · rfl

theorem tracked_signal {past : List (ℕ × Act)} {s : State} (t : ℕ) (sig : Signal) (ok : Bool)
    (tracked : Tracked past s) : Tracked (past ++ [(t, .signal sig ok)]) (s.signal t sig ok) := by
  have state : (s.signal t sig ok).netState = (s.track t sig ok).netState :=
    startPublish_netState ..
  have alarms : Alarms.dues (s.signal t sig ok).alarms .joinWindowExpire =
      Alarms.dues (s.track t sig ok).alarms .joinWindowExpire := startPublish_window ..
  have idle : decision? (.signal sig ok) = none → s.track t sig ok = s →
      Tracked (past ++ [(t, .signal sig ok)]) (s.signal t sig ok) := by
    intro none same
    refine tracked_other tracked none ?_ (by rw [state, same])
      (by rw [alarms, same]; exact fun _ h => h)
    simp [window?, none]
  cases sig with
  | other => exact idle rfl rfl
  | leave => exact tracked_decided .idle rfl rfl (by decide) state
  | noActiveLinksLeft => exact tracked_decided .idle rfl rfl (by decide) state
  | deviceReboot =>
    cases ok with
    | true => exact tracked_decided .joined rfl rfl (by decide) state
    | false => exact tracked_decided .idle rfl rfl (by decide) state
  | steering =>
    cases ok with
    | true => exact tracked_decided .joined rfl rfl (by decide) state
    | false => exact idle rfl rfl
  | deviceFirstStart =>
    cases ok with
    | false => exact idle rfl rfl
    | true =>
      have joining : (s.signal t .deviceFirstStart true).netState = .joining := state
      have opened : Latched.latest window? (past ++ [(t, .signal .deviceFirstStart true)]) =
          some (some t) := by
        rw [Latched.latest_concat]
        rfl
      have decided : Latched.latest (fun e => decision? e.2)
          (past ++ [(t, .signal .deviceFirstStart true)]) = some .joining := by
        rw [Latched.latest_concat]
        rfl
      constructor
      · rw [joining, decided]
        simp
      · rw [joining, opened]
        simp
      · intro _ time last
        obtain rfl := Option.some.inj (Option.some.inj (opened.symm.trans last))
        rw [alarms]
        simp [State.track]

theorem tracked_expire {past : List (ℕ × Act)} {s : State} (t due : ℕ) (tracked : Tracked past s) :
    Tracked (past ++ [(t, .alarm .joinWindowExpire)]) (s.runAlarm t due .joinWindowExpire) := by
  have closed : (s.runAlarm t due .joinWindowExpire).netState ≠ .joining := by
    simp only [State.runAlarm]
    split
    · decide
    · assumption
  have joined : (s.runAlarm t due .joinWindowExpire).netState = .joined ↔ s.netState = .joined := by
    cases before : s.netState <;> simp [State.runAlarm, before]
  have opened : Latched.latest window? (past ++ [(t, .alarm .joinWindowExpire)]) = some none := by
    rw [Latched.latest_concat]
    rfl
  constructor
  · rw [joined, Latched.latest_concat]
    exact tracked.joined
  · rw [opened]
    simp [closed]
  · exact fun joining => absurd joining closed

theorem tracked_step {past : List (ℕ × Act)} {now t : ℕ} {s s' : State} {a : Act} (_ : now ≤ t)
    (step : Step t s a s') (tracked : Tracked past s) : Tracked (past ++ [(t, a)]) s' := by
  have other : ∀ s', decision? a = none → window? (t, a) = none → s'.netState = s.netState →
      s'.alarms = s.alarms → Tracked (past ++ [(t, a)]) s' := by
    intro s' decision window state alarms
    exact tracked_other tracked decision window state (alarms ▸ fun _ pending => pending)
  cases step with
  | signal sig ok _ _ => exact tracked_signal t sig ok tracked
  | @alarm due callback _ _ _ _ =>
    cases callback with
    | joinWindowExpire => exact tracked_expire t due tracked
    | publishTick =>
      refine tracked_other tracked rfl rfl rfl ?_
      simp only [State.runAlarm]
      rw [Alarms.dues_schedule_other _ _ _ _ (by decide),
        Alarms.dues_take_other _ _ _ _ (by decide)]
      exact fun _ pending => pending
  | checkPending _ _ => exact other _ rfl rfl rfl rfl
  | expediteReboot _ _ => exact other _ rfl rfl rfl rfl
  | request i _ _ => exact other _ rfl rfl rfl rfl
  | scheduleReset i ok _ _ => exact other _ rfl rfl rfl rfl
  | clearPending i _ _ => exact other _ rfl rfl rfl rfl
  | armReboot i _ _ => exact other _ rfl rfl rfl rfl
  | reboot _ _ _ => exact other _ rfl rfl rfl rfl

/-- Over any interleaving, the reported state is what the latest decisive signal made
it. It is joining from a first start until the next decision or the end of the window,
which comes in time if the alarms do. -/
theorem net_state_tells {events : List (ℕ × Act)} {now : ℕ} {s : State}
    (run : Run (0, boot) events (now, s)) :
    (s.netState = .joined ↔ Latched.latest (fun e => decision? e.2) events = some .joined) ∧
      (s.netState = .joining ↔ ∃ opened, Latched.latest window? events = some (some opened)) ∧
      ∀ opened, Latched.latest window? events = some (some opened) → Alarms.Quiet s.alarms now →
        now < opened + joinWindowMs := by
  have tracked : Tracked events s :=
    run.history (fun past y => Tracked past y.2) (fun ordered step => tracked_step ordered step) []
      tracked_boot
  refine ⟨tracked.joined, tracked.joining, fun opened last quiet => ?_⟩
  exact quiet.before (tracked.window (tracked.joining.mpr ⟨opened, last⟩) opened last)

/-- The window has been open for half a second. -/
theorem net_state_tells_opened : ∃ s,
    Run (0, boot) [(500, .signal .deviceFirstStart true), (1000, .request 0)] (1000, s) ∧
      s.netState = .joining ∧
      (s.netState = .joining ↔ ∃ opened, Latched.latest window?
        [(500, .signal .deviceFirstStart true), (1000, .request 0)] = some (some opened)) := by
  have run : ∃ s,
      Run (0, boot) [(500, .signal .deviceFirstStart true), (1000, .request 0)] (1000, s) ∧
        s.netState = .joining :=
    ⟨_, .next (Nat.zero_le _) (.signal _ _ rfl rfl)
      (.next (by decide) (.request 0 rfl rfl) (.refl _)), rfl⟩
  obtain ⟨s, run, joining⟩ := run
  exact ⟨s, run, joining, (net_state_tells run).2.1⟩

/-! The publish alarm, which schedules itself. -/

/-- The signals that start the tick. -/
def starts : Act → Bool
  | .signal .deviceFirstStart _ | .signal .deviceReboot _ => true
  | _ => false

def startedAt (events : List (ℕ × Act)) : Option ℕ :=
  events.findSome? fun e => if starts e.2 then some e.1 else none

def tick? (e : ℕ × Act) : Option ℕ := if e.2 = .alarm .publishTick then some e.1 else none

/-- When the stack started, and when the ticks ran. -/
def beats (events : List (ℕ × Act)) : List ℕ :=
  (startedAt events).toList ++ events.filterMap tick?

structure Beating (past : List (ℕ × Act)) (s : State) : Prop where
  started : s.publishStarted = (startedAt past).isSome
  silent : startedAt past = none → beats past = []
  pending : Alarms.dues s.alarms .publishTick =
    (beats past).getLast?.toList.map (· + publishIntervalMs)
  spaced : (beats past).Pairwise fun a b => a + publishIntervalMs ≤ b

theorem beating_boot : Beating [] boot := by
  constructor <;> simp [boot, beats, startedAt, Alarms.dues]

theorem beating_other {past : List (ℕ × Act)} {s s' : State} {t : ℕ} {a : Act}
    (beating : Beating past s) (silent : starts a = false ∨ startedAt past ≠ none)
    (noTick : tick? (t, a) = none) (started : s'.publishStarted = s.publishStarted)
    (alarms : Alarms.dues s'.alarms .publishTick = Alarms.dues s.alarms .publishTick) :
    Beating (past ++ [(t, a)]) s' := by
  have same : startedAt (past ++ [(t, a)]) = startedAt past := by
    simp only [startedAt, List.findSome?_append]
    rcases silent with silent | running
    · simp [silent]
    · exact Option.or_of_isSome (Option.isSome_iff_ne_none.mpr running)
  have ticks : beats (past ++ [(t, a)]) = beats past := by
    simp [beats, same, noTick]
  constructor
  · rw [started, same]
    exact beating.started
  · rw [same, ticks]
    exact beating.silent
  · rw [alarms, ticks]
    exact beating.pending
  · rw [ticks]
    exact beating.spaced

theorem track_publish (t : ℕ) (sig : Signal) (ok : Bool) (s : State) :
    (s.track t sig ok).publishStarted = s.publishStarted ∧
      Alarms.dues (s.track t sig ok).alarms .publishTick = Alarms.dues s.alarms .publishTick := by
  cases sig with
  | deviceFirstStart =>
    cases ok with
    | true => exact ⟨rfl, Alarms.dues_schedule_other _ _ _ _ (by decide)⟩
    | false => exact ⟨rfl, rfl⟩
  | steering => cases ok <;> exact ⟨rfl, rfl⟩
  | _ => exact ⟨rfl, rfl⟩

theorem beating_signal {past : List (ℕ × Act)} {s : State} (t : ℕ) (sig : Signal) (ok : Bool)
    (beating : Beating past s) : Beating (past ++ [(t, .signal sig ok)]) (s.signal t sig ok) := by
  obtain ⟨started, alarms⟩ := track_publish t sig ok s
  by_cases first : s.publishStarted = false ∧ (sig = .deviceFirstStart ∨ sig = .deviceReboot)
  · have never : startedAt past = none := by
      rw [← Option.isNone_iff_eq_none, ← Option.not_isSome, ← beating.started, first.1]
      rfl
    have start : starts (.signal sig ok) = true := by
      rcases first.2 with rfl | rfl <;> rfl
    have now : startedAt (past ++ [(t, .signal sig ok)]) = some t := by
      have earlier : past.findSome? (fun e => if starts e.2 then some e.1 else none) = none := never
      simp [startedAt, earlier, start]
    have ticks : past.filterMap tick? = [] := by
      simpa [beats, never] using beating.silent never
    have only : beats (past ++ [(t, .signal sig ok)]) = [t] := by
      simp [beats, now, ticks, tick?]
    have runs : (s.signal t sig ok).publishStarted = true ∧
        Alarms.dues (s.signal t sig ok).alarms .publishTick = [t + publishIntervalMs] := by
      have none : Alarms.dues s.alarms .publishTick = [] := by
        rw [beating.pending, beating.silent never]
        rfl
      simp [State.signal, State.startPublish, started, first, alarms, none]
    constructor
    · rw [now]
      exact runs.1
    · rw [now]
      exact fun absent => absurd absent (by simp)
    · rw [only]
      exact runs.2
    · rw [only]
      exact List.pairwise_singleton ..
  · have same : (s.track t sig ok).startPublish t sig = s.track t sig ok := by
      simp only [State.startPublish, started]
      refine if_neg fun both => first ?_
      simpa using both
    refine beating_other beating ?_ rfl ?_ ?_
    · by_cases start : starts (.signal sig ok) = true
      · right
        have which : sig = .deviceFirstStart ∨ sig = .deviceReboot := by
          cases sig <;> simp_all [starts]
        rw [← Option.isSome_iff_ne_none, ← beating.started]
        by_contra stopped
        exact first ⟨by simpa using stopped, which⟩
      · exact .inl (by simpa using start)
    · simp only [State.signal, same, started]
    · simp only [State.signal, same, alarms]

theorem beating_tick {past : List (ℕ × Act)} {s : State} {t due : ℕ} (beating : Beating past s)
    (pending : (due, .publishTick) ∈ s.alarms) (reached : due ≤ t) :
    Beating (past ++ [(t, .alarm .publishTick)]) (s.runAlarm t due .publishTick) := by
  have one := Alarms.mem_dues.mpr pending
  rw [beating.pending] at one
  obtain ⟨last, latest, rfl⟩ : ∃ last, (beats past).getLast? = some last ∧
      last + publishIntervalMs = due := by simpa using one
  have same : startedAt (past ++ [(t, .alarm .publishTick)]) = startedAt past := by
    simp [startedAt, starts]
  have ticks : beats (past ++ [(t, .alarm .publishTick)]) = beats past ++ [t] := by
    simp [beats, same, tick?]
  constructor
  · rw [same]
    exact beating.started
  · rw [same, ticks]
    intro never
    have nothing := beating.silent never
    rw [nothing] at latest
    contradiction
  · rw [ticks]
    simp [State.runAlarm, beating.pending, latest]
  · rw [ticks, List.pairwise_append]
    refine ⟨beating.spaced, List.pairwise_singleton .., fun a member b final => ?_⟩
    obtain rfl := List.mem_singleton.mp final
    obtain ⟨front, split⟩ := List.getLast?_eq_some_iff.mp latest
    have spaced := beating.spaced
    rw [split, List.pairwise_append] at spaced
    rw [split, List.mem_append, List.mem_singleton] at member
    rcases member with earlier | rfl
    · have := spaced.2.2 a earlier last (List.mem_singleton_self last)
      omega
    · exact reached

theorem beating_step {past : List (ℕ × Act)} {now t : ℕ} {s s' : State} {a : Act} (_ : now ≤ t)
    (step : Step t s a s') (beating : Beating past s) : Beating (past ++ [(t, a)]) s' := by
  have other : ∀ s', starts a = false → tick? (t, a) = none →
      s'.publishStarted = s.publishStarted → s'.alarms = s.alarms →
      Beating (past ++ [(t, a)]) s' := by
    intro s' silent noTick started alarms
    exact beating_other beating (.inl silent) noTick started (congrArg (Alarms.dues · _) alarms)
  cases step with
  | signal sig ok _ _ => exact beating_signal t sig ok beating
  | @alarm due callback _ _ pending reached =>
    cases callback with
    | publishTick => exact beating_tick beating pending reached
    | joinWindowExpire =>
      refine beating_other beating (.inl rfl) rfl rfl ?_
      exact Alarms.dues_take_other _ _ _ _ (by decide)
  | checkPending _ _ => exact other _ rfl rfl rfl rfl
  | expediteReboot _ _ => exact other _ rfl rfl rfl rfl
  | request i _ _ => exact other _ rfl rfl rfl rfl
  | scheduleReset i ok _ _ => exact other _ rfl rfl rfl rfl
  | clearPending i _ _ => exact other _ rfl rfl rfl rfl
  | armReboot i _ _ => exact other _ rfl rfl rfl rfl
  | reboot _ _ _ => exact other _ rfl rfl rfl rfl

/-- Once the stack has started there is exactly one tick pending, two seconds after
the one before, whatever signals come again: ticks are never closer and never stop. -/
theorem publish_beats {events : List (ℕ × Act)} {now : ℕ} {s : State}
    (run : Run (0, boot) events (now, s)) :
    (beats events).Pairwise (fun a b => a + publishIntervalMs ≤ b) ∧
      (Alarms.dues s.alarms .publishTick).length = (startedAt events).toList.length ∧
      ∀ last, (beats events).getLast? = some last → Alarms.Quiet s.alarms now →
        now < last + publishIntervalMs := by
  have beating : Beating events s :=
    run.history (fun past y => Beating past y.2) (fun ordered step => beating_step ordered step) []
      beating_boot
  have next : ∀ last, (beats events).getLast? = some last →
      last + publishIntervalMs ∈ Alarms.dues s.alarms .publishTick := by
    intro last latest
    rw [beating.pending, latest]
    exact List.mem_singleton_self _
  refine ⟨beating.spaced, ?_, fun last latest quiet => quiet.before (next last latest)⟩
  · rw [beating.pending]
    cases since : startedAt events with
    | none => simp [beating.silent since]
    | some start =>
      have some : beats events ≠ [] := by simp [beats, since]
      simp [List.getLast?_eq_some_getLast some]

/-- A second start leaves the chain alone. -/
theorem publish_beats_restarted : ∃ s,
    Run (0, boot) [(500, .signal .deviceReboot false), (900, .signal .deviceReboot true)] (900, s) ∧
      (Alarms.dues s.alarms .publishTick).length = 1 := by
  have run : ∃ s,
      Run (0, boot) [(500, .signal .deviceReboot false), (900, .signal .deviceReboot true)]
        (900, s) :=
    ⟨_, .next (Nat.zero_le _) (.signal _ _ rfl rfl)
      (.next (by decide) (.signal _ _ rfl rfl) (.refl _))⟩
  obtain ⟨s, run⟩ := run
  exact ⟨s, run, (publish_beats run).2.1⟩

end FlexitCs60.Zigbee.Network
