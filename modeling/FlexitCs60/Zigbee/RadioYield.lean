import FlexitCs60.System.Labelled

/-! The DFU radio yield: image management events suspend and resume the ZBOSS
thread, and a watchdog work item resumes it when they stop coming. The callback
and the work item run on two threads; each of their steps is atomic. -/
namespace FlexitCs60.Zigbee.RadioYield
open Labelled

/-- The image management events the callback is registered for. -/
inductive Event where
  /-- `created` is what `zigbee_debug_zboss_thread_is_created` answers. -/
  | dfuStarted (created : Bool)
  | dfuChunkWriteComplete
  | dfuPending
  | dfuStopped
  deriving DecidableEq, Repr

/-- The next step of `dfu_radio_yield_cb`. -/
inductive Callback where
  | idle
  /-- `atomic_cas(&zboss_dfu_suspended, 0, 1)` -/
  | claim
  | suspend
  /-- `k_work_reschedule` -/
  | reschedule
  /-- `k_work_cancel_delayable` -/
  | cancel
  /-- `atomic_cas(&zboss_dfu_suspended, 1, 0)` -/
  | release
  | resume
  deriving DecidableEq, Repr

/-- The next step of `dfu_resume_work_fn`. -/
inductive Work where
  | idle
  | release
  | resume
  deriving DecidableEq, Repr

structure State where
  zbossDfuSuspended : Int
  /-- The ZBOSS thread is suspended. -/
  suspended : Bool
  /-- The delayable work item's timer runs. -/
  armed : Bool
  callback : Callback
  work : Work
  deriving DecidableEq, Repr

def boot : State := ⟨0, false, false, .idle, .idle⟩

/-- Success, and the new value of the target. -/
def atomicCas (target old new : Int) : Bool × Int :=
  if target = old then (true, new) else (false, target)

/-- The first step an event leads to. -/
def Event.entry : Event → Callback
  | .dfuStarted created => if created then .claim else .reschedule
  | .dfuChunkWriteComplete | .dfuPending => .reschedule
  | .dfuStopped => .cancel

namespace State

def callbackStep (s : State) : State :=
  match s.callback with
  | .idle => s
  | .claim =>
    let (swapped, flag) := atomicCas s.zbossDfuSuspended 0 1
    { s with zbossDfuSuspended := flag, callback := if swapped then .suspend else .reschedule }
  | .suspend => { s with suspended := true, callback := .reschedule }
  | .reschedule => { s with armed := true, callback := .idle }
  | .cancel => { s with armed := false, callback := .release }
  | .release =>
    let (swapped, flag) := atomicCas s.zbossDfuSuspended 1 0
    { s with zbossDfuSuspended := flag, callback := if swapped then .resume else .idle }
  | .resume => { s with suspended := false, callback := .idle }

def workStep (s : State) : State :=
  match s.work with
  | .idle => s
  | .release =>
    let (swapped, flag) := atomicCas s.zbossDfuSuspended 1 0
    { s with zbossDfuSuspended := flag, work := if swapped then .resume else .idle }
  | .resume => { s with suspended := false, work := .idle }

end State

inductive Act where
  | notify (event : Event)
  | callback
  /-- The timer expires and the work item starts. -/
  | expire
  | work
  deriving DecidableEq, Repr

/-- The two threads, in any interleaving. -/
inductive Step (s : State) : Act → State → Prop where
  | notify (event : Event) : s.callback = .idle →
      Step s (.notify event) { s with callback := event.entry }
  | callback : s.callback ≠ .idle → Step s .callback s.callbackStep
  | expire : s.armed = true → s.work = .idle →
      Step s .expire { s with armed := false, work := .release }
  | work : s.work ≠ .idle → Step s .work s.workStep

/-- Between the calls a suspended thread is flagged, and the watchdog that will
resume it is armed. -/
def Rescued (s : State) : Prop :=
  s.callback = .idle → s.work = .idle → s.suspended = true →
    s.zbossDfuSuspended = 1 ∧ s.armed = true ∧
      ∃ t, Run Step s [.expire, .work, .work] t ∧ t.suspended = false

/-- The watchdog, having lowered the flag, resumes the thread before a starting
upload that had just raised it gets to suspend. -/
def Overtakes (s : State) (a : Act) : Prop :=
  a = .work ∧ s.work = .resume ∧ s.callback = .suspend ∧ s.zbossDfuSuspended ≠ 1

instance (s : State) (a : Act) : Decidable (Overtakes s a) :=
  inferInstanceAs (Decidable (_ ∧ _ ∧ _ ∧ _))

/-- What makes the flag tell the truth. -/
structure Tracked (s : State) : Prop where
  flag : s.zbossDfuSuspended = 0 ∨ s.zbossDfuSuspended = 1
  /-- A suspended thread is flagged, or about to be resumed. -/
  suspended : s.suspended = true →
    s.zbossDfuSuspended = 1 ∨ s.work = .resume ∨ s.callback = .resume
  /-- A flagged suspended thread has its watchdog armed, or something on its way. -/
  released : s.suspended = true → s.zbossDfuSuspended = 1 →
    s.armed = true ∨ s.callback = .suspend ∨ s.callback = .reschedule ∨ s.callback = .release ∨
      s.work = .release
  /-- An upload about to suspend holds the flag, or the watchdog is still to resume. -/
  claimed : s.callback = .suspend → s.zbossDfuSuspended = 1 ∨ s.work = .resume

theorem tracked_boot : Tracked boot := by
  constructor <;> simp [boot]

theorem tracked_callbackStep {s : State} (tracked : Tracked s) : Tracked s.callbackStep := by
  obtain ⟨flag, suspended, released, claimed⟩ := tracked
  unfold State.callbackStep
  cases place : s.callback with
  | idle => exact ⟨flag, suspended, released, claimed⟩
  | claim =>
    rcases flag with down | up
    · constructor <;> simp_all [atomicCas]
    · constructor <;> simp_all [atomicCas]
  | suspend => constructor <;> simp_all
  | reschedule => constructor <;> simp_all
  | cancel => constructor <;> simp_all
  | release =>
    rcases flag with down | up
    · constructor <;> simp_all [atomicCas]
    · constructor <;> simp_all [atomicCas]
  | resume => constructor <;> simp_all

theorem tracked_workStep {s : State} (tracked : Tracked s) (fair : ¬ Overtakes s .work) :
    Tracked s.workStep := by
  obtain ⟨flag, suspended, released, claimed⟩ := tracked
  unfold State.workStep
  cases place : s.work with
  | idle => exact ⟨flag, suspended, released, claimed⟩
  | release =>
    rcases flag with down | up
    · constructor <;> simp_all [atomicCas]
    · constructor <;> simp_all [atomicCas]
  | resume =>
    have holds : s.callback = .suspend → s.zbossDfuSuspended = 1 := by
      intro starting
      by_contra lowered
      exact fair ⟨rfl, place, starting, lowered⟩
    constructor <;> simp_all

theorem tracked_step {s t : State} {a : Act} (fair : ¬ Overtakes s a) (step : Step s a t)
    (tracked : Tracked s) : Tracked t := by
  cases step with
  | notify event idle =>
    obtain ⟨flag, suspended, released, claimed⟩ := tracked
    cases event with
    | dfuStarted created => cases created <;> constructor <;> simp_all [Event.entry]
    | dfuChunkWriteComplete => constructor <;> simp_all [Event.entry]
    | dfuPending => constructor <;> simp_all [Event.entry]
    | dfuStopped => constructor <;> simp_all [Event.entry]
  | callback busy => exact tracked_callbackStep tracked
  | expire armed idle =>
    obtain ⟨flag, suspended, released, claimed⟩ := tracked
    constructor <;> simp_all
  | work busy => exact tracked_workStep tracked fair

/-- The watchdog's two steps resume a flagged thread. -/
theorem expiry_resumes {s : State} (idle : s.work = .idle) (flag : s.zbossDfuSuspended = 1)
    (armed : s.armed = true) :
    ∃ t, Run Step s [.expire, .work, .work] t ∧ t.suspended = false := by
  let fired : State := { s with armed := false, work := .release }
  let lowered : State := { fired with zbossDfuSuspended := 0, work := .resume }
  have expire : Step s .expire fired := .expire armed idle
  have lower : Step fired .work lowered := by
    have same : fired.workStep = lowered := by
      simp [fired, lowered, State.workStep, atomicCas, flag]
    exact same ▸ .work (by simp [fired])
  have resume : Step lowered .work lowered.workStep := .work (by simp [lowered])
  exact ⟨lowered.workStep, .next expire (.next lower (.next resume (.refl _))), rfl⟩

theorem Tracked.rescued {s : State} (tracked : Tracked s) : Rescued s := by
  intro quiet idle suspended
  have flag : s.zbossDfuSuspended = 1 := by
    have := tracked.suspended suspended
    simp_all
  have armed : s.armed = true := by
    have := tracked.released suspended flag
    simp_all
  exact ⟨flag, armed, expiry_resumes idle flag armed⟩

/-- Unless the watchdog overtakes a starting upload, ZBOSS is never left suspended
without a rescue. -/
theorem zboss_rescued {acts : List Act} {s : State}
    (run : Run (Guarded (fun s a => ¬ Overtakes s a) Step) boot acts s) : Rescued s :=
  (run.invariant Tracked (fun step => tracked_step step.1 step.2) tracked_boot).rescued

/-- An upload has just started. -/
theorem zboss_rescued_started : Rescued ⟨1, true, true, .idle, .idle⟩ :=
  zboss_rescued (.next ⟨by decide, .notify (.dfuStarted true) rfl⟩
    (.next ⟨by decide, .callback (by decide)⟩ (.next ⟨by decide, .callback (by decide)⟩
      (.next ⟨by decide, .callback (by decide)⟩ (.refl _)))))

/-- A watchdog that overtakes strands the thread once the callback is done. -/
theorem stranded_of_overtakes {s : State} (overtakes : Overtakes s .work) :
    ∃ t, Run Step s [.work, .callback, .callback] t ∧ ¬ Rescued t := by
  obtain ⟨_, resuming, starting, lowered⟩ := overtakes
  let resumed : State := { s with suspended := false, work := .idle }
  let stranded : State := { resumed with suspended := true, armed := true, callback := .idle }
  have resume : Step s .work resumed := by
    have same : s.workStep = resumed := by
      simp [resumed, State.workStep, resuming]
    exact same ▸ .work (by simp [resuming])
  have suspend : Step resumed .callback resumed.callbackStep := .callback (by simp [resumed, starting])
  have rearm : Step resumed.callbackStep .callback stranded := by
    have same : resumed.callbackStep.callbackStep = stranded := by
      simp [resumed, stranded, State.callbackStep, starting]
    exact same ▸ .callback (by simp [resumed, State.callbackStep, starting])
  refine ⟨stranded, .next resume (.next suspend (.next rearm (.refl _))), fun rescued => ?_⟩
  exact lowered (rescued rfl rfl rfl).1

/-- A timer left over from an earlier upload expires between the flag and the
suspend of the next one. The thread stays suspended, and the next expiry does
not resume it either. -/
theorem old_timer_strands :
    let acts : List Act := [.notify .dfuChunkWriteComplete, .callback, .notify (.dfuStarted true),
      .callback, .expire, .work, .work, .callback, .callback]
    let s : State := ⟨0, true, true, .idle, .idle⟩
    Run Step boot acts s ∧ ¬ Rescued s ∧ Run Step s [.expire, .work] ⟨0, true, false, .idle, .idle⟩ := by
  intro acts s
  refine ⟨?_, fun rescued => ?_, ?_⟩
  · exact .next (.notify _ rfl) (.next (.callback (by decide)) (.next (.notify _ rfl)
      (.next (.callback (by decide)) (.next (.expire rfl rfl) (.next (.work (by decide))
        (.next (.work (by decide)) (.next (.callback (by decide)) (.next (.callback (by decide))
          (.refl _)))))))))
  · exact absurd (rescued rfl rfl rfl).1 (by decide)
  · exact .next (.expire rfl rfl) (.next (.work (by decide)) (.refl _))

end FlexitCs60.Zigbee.RadioYield
