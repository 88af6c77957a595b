import FlexitCs60.Mirror.Listener
import FlexitCs60.Zigbee.Threads

/-! The mirror and the Zigbee data model side by side. The tick samples the
mirror's link state; setters may be called by anyone. -/
namespace FlexitCs60.Gateway

/-- `FLEXIT_CS60_LINK_STALE_MS` -/
def cs60LinkStaleMs : UInt32 := 5000

/-- An uptime as the signed 64-bit value it is read as. -/
def uptimeMs (t : Mirror.Uptime) : ℤ := t.val

theorem uptimeMs_le {s t : Mirror.Uptime} (ordered : s.val ≤ t.val) : uptimeMs s ≤ uptimeMs t :=
  Int.ofNat_le.mpr ordered

structure State where
  listener : Mirror.Listener
  zigbee : Zigbee.State

def boot : State := ⟨Mirror.listening, Zigbee.boot⟩

inductive Act where
  | mirror (act : Mirror.FeedAct)
  | zigbee (act : Zigbee.Act)
  deriving DecidableEq, Repr

def Act.zigbee? : Act → Option Zigbee.Act
  | .zigbee act => some act
  | _ => none

/-- What the tick reads of the mirror. -/
def State.linkUp (t : Mirror.Uptime) (s : State) : Bool :=
  Mirror.cs60LinkUp cs60LinkStaleMs t.word s.listener.traced.state

variable [Zephyr]

inductive Step (t : Mirror.Uptime) (s : State) : Act → State → Prop where
  | mirror {act : Mirror.FeedAct} {l : Mirror.Listener} :
      Mirror.FeedStep t s.listener act l → Step t s (.mirror act) { s with listener := l }
  | zigbee {act : Zigbee.Act} {z : Zigbee.State} :
      Zigbee.Step (uptimeMs t) s.zigbee act z →
      (∀ up, act = .publishCopy up → up = s.linkUp t) →
      Step t s (.zigbee act) { s with zigbee := z }

abbrev Run := Timed.Run Step

/-- The part of a history that the Zigbee threads see. -/
def zigbeeEvents (events : List (Mirror.Uptime × Act)) : List (ℤ × Zigbee.Act) :=
  events.filterMap fun e => e.2.zigbee?.map (uptimeMs e.1, ·)

/-- A run of both is a run of the Zigbee threads. -/
theorem zigbee_run {x y : Mirror.Uptime × State} {events : List (Mirror.Uptime × Act)}
    (run : Run x events y) :
    ∃ later ≤ uptimeMs y.1,
      Zigbee.Run (uptimeMs x.1, x.2.zigbee) (zigbeeEvents events) (later, y.2.zigbee) := by
  refine run.project State.zigbee Act.zigbee? (fun _ _ => uptimeMs_le) ?_ (le_refl _)
  intro t s a s' step
  cases step with
  | mirror => rfl
  | zigbee step link => exact step

theorem faithful_step {now t : Mirror.Uptime} {s s' : State} {a : Act} (ordered : now ≤ t)
    (step : Step t s a s') (faithful : Mirror.Faithful now s.listener) :
    Mirror.Faithful t s'.listener := by
  cases step with
  | mirror step => exact faithful.step ordered step
  | zigbee step link => exact faithful.later ordered

theorem faithful_run {events : List (Mirror.Uptime × Act)} {x y : Mirror.Uptime × State}
    (run : Run x events y) (initial : Mirror.Faithful x.1 x.2.listener) :
    Mirror.Faithful y.1 y.2.listener :=
  run.history (fun _ y => Mirror.Faithful y.1 y.2.listener) faithful_step [] initial

theorem arrivals_step {t : Mirror.Uptime} {s s' : State} {a : Act} (step : Step t s a s') :
    s.listener.arrivals <+: s'.listener.arrivals := by
  cases step with
  | mirror step => exact Mirror.arrivals_step step
  | zigbee step link => exact List.prefix_refl _

end FlexitCs60.Gateway
