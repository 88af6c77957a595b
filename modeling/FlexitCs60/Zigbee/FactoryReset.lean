import FlexitCs60.Zigbee.Network

/-! The factory reset: whoever asks for it and whenever the network is left, it is
scheduled once, and the reboot that makes the device joinable follows. -/
namespace FlexitCs60.Zigbee.Network

/-- `ZB_SCHEDULE_APP_CALLBACK` took the reset. -/
def scheduled : Act → Bool
  | .scheduleReset _ ok => ok
  | _ => false

def resets (events : List (ℕ × Act)) : ℕ := events.countP fun e => scheduled e.2

/-- When the reboot is due after an event that sets its timer. -/
def kick? (e : ℕ × Act) : Option ℕ :=
  match e.2 with
  | .armReboot _ => some (e.1 + 5000)
  | .expediteReboot => some (e.1 + 1000)
  | _ => none

def Requested (events : List (ℕ × Act)) : Prop := ∃ t i, (t, .request i) ∈ events

theorem Requested.later {past : List (ℕ × Act)} (requested : Requested past) (e : ℕ × Act) :
    Requested (past ++ [e]) := by
  obtain ⟨t, i, member⟩ := requested
  exact ⟨t, i, List.mem_append_left _ member⟩

theorem resets_concat (past : List (ℕ × Act)) (t : ℕ) (a : Act) :
    resets (past ++ [(t, a)]) = resets past + if scheduled a then 1 else 0 := by
  simp [resets, List.countP_cons]

/-- The flag is held by the thread inside `zigbee_ep_factory_reset`, or by the reset it
has scheduled. -/
structure Held (resets : ℕ) (flag : Int) (callers : ℕ → Caller) : Prop where
  bit : flag = 0 ∨ flag = 1
  free : flag = 0 → (∀ i, callers i = .outside) ∧ resets = 0
  taken : flag = 1 → (∃ i, callers i ≠ .outside) ∨ resets = 1
  alone : ∀ i j, callers i ≠ .outside → callers j ≠ .outside → i = j
  before : ∀ i, callers i = .schedule ∨ callers i = .clear → resets = 0
  after : ∀ i, callers i = .reschedule → resets = 1
  once : resets ≤ 1

theorem held_boot : Held 0 0 fun _ => .outside := by
  constructor <;> simp

theorem Held.set {resets : ℕ} {flag : Int} {callers : ℕ → Caller} (held : Held resets flag callers)
    {i : ℕ} (inside : callers i ≠ .outside) : flag = 1 := by
  rcases held.bit with zero | one
  · exact absurd ((held.free zero).1 i) inside
  · exact one

/-- The thread inside moves on. -/
theorem Held.move {resets resets' : ℕ} {flag : Int} {callers : ℕ → Caller} {i : ℕ} {place : Caller}
    (held : Held resets flag callers) (inside : callers i ≠ .outside)
    (before : place = .schedule ∨ place = .clear → resets' = 0)
    (after : place = .reschedule → resets' = 1) (left : place = .outside → resets' = 1)
    (once : resets' ≤ 1) : Held resets' flag (Function.update callers i place) := by
  have one := held.set inside
  have others : ∀ j, j ≠ i → callers j = .outside := by
    intro j other
    by_contra busy
    exact other (held.alone j i busy inside)
  have only : ∀ j, Function.update callers i place j ≠ .outside → j = i := by
    intro j busy
    by_contra other
    rw [Function.update_of_ne other] at busy
    exact busy (others j other)
  refine ⟨.inr one, ?_, ?_, ?_, ?_, ?_, once⟩
  · rw [one]
    exact fun zero => absurd zero (by decide)
  · intro _
    by_cases out : place = .outside
    · exact .inr (left out)
    · exact .inl ⟨i, by rwa [Function.update_self]⟩
  · intro j k first second
    rw [only j first, only k second]
  · intro j waits
    have here : j = i := by
      apply only
      rcases waits with schedule | clear
      · simp [schedule]
      · simp [clear]
    rw [here, Function.update_self] at waits
    exact before waits
  · intro j waits
    have here : j = i := only j (by simp [waits])
    rw [here, Function.update_self] at waits
    exact after waits

theorem held_request {resets : ℕ} {flag : Int} {callers : ℕ → Caller}
    (held : Held resets flag callers) (i : ℕ) (outside : callers i = .outside) :
    Held resets 1 (Function.update callers i (if flag = 1 then .outside else .schedule)) := by
  rcases held.bit with zero | one
  · obtain ⟨nobody, none⟩ := held.free zero
    rw [if_neg (by simp [zero])]
    have only : ∀ j, Function.update callers i .schedule j ≠ .outside → j = i := by
      intro j busy
      by_contra other
      rw [Function.update_of_ne other] at busy
      exact busy (nobody j)
    refine ⟨.inr rfl, nofun, fun _ => .inl ⟨i, by simp⟩, ?_, fun _ _ => none, ?_, by omega⟩
    · intro j k first second
      rw [only j first, only k second]
    · intro j waits
      have here : j = i := only j (by simp [waits])
      rw [here, Function.update_self] at waits
      contradiction
  · have same : Function.update callers i .outside = callers := by
      rw [← outside, Function.update_eq_self]
    rw [if_pos one, same, ← one]
    exact held

/-- The reset was not taken; the flag is lowered for the next request. -/
theorem held_clear {resets : ℕ} {flag : Int} {callers : ℕ → Caller}
    (held : Held resets flag callers) {i : ℕ} (clear : callers i = .clear) :
    Held resets 0 (Function.update callers i .outside) := by
  have none := held.before i (.inr clear)
  have nobody : ∀ j, Function.update callers i .outside j = .outside := by
    intro j
    by_cases here : j = i
    · rw [here, Function.update_self]
    · rw [Function.update_of_ne here]
      by_contra busy
      exact here (held.alone j i busy (by simp [clear]))
  refine ⟨.inl rfl, fun _ => ⟨nobody, none⟩, nofun, ?_, fun _ _ => none, ?_, by omega⟩
  · exact fun j _ first => absurd (nobody j) first
  · exact fun j waits => absurd ((nobody j).symm.trans waits) (by decide)

/-- What a run keeps of the factory reset. -/
structure Resetting (past : List (ℕ × Act)) (s : State) : Prop where
  held : Held (resets past) s.factoryResetPending s.callers
  requested : s.factoryResetPending ≠ 0 → Requested past
  expedited : s.handler = .reschedule → Requested past
  armed : s.rebootWork ≠ none → Requested past
  rebooted : s.rebooted = true → Requested past
  timer : s.rebooted = false → s.rebootWork = Latched.latest kick? past
  /-- A reset that was taken has set the timer, or is about to. -/
  promised : resets past = 1 → (∃ i, s.callers i = .reschedule) ∨ Latched.latest kick? past ≠ none

theorem resetting_boot : Resetting [] boot :=
  ⟨held_boot, fun set => absurd rfl set, nofun, fun armed => absurd rfl armed, nofun, fun _ => rfl,
    nofun⟩

theorem latest_kick (past : List (ℕ × Act)) {t : ℕ} {a : Act} (none : kick? (t, a) = none) :
    Latched.latest kick? (past ++ [(t, a)]) = Latched.latest kick? past := by
  rw [Latched.latest_concat, none, Option.none_or]

/-- A step that does not set the timer. -/
theorem Resetting.untimed {past : List (ℕ × Act)} {s s' : State} {t : ℕ} {a : Act}
    (kept : Resetting past s) (none : kick? (t, a) = none)
    (work : s'.rebootWork = s.rebootWork) (on : s'.rebooted = s.rebooted)
    (held : Held (resets (past ++ [(t, a)])) s'.factoryResetPending s'.callers)
    (requested : s'.factoryResetPending ≠ 0 → Requested (past ++ [(t, a)]))
    (expedited : s'.handler = .reschedule → Requested past)
    (promised : resets (past ++ [(t, a)]) = 1 →
      (∃ i, s'.callers i = .reschedule) ∨ Latched.latest kick? past ≠ Option.none) :
    Resetting (past ++ [(t, a)]) s' := by
  constructor
  · exact held
  · exact requested
  · exact fun due => (expedited due).later _
  · rw [work]
    exact fun armed => (kept.armed armed).later _
  · rw [on]
    exact fun done => (kept.rebooted done).later _
  · rw [on, work, latest_kick past none]
    exact kept.timer
  · rw [latest_kick past none]
    exact promised

/-- A step that leaves the factory reset alone, but for the handler. -/
theorem Resetting.frame {past : List (ℕ × Act)} {s s' : State} {t : ℕ} {a : Act}
    (kept : Resetting past s) (unscheduled : scheduled a = false) (none : kick? (t, a) = none)
    (flag : s'.factoryResetPending = s.factoryResetPending) (callers : s'.callers = s.callers)
    (work : s'.rebootWork = s.rebootWork) (on : s'.rebooted = s.rebooted)
    (expedited : s'.handler = .reschedule → Requested past) : Resetting (past ++ [(t, a)]) s' := by
  have count : resets (past ++ [(t, a)]) = resets past := by
    rw [resets_concat, unscheduled]
    rfl
  apply kept.untimed none work on
  · rw [count, flag, callers]
    exact kept.held
  · rw [flag]
    exact fun set => (kept.requested set).later _
  · exact expedited
  · rw [count, callers]
    exact kept.promised

theorem latest_kick_some (past : List (ℕ × Act)) {t due : ℕ} {a : Act}
    (kick : kick? (t, a) = some due) :
    Latched.latest kick? (past ++ [(t, a)]) = some due := by
  rw [Latched.latest_concat, kick, Option.some_or]

theorem signal_frame (t : ℕ) (sig : Signal) (ok : Bool) (s : State) :
    let s' := s.signal t sig ok
    s'.factoryResetPending = s.factoryResetPending ∧ s'.callers = s.callers ∧
      s'.rebootWork = s.rebootWork ∧ s'.rebooted = s.rebooted ∧ s'.handler ≠ .reschedule := by
  have started : ∀ s : State, (s.startPublish t sig).factoryResetPending = s.factoryResetPending ∧
      (s.startPublish t sig).callers = s.callers ∧
      (s.startPublish t sig).rebootWork = s.rebootWork ∧
      (s.startPublish t sig).rebooted = s.rebooted := by
    intro s
    unfold State.startPublish
    split <;> exact ⟨rfl, rfl, rfl, rfl⟩
  have tracked : (s.track t sig ok).factoryResetPending = s.factoryResetPending ∧
      (s.track t sig ok).callers = s.callers ∧ (s.track t sig ok).rebootWork = s.rebootWork ∧
      (s.track t sig ok).rebooted = s.rebooted := by
    cases sig <;> cases ok <;> exact ⟨rfl, rfl, rfl, rfl⟩
  obtain ⟨flag, callers, work, on⟩ := started (s.track t sig ok)
  refine ⟨flag.trans tracked.1, callers.trans tracked.2.1, work.trans tracked.2.2.1,
    on.trans tracked.2.2.2, ?_⟩
  simp only [State.signal]
  split <;> decide

theorem Resetting.request {past : List (ℕ × Act)} {s : State} (kept : Resetting past s) (t : ℕ)
    {i : ℕ} (outside : s.callers i = .outside) :
    Resetting (past ++ [(t, .request i)]) (s.request i) := by
  have count : resets (past ++ [(t, .request i)]) = resets past := resets_concat past t _
  refine kept.untimed rfl rfl rfl ?_ ?_ ?_ ?_
  · rw [count]
    exact held_request kept.held i outside
  · exact fun _ => ⟨t, i, by simp⟩
  · exact kept.expedited
  · intro one
    rw [count] at one
    refine (kept.promised one).imp_left ?_
    rintro ⟨j, reschedule⟩
    have other : j ≠ i := by
      rintro rfl
      rw [outside] at reschedule
      contradiction
    exact ⟨j, (Function.update_of_ne other ..).trans reschedule⟩

/-- `zb_schedule_app_callback` takes the reset, or does not. -/
theorem Held.schedule {flag : Int} {callers : ℕ → Caller} (held : Held 0 flag callers) {i : ℕ}
    (schedule : callers i = .schedule) (ok : Bool) :
    Held (if ok then 1 else 0) flag
      (Function.update callers i (if ok then .reschedule else .clear)) := by
  have inside : callers i ≠ .outside := by simp [schedule]
  cases ok with
  | true => exact held.move inside (by simp) (fun _ => rfl) (by simp) (by simp)
  | false => exact held.move inside (fun _ => rfl) (by simp) (by simp) (by simp)

theorem Resetting.scheduleReset {past : List (ℕ × Act)} {s : State} (kept : Resetting past s)
    (t : ℕ) {i : ℕ} (schedule : s.callers i = .schedule) (ok : Bool) :
    Resetting (past ++ [(t, .scheduleReset i ok)])
      (s.moveCaller i (if ok then .reschedule else .clear)) := by
  have none := kept.held.before i (.inl schedule)
  have count : resets (past ++ [(t, .scheduleReset i ok)]) = if ok then 1 else 0 := by
    rw [resets_concat, none, Nat.zero_add]
    rfl
  refine kept.untimed rfl rfl rfl ?_ ?_ ?_ ?_
  · rw [count]
    exact (none ▸ kept.held).schedule schedule ok
  · exact fun set => (kept.requested set).later _
  · exact kept.expedited
  · rw [count]
    intro one
    have taken : ok = true := by
      by_contra refused
      simp [refused] at one
    exact .inl ⟨i, by simp [State.moveCaller, taken]⟩

/-- The timer is set by the thread that has scheduled the reset. -/
theorem Resetting.armReboot {past : List (ℕ × Act)} {s : State} (kept : Resetting past s)
    (t : ℕ) {i : ℕ} (reschedule : s.callers i = .reschedule) :
    Resetting (past ++ [(t, .armReboot i)])
      ((s.moveCaller i .outside).rescheduleReboot (t + 5000)) := by
  have inside : s.callers i ≠ .outside := by simp [reschedule]
  have one := kept.held.after i reschedule
  have requested := kept.requested (by simp [kept.held.set inside])
  have latest : Latched.latest kick? (past ++ [(t, .armReboot i)]) = some (t + 5000) :=
    latest_kick_some past rfl
  constructor
  · rw [resets_concat]
    exact kept.held.move inside (by simp) nofun (fun _ => one) (Nat.le_of_eq one)
  · exact fun _ => requested.later _
  · exact fun due => (kept.expedited due).later _
  · exact fun _ => requested.later _
  · exact fun done => (kept.rebooted done).later _
  · exact fun _ => latest.symm
  · rw [latest]
    exact fun _ => .inr nofun

theorem resetting_step {past : List (ℕ × Act)} {now t : ℕ} {s s' : State} {a : Act} (_ : now ≤ t)
    (step : Step t s a s') (kept : Resetting past s) : Resetting (past ++ [(t, a)]) s' := by
  have count := resets_concat past t a
  cases step with
  | signal sig ok _ _ =>
    obtain ⟨flag, callers, work, on, quiet⟩ := signal_frame t sig ok s
    exact kept.frame rfl rfl flag callers work on fun due => absurd due quiet
  | checkPending _ _ =>
    refine kept.frame rfl rfl rfl rfl rfl rfl fun due => kept.requested ?_
    rintro zero
    simp [State.checkPending, zero] at due
  | expediteReboot on due =>
    constructor
    · rw [count]
      exact kept.held
    · exact fun set => (kept.requested set).later _
    · exact nofun
    · exact fun _ => (kept.expedited due).later _
    · exact fun done => (kept.rebooted done).later _
    · exact fun _ => (latest_kick_some past rfl).symm
    · rw [latest_kick_some past rfl]
      exact fun _ => .inr nofun
  | @alarm due callback _ idle _ _ =>
    cases callback with
    | joinWindowExpire => exact kept.frame rfl rfl rfl rfl rfl rfl kept.expedited
    | publishTick => exact kept.frame rfl rfl rfl rfl rfl rfl kept.expedited
  | request i _ outside => exact kept.request t outside
  | scheduleReset i ok _ schedule => exact kept.scheduleReset t schedule ok
  | clearPending i _ clear =>
    refine kept.untimed rfl rfl rfl ?_ ?_ ?_ ?_
    · rw [count]
      exact held_clear kept.held clear
    · exact fun set => absurd rfl set
    · exact kept.expedited
    · rw [count, kept.held.before i (.inr clear)]
      exact nofun
  | armReboot i _ reschedule => exact kept.armReboot t reschedule
  | reboot on work _ =>
    have requested := kept.armed (by simp [work])
    constructor
    · rw [count]
      exact kept.held
    · exact fun _ => requested.later _
    · exact fun due => (kept.expedited due).later _
    · exact fun armed => absurd rfl armed
    · exact fun _ => requested.later _
    · exact nofun
    · rw [count, latest_kick past rfl]
      exact kept.promised

/-- Over any interleaving of the requesting threads, the signals, the alarms and the
work queue: the reset is scheduled at most once, a request is turned away only if one
is being made or has been taken, nothing reboots the device unasked, and a reset that
was taken reboots it when the latest event that set the timer says. -/
theorem factory_reset_once {events : List (ℕ × Act)} {now : ℕ} {s : State}
    (run : Run (0, boot) events (now, s)) :
    resets events ≤ 1 ∧
      (s.factoryResetPending = 1 ↔ (∃ i, s.callers i ≠ .outside) ∨ resets events = 1) ∧
      (s.rebooted = true ∨ s.rebootWork ≠ none → Requested events) ∧
      (s.rebooted = false → s.rebootWork = Latched.latest kick? events ∧
        (resets events = 1 → (∀ i, s.callers i = .outside) → s.rebootWork ≠ none)) := by
  have kept : Resetting events s :=
    run.history (fun past y => Resetting past y.2) (fun ordered step => resetting_step ordered step)
      [] resetting_boot
  refine ⟨kept.held.once, ⟨kept.held.taken, ?_⟩, ?_, fun on => ⟨kept.timer on, ?_⟩⟩
  · rintro (⟨i, inside⟩ | one)
    · exact kept.held.set inside
    · rcases kept.held.bit with zero | set
      · have none := (kept.held.free zero).2
        omega
      · exact set
  · exact fun either => either.elim kept.rebooted kept.armed
  · intro taken nobody
    rw [kept.timer on]
    refine (kept.promised taken).resolve_left ?_
    rintro ⟨i, reschedule⟩
    rw [nobody i] at reschedule
    contradiction

/-- A second request while the first is being made. -/
theorem factory_reset_once_twice : ∃ s,
    Run (0, boot) [(10, .request 0), (11, .request 1), (12, .scheduleReset 0 true),
      (13, .armReboot 0)] (13, s) ∧ s.rebooted = false ∧
      s.rebootWork = some 5013 := by
  have run : ∃ s, Run (0, boot) [(10, .request 0), (11, .request 1), (12, .scheduleReset 0 true),
      (13, .armReboot 0)] (13, s) ∧ s.rebooted = false :=
    ⟨_, .next (by decide) (.request 0 rfl rfl) (.next (by decide) (.request 1 rfl rfl)
      (.next (by decide) (.scheduleReset 0 true rfl rfl)
        (.next (by decide) (.armReboot 0 rfl rfl) (.refl _)))), rfl⟩
  obtain ⟨s, run, on⟩ := run
  exact ⟨s, run, on, ((factory_reset_once run).2.2.2 on).1⟩

end FlexitCs60.Zigbee.Network
