import FlexitCs60.System.Latched
import FlexitCs60.Zigbee.Threads
import Mathlib.Tactic.NormNum.Inv

/-! The stale guard of the supply temperature. A tick shows the latest value or
the unknown one by the age of the latest setter call, except that a value still
in the latch is published however old it has become. -/
namespace FlexitCs60.Zigbee

/-- The value an action latches as the supply temperature. -/
def Act.temperature? : Act → Option Int16
  | .set (.temperature .supply v) => some v
  | _ => none

theorem temperature?_set {call : Setter} {v : Int16}
    (sets : Act.temperature? (.set call) = some v) : call = .temperature .supply v := by
  cases call with
  | temperature ch w =>
    cases ch
    obtain rfl := Option.some.inj sets
    rfl
  | _ => contradiction

/-- The uptime and the value of the latest `zigbee_ep_set_temperature` call. -/
def lastTemperature (events : List (ℤ × Act)) : Option (ℤ × Int16) :=
  Latched.latest (fun e => e.2.temperature?.map (e.1, ·)) events

/-- What a tick at `now` should show after that call. -/
def expectedTemperature (now : ℤ) : Option (ℤ × Int16) → Int16
  | none => valueUnknown
  | some (t, v) => if now - t ≤ tempStaleMs then v else valueUnknown

/-- `MeasuredValue` of the supply endpoint. -/
def State.measuredValue (s : State) : Int16 := s.published.attrs.measuredValue .supply

/-- Setter calls happen after the first millisecond of uptime. -/
def SetsAfterBoot (events : List (ℤ × Act)) : Prop :=
  ∀ t v, (t, .set (.temperature .supply v)) ∈ events → 0 < t

/-- The call the latches remember, none while no time is stored. -/
def Latches.lastTemperature (l : Latches) : Option (ℤ × Int16) :=
  if l.tempLastMs .supply = 0 then none else some (l.tempLastMs .supply, (l.temp .supply).val)

/-- The attribute shows the remembered call, or has shown for good reason that
there is none. -/
def Shows (l : Latches) (now : ℤ) (x : Published) : Prop :=
  x.tempStale .supply = false ∧ l.tempLastMs .supply ≠ 0 ∧
      x.attrs.measuredValue .supply = (l.temp .supply).val ∨
    x.tempStale .supply = true ∧ x.attrs.measuredValue .supply = valueUnknown ∧
      (l.tempLastMs .supply ≠ 0 → now - l.tempLastMs .supply > tempStaleMs)

/-- The remembered call waits in the latch, or is shown. -/
def Settled (l : Latches) (now : ℤ) (x : Published) : Prop :=
  (l.temp .supply).dirty = true ∧ l.tempLastMs .supply ≠ 0 ∨
    (l.temp .supply).dirty = false ∧ Shows l now x

/-- What the tick's copy still has to do with the latches it was made of. -/
def Copied (copy l : Latches) : Prop :=
  (l.temp .supply).dirty = true ∧ l.tempLastMs .supply ≠ 0 ∨
    l.temp .supply = (copy.temp .supply).taken ∧ l.tempLastMs .supply = copy.tempLastMs .supply

/-- The invariant: the latches remember the latest call, and what the attribute
shows is settled against them or against the copy a tick is publishing. -/
structure Remembered (past : List (ℤ × Act)) (now : ℤ) (s : State) : Prop where
  remembers : s.pending.toLatches.lastTemperature = lastTemperature past
  rests : (∀ copy, s.zboss ≠ .publishing copy) → Settled s.pending.toLatches now s.published
  publishes : ∀ copy, s.zboss = .publishing copy →
    Settled copy now s.published ∧ Copied copy s.pending.toLatches

theorem lastTemperature_concat (past : List (ℤ × Act)) (t : ℤ) (a : Act) :
    lastTemperature (past ++ [(t, a)]) =
      (a.temperature?.map (t, ·)).or (lastTemperature past) :=
  Latched.latest_concat ..

theorem Shows.later {l : Latches} {now t : ℤ} {x : Published} (ordered : now ≤ t)
    (shows : Shows l now x) : Shows l t x := by
  rcases shows with fresh | ⟨stale, unknown, old⟩
  · exact .inl fresh
  · refine .inr ⟨stale, unknown, fun set => ?_⟩
    have := old set
    omega

theorem Shows.congr {l l' : Latches} {now : ℤ} {x : Published}
    (value : (l'.temp .supply).val = (l.temp .supply).val)
    (last : l'.tempLastMs .supply = l.tempLastMs .supply) (shows : Shows l now x) :
    Shows l' now x := by
  unfold Shows at *
  rwa [value, last]

theorem Settled.later {l : Latches} {now t : ℤ} {x : Published} (ordered : now ≤ t)
    (settled : Settled l now x) : Settled l t x :=
  settled.imp_right fun ⟨clean, shows⟩ => ⟨clean, shows.later ordered⟩

/-- A setter latches a temperature with its uptime, or leaves the latch alone. -/
theorem call_temperature (call : Setter) (uptime : ℤ) (p : Pending) :
    (∃ v, Act.temperature? (.set call) = some v ∧
        (call.call uptime p).temp .supply = .fresh v ∧
        (call.call uptime p).tempLastMs .supply = uptime) ∨
      Act.temperature? (.set call) = none ∧ (call.call uptime p).temp = p.temp ∧
        (call.call uptime p).tempLastMs = p.tempLastMs := by
  cases call with
  | temperature ch v =>
    cases ch
    exact .inl ⟨v, rfl, by simp [Setter.call, setTemperature]⟩
  | percent ch v => exact .inr ⟨rfl, rfl, rfl⟩
  | binary ch v => exact .inr ⟨rfl, rfl, rfl⟩
  | intakeTemp v => exact .inr ⟨rfl, rfl, rfl⟩
  | mode v =>
    refine .inr ⟨rfl, ?_⟩
    change (setMode v p).temp = _ ∧ (setMode v p).tempLastMs = _
    unfold setMode
    split <;> exact ⟨rfl, rfl⟩
  | setpoint v =>
    refine .inr ⟨rfl, ?_⟩
    change (setSetpoint uptime v p).temp = _ ∧ (setSetpoint uptime v p).tempLastMs = _
    unfold setSetpoint
    split <;> exact ⟨rfl, rfl⟩

/-- What depends on the temperature latch alone. -/
theorem Settled.congr {l l' : Latches} {now : ℤ} {x : Published}
    (latch : l'.temp .supply = l.temp .supply) (last : l'.tempLastMs .supply = l.tempLastMs .supply)
    (settled : Settled l now x) : Settled l' now x := by
  rcases settled with ⟨dirty, set⟩ | ⟨clean, shows⟩
  · exact .inl ⟨by rwa [latch], by rwa [last]⟩
  · exact .inr ⟨by rwa [latch], shows.congr (congrArg Latch.val latch) last⟩

/-- A tick shows what it copied, or that it is too old. -/
theorem publishCopy_shows {copy : Latches} {now : ℤ} {x : Published} (linkUp : Bool)
    (settled : Settled copy now x) : Shows copy now (publishCopy now linkUp copy x) := by
  rw [publishCopy_eq]
  change Shows copy now (publishTemp now copy x .supply)
  unfold publishTemp
  rcases settled with ⟨dirty, set⟩ | ⟨clean, shows⟩
  · rw [if_pos dirty]
    exact .inl ⟨by simp, set, by simp [writeMeasuredValue, tempEpId]⟩
  · rw [if_neg (by rw [clean]; decide)]
    split
    · rename_i silent
      exact .inr ⟨by simp, by simp [writeMeasuredValue, tempEpId], fun _ => silent.2.2⟩
    · exact shows

/-- A tick that found the latch clean shows what it should, and one that found a
value there if that is young enough. -/
theorem publishCopy_expected {copy : Latches} {now : ℤ} {x : Published} (linkUp : Bool)
    (settled : Settled copy now x) :
    (publishCopy now linkUp copy x).attrs.measuredValue .supply =
        expectedTemperature now copy.lastTemperature ↔
      ((copy.temp .supply).dirty = true →
        now - copy.tempLastMs .supply ≤ tempStaleMs ∨ (copy.temp .supply).val = valueUnknown) := by
  unfold Latches.lastTemperature
  rcases settled with ⟨dirty, set⟩ | ⟨clean, shows⟩
  · rw [publishCopy_measuredValue _ _ _ _ dirty, if_neg set]
    simp only [expectedTemperature, dirty, true_imp_iff]
    split
    · rename_i young
      simp only [young, true_or]
    · rename_i old
      simp only [old, false_or]
  · have free : ¬ (copy.temp .supply).dirty = true := by rw [clean]; decide
    refine iff_of_true ?_ fun dirty => absurd dirty free
    rw [publishCopy_eq]
    change (publishTemp now copy x .supply).attrs.measuredValue .supply = _
    rw [publishTemp, if_neg free]
    rcases shows with ⟨live, set, shown⟩ | ⟨stale, unknown, old⟩
    · rw [if_neg set]
      simp only [live, set, ne_eq, not_false_eq_true, true_and, expectedTemperature]
      by_cases silent : now - copy.tempLastMs .supply > tempStaleMs
      · rw [if_pos silent, if_neg (by omega)]
        simp [writeMeasuredValue, tempEpId]
      · rw [if_neg silent, if_pos (by omega)]
        exact shown
    · rw [if_neg (by rw [stale]; simp), unknown]
      split
      · rfl
      · rename_i set
        have := old set
        rw [expectedTemperature, if_neg (by omega)]

theorem remembered_boot : Remembered [] 0 boot := by
  refine ⟨rfl, fun _ => .inr ⟨rfl, .inr ⟨rfl, rfl, fun set => absurd rfl set⟩⟩, fun copy same => ?_⟩
  contradiction

/-- A setter is remembered by the latches and leaves the attribute to the tick. -/
theorem remembered_set {past : List (ℤ × Act)} {now t : ℤ} {s : State} (call : Setter)
    (ordered : now ≤ t) (positive : ∀ v, Act.temperature? (.set call) = some v → 0 < t)
    (remembered : Remembered past now s) :
    Remembered (past ++ [(t, .set call)]) t (s.set t call) := by
  have remembers := lastTemperature_concat past t (.set call)
  rcases call_temperature call t s.pending with ⟨v, sets, latch, last⟩ | ⟨sets, latch, last⟩
  · have set : (call.call t s.pending).tempLastMs .supply ≠ 0 := by
      rw [last]
      exact (positive v sets).ne'
    have waits : ((call.call t s.pending).temp .supply).dirty = true := by
      rw [latch]
      rfl
    refine ⟨?_, fun _ => .inl ⟨waits, set⟩, fun copy publishing => ?_⟩
    · rw [remembers, sets]
      refine (if_neg set).trans ?_
      change some ((call.call t s.pending).tempLastMs .supply,
        ((call.call t s.pending).temp .supply).val) = some (t, v)
      rw [last, latch]
      rfl
    · exact ⟨(remembered.publishes copy publishing).1.later ordered, .inl ⟨waits, set⟩⟩
  · have same : (call.call t s.pending).temp .supply = s.pending.temp .supply := congrFun latch _
    have kept : (call.call t s.pending).tempLastMs .supply = s.pending.tempLastMs .supply :=
      congrFun last _
    refine ⟨?_, fun idle => ?_, fun copy publishing => ?_⟩
    · rw [remembers, sets]
      refine Eq.trans ?_ remembered.remembers
      unfold Latches.lastTemperature State.set
      rw [same, kept]
    · exact ((remembered.rests idle).later ordered).congr same kept
    · obtain ⟨settled, copied⟩ := remembered.publishes copy publishing
      refine ⟨settled.later ordered, ?_⟩
      unfold Copied State.set at *
      rwa [same, kept]

theorem remembered_step {past : List (ℤ × Act)} {now t : ℤ} {s s' : State} {a : Act}
    (ordered : now ≤ t) (step : Step t s a s')
    (positive : ∀ v, a.temperature? = some v → 0 < t) (remembered : Remembered past now s) :
    Remembered (past ++ [(t, a)]) t s' := by
  have remembers := lastTemperature_concat past t a
  cases step with
  | set call => exact remembered_set call ordered positive remembered
  | writeFanMode v idle =>
    refine ⟨remembered.remembers.trans remembers.symm, fun rests => ?_, fun copy publishing => ?_⟩
    · exact (remembered.rests rests).later ordered
    · exact absurd (idle.symm.trans publishing) nofun
  | storeSetpoint v idle =>
    refine ⟨remembered.remembers.trans remembers.symm, fun _ => ?_, fun copy publishing => ?_⟩
    · exact (remembered.rests (by rw [idle]; simp)).later ordered
    · contradiction
  | handleSetpointWrite v written =>
    refine ⟨remembered.remembers.trans remembers.symm, fun _ => ?_, fun copy publishing => ?_⟩
    · exact (remembered.rests (by rw [written]; simp)).later ordered
    · contradiction
  | copyLatches idle =>
    refine ⟨remembered.remembers.trans remembers.symm, fun rests => ?_, fun copy publishing => ?_⟩
    · exact absurd rfl (rests _)
    · cases publishing
      exact ⟨(remembered.rests (by rw [idle]; simp)).later ordered, .inr ⟨rfl, rfl⟩⟩
  | publishCopy linkUp copy publishing =>
    obtain ⟨settled, copied⟩ := remembered.publishes copy publishing
    have shows := publishCopy_shows linkUp (settled.later ordered)
    refine ⟨remembered.remembers.trans remembers.symm, fun _ => ?_, fun other same => ?_⟩
    · rcases copied with waits | ⟨latch, last⟩
      · exact .inl waits
      · have value : (s.pending.temp .supply).val = (copy.temp .supply).val := by
          rw [latch]
          rfl
        exact .inr ⟨congrArg Latch.dirty latch, shows.congr value last⟩
    · contradiction

theorem remembered_run {events : List (ℤ × Act)} {y : ℤ × State} (run : Run (0, boot) events y)
    (positive : SetsAfterBoot events) : Remembered events y.1 y.2 := by
  refine Timed.Run.history (fun past y => SetsAfterBoot past → Remembered past y.1 y.2) ?_ run
    [] (fun _ => remembered_boot) positive
  intro past now t s a s' ordered step ih positive
  refine remembered_step ordered step (fun v sets => ?_) (ih fun u v member => ?_)
  · refine positive t v (List.mem_append_right _ ?_)
    cases a with
    | set call =>
      cases call with
      | temperature ch w =>
        cases ch
        cases sets
        exact List.mem_singleton_self _
      | _ => contradiction
    | _ => contradiction
  · exact positive u v (List.mem_append_left _ member)

/-- The tick after any run shows the latest setter call by its age, exactly when
no value older than the limit waits in the latch. -/
theorem stale_guard_iff {before : List (ℤ × Act)} {x y : ℤ × State} {copied now : ℤ}
    {during : List (ℤ × Setter)} {linkUp : Bool} (run : Run (0, boot) before x)
    (positive : SetsAfterBoot before) (tick : Run x (publishTick copied during now linkUp) y) :
    y.2.measuredValue = expectedTemperature now (lastTemperature before) ↔
      ((x.2.pending.temp .supply).dirty = true →
        now - x.2.pending.tempLastMs .supply ≤ tempStaleMs ∨
          (x.2.pending.temp .supply).val = valueUnknown) := by
  have remembered := remembered_run run positive
  obtain ⟨_, ordered, idle, _, published⟩ := publishTick_published tick
  have settled := (remembered.rests (by rw [idle]; simp)).later ordered
  rw [State.measuredValue, published, ← remembered.remembers]
  exact publishCopy_expected linkUp settled

theorem publishTick_run {now t : ℤ} {s : State} (linkUp : Bool) (idle : s.zboss = .idle)
    (ordered : now ≤ t) : Run (now, s) (publishTick t [] t linkUp)
      (t, (s.copyLatches).publishCopy t linkUp s.pending.toLatches) :=
  .next ordered (.copyLatches idle) (.next (le_refl t) (.publishCopy linkUp _ rfl) (.refl _))

/-- A supply temperature of 21.50 °C, latched after the first second. -/
theorem sets_supply : Run (0, boot) [(1000, .set (.temperature .supply 2150))]
    (1000, boot.set 1000 (.temperature .supply 2150)) :=
  .next (by decide : (0 : ℤ) ≤ 1000) (.set _) (.refl _)

theorem setsAfterBoot_supply : SetsAfterBoot [(1000, .set (.temperature .supply 2150))] := by
  intro t v member
  cases List.mem_singleton.mp member
  decide

/-- Published one second later. -/
theorem stale_guard_iff_fresh :
    ((boot.set 1000 (.temperature .supply 2150)).copyLatches.publishCopy 2000 true
      (boot.set 1000 (.temperature .supply 2150)).pending.toLatches).measuredValue = 2150 :=
  (stale_guard_iff sets_supply setsAfterBoot_supply
    (publishTick_run true rfl (by decide : (1000 : ℤ) ≤ 2000))).mpr fun _ => .inl (by decide)

/-- A tick held up for 69 seconds publishes the latched value as if it were fresh. -/
theorem late_tick_publishes_old :
    ∃ s, Run (0, boot)
        ([(1000, .set (.temperature .supply 2150))] ++ publishTick 70000 [] 70000 true) (70000, s) ∧
      s.measuredValue = 2150 ∧
      expectedTemperature 70000 (lastTemperature [(1000, .set (.temperature .supply 2150))]) =
        valueUnknown := by
  exact ⟨_, sets_supply.trans (publishTick_run true rfl (by decide)),
    publishCopy_measuredValue _ _ _ _ rfl, by decide⟩

end FlexitCs60.Zigbee
