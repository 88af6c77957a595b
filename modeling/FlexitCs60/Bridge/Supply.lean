import FlexitCs60.Bridge.NewFrames
import FlexitCs60.Mirror.Selection
import FlexitCs60.Zigbee.Stale

/-! The supply temperature on its way from a status block to `MeasuredValue`: the
register's tenths are narrowed to sixteen bits as hundredths, unchecked. -/
namespace FlexitCs60.Bridge
open Wire
open Mirror (Uptime statusBlocks)

/-- The supply-air register of a status block, in tenths of a degree. -/
def supplyAir (frame : List UInt8) : Int16 := (getBe16 (frame.drop 17)).toInt16

/-- What should be shown for a register: ten times its value where the sensor is
present and that fits, the unknown value otherwise. -/
def Reported (register : ℤ) (shown : Int16) : Prop :=
  if -1000 < register ∧ -0x8000 ≤ 10 * register ∧ 10 * register ≤ 0x7FFF then
    shown.toInt = 10 * register
  else shown = Zigbee.valueUnknown

/-- An execution of the bridge, its temperature call, and the first tick that
copies the latches after it. -/
def report (t : Uptime) (first : List (Uptime × Gateway.Act)) (u : Uptime) (v : Int16)
    (second : List (Uptime × Act)) (copied : Uptime) (during : List (Uptime × Act)) (now : Uptime)
    (up : Bool) : List (Uptime × Act) :=
  [(t, .work)] ++ (first.map fun e => (e.1, .gateway e.2)) ++
    [(u, .call (.temperature .supply v))] ++ second ++
    [(copied, .gateway (.zigbee .copyLatches))] ++ during ++
    [(now, .gateway (.zigbee (.publishCopy up)))]

/-- The tenfold of a word that wraps onto the unknown value. -/
theorem wraps_iff {register : ℤ} (lower : -0x8000 ≤ register) (upper : register ≤ 0x7FFF) :
    (register * 10).bmod (2 ^ 16) = -0x8000 ↔ register = 16384 ∨ register = -16384 := by
  constructor
  · intro wraps
    obtain ⟨k, multiple⟩ : (2 ^ 16 : ℤ) ∣ register * 10 - -0x8000 := by
      rw [← wraps]
      exact Int.dvd_self_sub_bmod
    -- ten holds one factor of two, so the register holds all but two of the others
    obtain ⟨m, rfl⟩ : (16384 : ℤ) ∣ register := by omega
    omega
  · rintro (rfl | rfl) <;> decide

/-- Narrowing the tenfold register keeps it, or happens to give the unknown value. -/
theorem reported_iff (register : Int16) :
    Reported register.toInt (.ofInt (register.toInt * 10)) ↔
      -1000 < register.toInt ∧ register.toInt ≤ 3276 ∨
        register.toInt = 16384 ∨ register.toInt = -16384 := by
  have lower := register.le_toInt
  have upper := register.toInt_le
  have narrowed : (Int16.ofInt (register.toInt * 10)).toInt =
      (register.toInt * 10).bmod (2 ^ 16) := Int16.toInt_ofInt ..
  have wraps := wraps_iff lower upper
  unfold Reported
  split
  · rename_i fits
    rw [narrowed, Int.bmod_eq_of_le (by omega) (by omega)]
    omega
  · rename_i outside
    rw [← Int16.toInt_inj, narrowed, show Zigbee.valueUnknown.toInt = -0x8000 from rfl, wraps]
    omega

section
variable [Zephyr]

omit [Zephyr] in
/-- The first call of an execution that pushes. -/
theorem Polled.first_call {now : Uptime} {s : State} (polled : Polled now s)
    {arrived : Uptime} {frame : List UInt8}
    (latest : (statusBlocks s.arrivals).getLast? = some (arrived, frame)) {v : Int16}
    {rest : List Zigbee.Setter} (pending : s.work.due = .temperature .supply v :: rest) :
    v = .ofInt ((supplyAir frame).toInt * 10) := by
  change (bridgeWorkFn _ _).2 = _ at pending
  unfold bridgeWorkFn at pending
  split at pending
  · have register : (Mirror.blockStatus frame).tempSupplyAirX10 = supplyAir frame := by
      change (getBe16 ((frame.drop 7).drop 10)).toInt16 = _
      rw [List.drop_drop]
      rfl
    dsimp only at pending
    rw [polled.pushes_eq latest] at pending
    injection pending with head tail
    injection head with _ value
    rw [register] at value
    exact value.symm
  · contradiction

/-- Before the first call, nothing is taken from what is due. -/
theorem due_kept {x y : Uptime × State} {first : List (Uptime × Gateway.Act)}
    (run : Run x (first.map fun e => (e.1, .gateway e.2)) y) : y.2.due = x.2.due := by
  refine run.keeps (fun s => s.due = x.2.due) (fun _ a => ∃ act, a = .gateway act) ?_ ?_ rfl
  · rintro t s a s' ⟨act, rfl⟩ step same
    cases step with
    | gateway setter step => exact same
  · intro e member
    obtain ⟨f, _, rfl⟩ := List.mem_map.mp member
    exact ⟨f.2, rfl⟩

/-- The latch holds a value until the next temperature call or tick. -/
theorem latched_run {v : Int16} {x y : Uptime × State} {events : List (Uptime × Act)}
    (run : Run x events y)
    (same : ∀ e ∈ events, (∀ w, e.2 ≠ .call (.temperature .supply w)) ∧
      e.2 ≠ .gateway (.zigbee .copyLatches))
    (latched : x.2.gateway.zigbee.pending.temp .supply = .fresh v) :
    y.2.gateway.zigbee.pending.temp .supply = .fresh v := by
  refine run.keeps (fun s => s.gateway.zigbee.pending.temp .supply = .fresh v)
    (fun _ a => (∀ w, a ≠ .call (.temperature .supply w)) ∧ a ≠ .gateway (.zigbee .copyLatches))
    ?_ same latched
  rintro t s a s' ⟨other, copy⟩ step latch
  cases step with
  | gateway setter step =>
    cases step with
    | mirror step => exact latch
    | zigbee step link =>
      cases step with
      | set call => exact absurd rfl (setter call)
      | copyLatches idle => exact absurd rfl copy
      | writeFanMode v idle => exact latch
      | storeSetpoint v idle => exact latch
      | handleSetpointWrite v written => exact latch
      | publishCopy linkUp copy publishing => exact latch
  | work idle => exact latch
  | @call made rest g due step =>
    cases step with
    | zigbee step link =>
      cases step with
      | set call =>
        rcases Zigbee.call_temperature made (Gateway.uptimeMs t) s.gateway.zigbee.pending with
          ⟨w, sets, _⟩ | ⟨_, temp, _⟩
        · rw [Zigbee.temperature?_set sets] at other
          exact absurd rfl (other w)
        · exact (congrFun temp _).trans latch

/-- While a tick publishes a copy, nobody takes the copy from it. -/
theorem publishing_run {v : Int16} {x y : Uptime × State} {events : List (Uptime × Act)}
    (run : Run x events y)
    (same : ∀ e ∈ events, ∀ up, e.2 ≠ .gateway (.zigbee (.publishCopy up)))
    (publishing : ∃ copy, x.2.gateway.zigbee.zboss = .publishing copy ∧
      copy.temp .supply = .fresh v) :
    ∃ copy, y.2.gateway.zigbee.zboss = .publishing copy ∧ copy.temp .supply = .fresh v := by
  refine run.keeps (fun s => ∃ copy, s.gateway.zigbee.zboss = .publishing copy ∧
    copy.temp .supply = .fresh v) (fun _ a => ∀ up, a ≠ .gateway (.zigbee (.publishCopy up)))
    ?_ same publishing
  rintro t s a s' other step ⟨copy, place, latch⟩
  have zigbee : ∀ {act z}, Zigbee.Step (Gateway.uptimeMs t) s.gateway.zigbee act z →
      (∀ up, act ≠ .publishCopy up) → z.zboss = .publishing copy := by
    intro act z step other
    cases step with
    | set call => exact place
    | publishCopy up copy publishing => exact absurd rfl (other up)
    | handleSetpointWrite v written => exact absurd (place.symm.trans written) nofun
    | writeFanMode v idle => exact absurd (place.symm.trans idle) nofun
    | storeSetpoint v idle => exact absurd (place.symm.trans idle) nofun
    | copyLatches idle => exact absurd (place.symm.trans idle) nofun
  cases step with
  | gateway setter step =>
    cases step with
    | mirror step => exact ⟨copy, place, latch⟩
    | zigbee step link =>
      refine ⟨copy, zigbee step fun up same => ?_, latch⟩
      rw [same] at other
      exact other up rfl
  | work idle => exact ⟨copy, place, latch⟩
  | call due step =>
    cases step with
    | zigbee step link => exact ⟨copy, zigbee step nofun, latch⟩

/-- The tick after a push publishes the pushed register, narrowed. -/
theorem supply_published {x y : Uptime × State} (polled : Polled x.1 x.2)
    {arrived : Uptime} {frame : List UInt8}
    (latest : (statusBlocks x.2.arrivals).getLast? = some (arrived, frame))
    {t u copied now : Uptime} {first : List (Uptime × Gateway.Act)} {v : Int16}
    {second during : List (Uptime × Act)} {up : Bool}
    (run : Run x (report t first u v second copied during now up) y)
    (uncopied : ∀ e ∈ second, (∀ w, e.2 ≠ .call (.temperature .supply w)) ∧
      e.2 ≠ .gateway (.zigbee .copyLatches))
    (unpublished : ∀ e ∈ during, ∀ up, e.2 ≠ .gateway (.zigbee (.publishCopy up))) :
    y.2.gateway.zigbee.measuredValue = .ofInt ((supplyAir frame).toInt * 10) := by
  obtain ⟨_, y⟩ := y
  obtain ⟨m₆, run, published⟩ := run.split
  obtain ⟨⟨_, m₅⟩, run, publishing⟩ := run.split
  obtain ⟨m₄, run, copying⟩ := run.split
  obtain ⟨⟨_, m₃⟩, run, between⟩ := run.split
  obtain ⟨m₂, run, called⟩ := run.split
  obtain ⟨⟨_, m₁⟩, work, before⟩ := run.split
  have due : m₁.due = x.2.work.due := by
    cases work.single with
    | work idle => rfl
  rw [← due_kept before] at due
  have latched : m₃.gateway.zigbee.pending.temp .supply =
      .fresh (.ofInt ((supplyAir frame).toInt * 10)) := by
    cases called.single with
    | @call made rest g pending step =>
      rw [due] at pending
      obtain rfl := polled.first_call latest pending
      cases step with
      | zigbee step link =>
        cases step with
        | set call => simp [Zigbee.State.set, Zigbee.Setter.call, Zigbee.setTemperature]
  have still := latched_run between uncopied latched
  have taken : ∃ copy, m₅.gateway.zigbee.zboss = .publishing copy ∧
      copy.temp .supply = .fresh (.ofInt ((supplyAir frame).toInt * 10)) := by
    cases copying.single with
    | gateway setter step =>
      cases step with
      | zigbee step link =>
        cases step with
        | copyLatches idle => exact ⟨_, rfl, still⟩
  obtain ⟨copy, place, latch⟩ := publishing_run publishing unpublished taken
  cases published.single with
  | gateway setter step =>
    cases step with
    | zigbee step link =>
      cases step with
      | publishCopy linkUp held publishing =>
        cases place.symm.trans publishing
        exact (Zigbee.publishCopy_measuredValue _ _ _ _ (congrArg Zigbee.Latch.dirty latch)).trans
          (congrArg Zigbee.Latch.val latch)

/-- A pushed register is reported as it should exactly when it is in the range of
the sensor, or happens to wrap onto the unknown value. -/
theorem supply_reported_iff {before : List (Uptime × Act)} {x y : Uptime × State}
    (run : Run (Uptime.boot, boot) before x) {arrived : Uptime} {frame : List UInt8}
    (latest : (statusBlocks x.2.arrivals).getLast? = some (arrived, frame))
    {t u copied now : Uptime} {first : List (Uptime × Gateway.Act)} {v : Int16}
    {second during : List (Uptime × Act)} {up : Bool}
    (reports : Run x (report t first u v second copied during now up) y)
    (uncopied : ∀ e ∈ second, (∀ w, e.2 ≠ .call (.temperature .supply w)) ∧
      e.2 ≠ .gateway (.zigbee .copyLatches))
    (unpublished : ∀ e ∈ during, ∀ up, e.2 ≠ .gateway (.zigbee (.publishCopy up))) :
    Reported (supplyAir frame).toInt y.2.gateway.zigbee.measuredValue ↔
      -1000 < (supplyAir frame).toInt ∧ (supplyAir frame).toInt ≤ 3276 ∨
        (supplyAir frame).toInt = 16384 ∨ (supplyAir frame).toInt = -16384 := by
  have polled := polled_run run (polled_boot _)
  rw [supply_published polled latest reports uncopied unpublished]
  exact reported_iff _

/-- The push of a status block that arrived first, and the tick that reports it. -/
theorem block_reported (t : Uptime) {data : List UInt8} (size : data.length = 170) :
    ∃ before x v up y, Run (Uptime.boot, boot) before x ∧
      (statusBlocks x.2.arrivals).getLast? = some (t, stampCrc (Mirror.header ++ data)) ∧
      Run x (report t [] t v [] t [] t up) y := by
  obtain ⟨before, l, run, blocks, count⟩ := block_accepted t size
  have due : (State.work ⟨⟨l, Zigbee.boot⟩, 0, [], []⟩).due = .temperature .supply _ :: _ :=
    first_due run blocks count
  have publishes : ∀ up, Zigbee.Act.publishCopy (Gateway.State.linkUp t ⟨l, Zigbee.boot⟩) =
      .publishCopy up → up = Gateway.State.linkUp t ⟨l, Zigbee.boot⟩ := by
    rintro up ⟨⟩
    rfl
  refine ⟨_, _, _, Gateway.State.linkUp t ⟨l, Zigbee.boot⟩, _, run, ?_,
    .next (le_refl t) (.work rfl)
      (.next (le_refl t) (.call due (.zigbee (.set _) (by simp)))
        (.next (le_refl t) (.gateway (by simp) (.zigbee (.copyLatches rfl) (by simp)))
          (.next (le_refl t) (.gateway (by simp) (.zigbee (.publishCopy _ _ rfl) publishes))
            (.refl _))))⟩
  change (statusBlocks l.arrivals).getLast? = _
  rw [blocks]
  rfl

end

/-- A status block that is zero but for its supply-air register. -/
def supplyBlock (hi lo : UInt8) : List UInt8 :=
  .replicate 10 0 ++ [hi, lo] ++ .replicate 158 0

/-- A room temperature of 21.5 °C. -/
theorem supply_reported_iff_room : ∃ before x v up y, Run (Uptime.boot, boot) before x ∧
    Run x (report Uptime.boot [] Uptime.boot v [] Uptime.boot [] Uptime.boot up) y ∧
    Reported 215 y.2.gateway.zigbee.measuredValue := by
  obtain ⟨before, x, v, up, y, run, latest, reports⟩ :=
    block_reported Uptime.boot (show (supplyBlock 0x00 0xD7).length = 170 from rfl)
  have register : (supplyAir (stampCrc (Mirror.header ++ supplyBlock 0x00 0xD7))).toInt = 215 := by
    decide +kernel
  have reported := supply_reported_iff run latest reports nofun nofun
  rw [register] at reported
  exact ⟨before, x, v, up, y, run, reports, reported.mpr (by decide)⟩

/-- An unconnected probe, which the unit reports as -187.5 °C. -/
theorem missing_probe_shown : ∃ before x v up y, Run (Uptime.boot, boot) before x ∧
    (statusBlocks x.2.arrivals).getLast? =
      some (Uptime.boot, stampCrc (Mirror.header ++ supplyBlock 0xF8 0xAD)) ∧
    (supplyAir (stampCrc (Mirror.header ++ supplyBlock 0xF8 0xAD))).toInt = -1875 ∧
    Run x (report Uptime.boot [] Uptime.boot v [] Uptime.boot [] Uptime.boot up) y ∧
    y.2.gateway.zigbee.measuredValue = -18750 ∧
    ¬ Reported (-1875) y.2.gateway.zigbee.measuredValue := by
  obtain ⟨before, x, v, up, y, run, latest, reports⟩ :=
    block_reported Uptime.boot (show (supplyBlock 0xF8 0xAD).length = 170 from rfl)
  have register : (supplyAir (stampCrc (Mirror.header ++ supplyBlock 0xF8 0xAD))).toInt = -1875 := by
    decide +kernel
  have shown := supply_published (polled_run run (polled_boot _)) latest reports nofun nofun
  rw [register] at shown
  refine ⟨before, x, v, up, y, run, latest, register, reports, shown, ?_⟩
  rw [shown, Reported, if_neg (by decide)]
  decide

end FlexitCs60.Bridge
