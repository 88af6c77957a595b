import FlexitCs60.Zigbee.Threads
import Mathlib.Tactic.NormNum.Inv

/-! The hold after a client's setpoint write. It keeps readbacks out of the latch,
but not a readback that is in the latch already. -/
namespace FlexitCs60.Zigbee

/-- What may follow a client write at `t`: no other client write, and nothing
after the hold but the end of a tick that copied the latches during it. -/
def InHold (t uptime : ℤ) (a : Act) : Prop :=
  (∀ v, a ≠ .storeSetpoint v) ∧
    (uptime < t + setpointWriteHoldMs ∨ ∃ linkUp, a = .publishCopy linkUp)

/-- The written value is still the attribute's, whatever happens during the hold. -/
def KeptThroughHold (t : ℤ) (w : ℚ) (s : State) : Prop :=
  ∀ after y, Run (t, s) after y → (∀ e ∈ after, InHold t e.1 e.2) → y.2.presentValue = w

/-- The latch holds nothing that would change the attribute. -/
def Latch.Agrees (l : Latch ℚ) (w : ℚ) : Prop := l.dirty = true → l.val = w

/-- The invariant of the hold after a write of `w` at `t`. -/
structure Held (t : ℤ) (w : ℚ) (s : State) : Prop where
  hold : s.pending.setpointHoldUntil = t + setpointWriteHoldMs
  present : s.presentValue = w
  latched : s.pending.setpoint.Agrees w
  unwritten : ∀ v, s.zboss ≠ .written v
  copied : ∀ copy, s.zboss = .publishing copy → copy.setpoint.Agrees w

/-- Before the hold is over no setter changes the setpoint latch. -/
theorem call_setpoint (call : Setter) {uptime : ℤ} {p : Pending}
    (early : uptime < p.setpointHoldUntil) :
    (call.call uptime p).setpoint = p.setpoint ∧
      (call.call uptime p).setpointHoldUntil = p.setpointHoldUntil := by
  cases call with
  | temperature ch v => exact ⟨rfl, rfl⟩
  | percent ch v => exact ⟨rfl, rfl⟩
  | binary ch v => exact ⟨rfl, rfl⟩
  | intakeTemp v => exact ⟨rfl, rfl⟩
  | mode v =>
    change (setMode v p).setpoint = _ ∧ (setMode v p).setpointHoldUntil = _
    unfold setMode
    split <;> exact ⟨rfl, rfl⟩
  | setpoint v =>
    have skipped : setSetpoint uptime v p = p := if_neg (Int.not_le.mpr early)
    rw [Setter.call, skipped]
    exact ⟨rfl, rfl⟩

theorem held_step {t uptime : ℤ} {w : ℚ} {s s' : State} {a : Act} (allowed : InHold t uptime a)
    (step : Step uptime s a s') (held : Held t w s) : Held t w s' := by
  cases step with
  | set call =>
    have early : uptime < s.pending.setpointHoldUntil := by
      rw [held.hold]
      rcases allowed.2 with early | ⟨linkUp, publish⟩
      · exact early
      · contradiction
    obtain ⟨latch, hold⟩ := call_setpoint call early
    exact ⟨hold.trans held.hold, held.present, latch ▸ held.latched, held.unwritten, held.copied⟩
  | writeFanMode v idle =>
    exact ⟨held.hold, held.present, held.latched, held.unwritten, held.copied⟩
  | storeSetpoint v idle => exact absurd rfl (allowed.1 v)
  | handleSetpointWrite v written => exact absurd written (held.unwritten v)
  | copyLatches idle =>
    refine ⟨held.hold, held.present, fun dirty => ?_, fun v => ?_, fun copy same => ?_⟩
    · contradiction
    · simp
    · cases same
      exact held.latched
  | publishCopy linkUp copy publishing =>
    refine ⟨held.hold, ?_, held.latched, fun v => ?_, fun copy same => ?_⟩
    · rw [State.presentValue_publishCopy]
      split
      · rename_i dirty
        exact held.copied copy publishing dirty
      · exact held.present
    · simp
    · contradiction

/-- While a client write waits for its handler, the attribute holds its value. -/
theorem written_present {before : List (ℤ × Act)} {y : ℤ × State} (run : Run (0, boot) before y)
    (w : ℚ) (written : y.2.zboss = .written w) : y.2.presentValue = w := by
  revert w
  refine run.invariant (fun s => ∀ w, s.zboss = .written w → s.presentValue = w) ?_ ?_
  · intro t s a s' step present w written
    cases step with
    | set call => exact present w written
    | writeFanMode v idle => exact present w written
    | storeSetpoint v idle =>
      cases written
      exact s.presentValue_storeSetpoint _
    | handleSetpointWrite v handled => contradiction
    | copyLatches idle => contradiction
    | publishCopy linkUp copy publishing => contradiction
  · intro w written
    contradiction

/-- A tick publishes what the setpoint latch holds. -/
theorem tick_publishes {now t : ℤ} {s : State} (idle : s.zboss = .idle) (ordered : now ≤ t) :
    ∃ s', Run (now, s) [(t, .copyLatches), (t, .publishCopy true)] (t, s') ∧ s'.presentValue =
      if s.pending.setpoint.dirty then s.pending.setpoint.val else s.presentValue := by
  exact ⟨_, .next ordered (.copyLatches idle)
    (.next (le_refl t) (.publishCopy true _ rfl) (.refl _)), State.presentValue_publishCopy ..⟩

/-- A client write is kept through its hold exactly when no different readback
waits in the latch as its handler runs. -/
theorem setpoint_write_held_iff {before : List (ℤ × Act)} {now t : ℤ} {s s' : State} {w : ℚ}
    (run : Run (0, boot) before (now, s)) (written : s.zboss = .written w)
    (handled : Run (now, s) [(t, .handleSetpointWrite)] (t, s')) :
    KeptThroughHold t w s' ↔ (s.pending.setpoint.dirty = true → s.pending.setpoint.val = w) := by
  have present := written_present run w written
  cases handled with
  | next ordered step rest =>
    cases rest with
    | refl =>
      cases step with
      | handleSetpointWrite v place =>
        constructor
        · intro kept dirty
          obtain ⟨after, tick, published⟩ :=
            tick_publishes (s := s.handleSetpointWrite t v) rfl (le_refl t)
          have during : t < t + setpointWriteHoldMs := Int.lt_add_of_pos_right t (by decide)
          have unchanged := kept _ _ tick ?_
          · exact (published.trans (if_pos dirty)).symm.trans unchanged
          · intro e member
            rcases List.mem_pair.mp member with rfl | rfl
            · exact ⟨by simp, .inl during⟩
            · exact ⟨by simp, .inl during⟩
        · intro agrees after y later allowed
          apply Held.present (t := t)
          apply later.keeps (Held t w) (InHold t) held_step allowed
          exact ⟨rfl, present, agrees, by simp, by simp⟩

/-- A write of 21.5 °C that finds the latch clean. -/
theorem setpoint_write_held_clean :
    KeptThroughHold 1500 215 ((boot.storeSetpoint 215).handleSetpointWrite 1500 215) :=
  (setpoint_write_held_iff (.next (by decide : (0 : ℤ) ≤ 1500) (.storeSetpoint 215 rfl) (.refl _))
    rfl (.next (le_refl _) (.handleSetpointWrite 215 rfl) (.refl _))).mpr nofun

/-- A readback of 20 °C is latched half a second before a client writes 21.5 °C,
and the tick another half second later publishes it. -/
theorem latched_readback_overwrites :
    let s := ((boot.set 1000 (.setpoint 200)).storeSetpoint 215).handleSetpointWrite 1500 215
    Run (0, boot) [(1000, .set (.setpoint 200)), (1500, .storeSetpoint 215),
      (1500, .handleSetpointWrite)] (1500, s) ∧
    ∃ s', Run (1500, s) [(2000, .copyLatches), (2000, .publishCopy true)] (2000, s') ∧
      2000 < 1500 + setpointWriteHoldMs ∧ s'.presentValue = 200 ∧ ¬ KeptThroughHold 1500 215 s := by
  intro s
  have written : Run (0, boot) [(1000, .set (.setpoint 200)), (1500, .storeSetpoint 215),
      (1500, .handleSetpointWrite)] (1500, s) :=
    .next (by decide) (.set (.setpoint 200)) (.next (by decide) (.storeSetpoint 215 rfl)
      (.next (by decide) (.handleSetpointWrite 215 rfl) (.refl _)))
  have ordered : (1500 : ℤ) ≤ 2000 := by decide
  obtain ⟨s', tick, published⟩ := tick_publishes (s := s) rfl ordered
  have late : s'.presentValue = 200 := published
  refine ⟨written, s', tick, by decide, late, fun kept => ?_⟩
  have same := kept _ _ tick (by simp [InHold, setpointWriteHoldMs])
  rw [late] at same
  exact absurd same (by decide)

end FlexitCs60.Zigbee
