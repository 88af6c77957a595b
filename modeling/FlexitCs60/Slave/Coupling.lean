import FlexitCs60.Slave.Commands

/-! The coupling of coils, registers and pending commands: a raised coil means the
register holds the pending command of its slot, and no other coil is ever raised. -/
namespace FlexitCs60.Slave.Commands
open Wire Framing

def Slot.pending : Slot → State → UInt16
  | .mode, s => s.pendingMode
  | .setpoint, s => s.pendingSetpoint

/-- The commands the CS60 understands: modes 0 to 3, setpoints from 10.0 to 30.0 °C. -/
def Slot.InRange : Slot → UInt16 → Prop
  | .mode, value => value.toNat ≤ 3
  | .setpoint, value => 100 ≤ value.toNat ∧ value.toNat ≤ 300

structure Coupled (s : State) : Prop where
  others : ∀ i, i ≠ cmdModeAddr → i ≠ cmdSetpointAddr → s.coils.test i = false
  slots : ∀ slot : Slot, s.coils.test slot.index = true →
    s.regs[slot.index] = slot.pending s ∧ slot.InRange (slot.pending s)

theorem coupled_init : Coupled flexitSlaveInit := by
  have down : ∀ i, flexitSlaveInit.coils.test i = false := by decide
  refine ⟨fun i _ _ => down i, fun slot raised => ?_⟩
  rw [down] at raised
  contradiction

/-- What lowers coils, changes registers under lowered coils only and queues
nothing keeps the coupling. -/
theorem coupled_mono {s s' : State} (coupled : Coupled s)
    (pending : ∀ slot : Slot, slot.pending s' = slot.pending s)
    (lowered : ∀ i, s'.coils.test i = true → s.coils.test i = true ∧ s'.regs[i] = s.regs[i]) :
    Coupled s' := by
  constructor
  · intro i notMode notSetpoint
    apply Bool.eq_false_iff.mpr
    intro raised
    have down := coupled.others i notMode notSetpoint
    rw [(lowered i raised).1] at down
    contradiction
  · intro slot raised
    obtain ⟨before, same⟩ := lowered slot.index raised
    rw [same, pending]
    exact coupled.slots slot before

theorem pending_uncounted (slot : Slot) (s : State) : slot.pending (uncounted s) = slot.pending s := by
  cases slot <;> rfl

/-- Diagnostic counters play no part. -/
theorem coupled_uncounted {s s' : State} (coupled : Coupled s)
    (same : uncounted s' = uncounted s) : Coupled s' := by
  apply coupled_mono coupled
  · intro slot
    rw [← pending_uncounted slot s', same, pending_uncounted]
  · intro i raised
    have coils : s'.coils = s.coils := by simpa using congrArg State.coils same
    have regs : s'.regs = s.regs := by simpa using congrArg State.regs same
    rw [coils] at raised
    exact ⟨raised, by rw [regs]⟩

/-- What a queue function does keeps the coupling if the value is in range. -/
theorem coupled_queued {slot : Slot} {value : UInt16} {s s' : State} (coupled : Coupled s)
    (inRange : slot.InRange value) (coils : s'.coils = s.coils.raise slot.index)
    (regs : s'.regs = s.regs.set slot.index value) (own : slot.pending s' = value)
    (foreign : ∀ other, other ≠ slot → other.pending s' = other.pending s) : Coupled s' := by
  constructor
  · intro i notMode notSetpoint
    have different : slot.index ≠ i := by
      cases slot with
      | mode => exact notMode.symm
      | setpoint => exact notSetpoint.symm
    rw [coils, Coils.test_raise, decide_eq_false different, Bool.false_or]
    exact coupled.others i notMode notSetpoint
  · intro other raised
    rw [regs]
    simp only [Fin.getElem_fin, Vector.getElem_set]
    by_cases same : other = slot
    · subst same
      rw [if_pos rfl, own]
      exact ⟨rfl, inRange⟩
    · have apart := Slot.index_ne (Ne.symm same)
      rw [coils, Coils.test_raise, decide_eq_false fun equal => apart (congrArg _ equal),
        Bool.false_or] at raised
      rw [if_neg apart, foreign other same]
      exact coupled.slots other raised

theorem coupled_queueMode (mode : UInt16) {s : State} (coupled : Coupled s) :
    Coupled (flexitSlaveQueueMode mode s).2 := by
  unfold flexitSlaveQueueMode
  split
  · exact coupled
  · rename_i small
    have inRange : mode.toNat ≤ 3 := UInt16.not_lt.mp small
    refine @coupled_queued .mode mode s _ coupled inRange rfl rfl rfl fun other different => ?_
    cases other with
    | mode => contradiction
    | setpoint => rfl

theorem coupled_queueSetpoint {valueX10 : UInt16} (inRange : Slot.setpoint.InRange valueX10)
    {s : State} (coupled : Coupled s) : Coupled (flexitSlaveQueueSetpoint valueX10 s).2 := by
  refine @coupled_queued .setpoint valueX10 s _ coupled inRange rfl rfl rfl fun other different => ?_
  cases other with
  | mode => rfl
  | setpoint => contradiction

theorem pending_handleFc65Broadcast (slot : Slot) (uptime : UInt64) (frame : List UInt8) (s : State) :
    slot.pending (handleFc65Broadcast uptime frame s) = slot.pending s := by
  obtain ⟨mode, setpoint⟩ := handleFc65Broadcast_pending uptime frame s
  cases slot with
  | mode => exact mode
  | setpoint => exact setpoint

theorem coupled_handleFc65Broadcast (uptime : UInt64) (frame : List UInt8) {s : State}
    (coupled : Coupled s) : Coupled (handleFc65Broadcast uptime frame s) := by
  apply coupled_mono coupled
  · exact fun slot => pending_handleFc65Broadcast slot uptime frame s
  · intro i raised
    rw [handleFc65Broadcast_test, Bool.and_eq_true, decide_eq_true_eq] at raised
    rw [handleFc65Broadcast_reg, if_neg raised.1]
    exact ⟨raised.2, rfl⟩

variable [Zephyr]

/-- No frame changes which command is pending. -/
theorem pending_handleFrame (slot : Slot) (tx : Transmission) (uptime : UInt64) (frame : List UInt8)
    (s : State) : slot.pending (handleFrame tx uptime frame s).1 = slot.pending s := by
  rw [← pending_uncounted]
  unfold handleFrame
  dsimp only
  split_ifs with fc01 fc03 fc04
  · rw [handleFc01Request_uncounted, pending_uncounted]
  · rw [handleFc03Request_uncounted]
    split
    · cases slot <;> rfl
    · exact pending_uncounted slot s
  · rw [handleFc04Request_uncounted, pending_uncounted]
  · rw [pending_uncounted, pending_handleFc65Broadcast]

/-- Every handler keeps the coupling, whatever the frame says and whatever
becomes of the response. -/
theorem coupled_handleFrame (tx : Transmission) (uptime : UInt64) (frame : List UInt8) {s : State}
    (coupled : Coupled s) : Coupled (handleFrame tx uptime frame s).1 := by
  unfold handleFrame
  dsimp only
  split_ifs with fc01 fc03 fc04
  · exact coupled_uncounted coupled (handleFc01Request_uncounted tx frame s)
  · have effect := handleFc03Request_uncounted tx frame s
    split_ifs at effect with taken
    · apply @coupled_uncounted { s with coils := s.coils.lower cmdSetpointAddr }
      · apply coupled_mono coupled
        · rintro (_ | _) <;> rfl
        · intro i raised
          rw [Coils.test_lower, Bool.and_eq_true] at raised
          exact ⟨raised.2, rfl⟩
      · exact effect
    · exact coupled_uncounted coupled effect
  · exact coupled_uncounted coupled (handleFc04Request_uncounted tx frame s)
  · exact coupled_handleFc65Broadcast uptime frame coupled

/-- An answer to a read that covers a raised slot carries its pending command. -/
def Truthful (s : State) (h : Handled) : Prop :=
  ∀ (slot : Slot) (resp : List UInt8) (err : Int), s.coils.test slot.index = true →
    covers h slot = true → h.reply = some (resp, err) →
    answeredWord h.frame resp slot = slot.pending s ∧ slot.InRange (slot.pending s)

theorem truthful_handleFrame (tx : Transmission) (uptime : UInt64) (frame : List UInt8) {s : State}
    (coupled : Coupled s) : Truthful s ⟨frame, (handleFrame tx uptime frame s).2⟩ := by
  intro slot resp err raised covered answered
  dsimp only at answered
  rw [handleFrame_covered covered] at answered
  obtain ⟨holds, inRange⟩ := coupled.slots slot raised
  refine ⟨(fc03_answeredWord ?_ answered).trans holds, inRange⟩
  exact covered

end FlexitCs60.Slave.Commands
