import FlexitCs60.Slave.Framing

/-! What each handler can do to the command data, diagnostic counters aside:
only a served FC03 read and an FC65 broadcast touch it. -/
namespace FlexitCs60.Slave
open Wire Framing

/-- The state without its diagnostic counters. -/
def uncounted (s : State) : State :=
  { s with
    setpointReads := 0
    fc01Serviced := 0
    fc03Serviced := 0
    fc04Serviced := 0
    fc65Acks := 0
    txErrors := 0
    crcFailures := 0 }

@[simp] theorem uncounted_coils (s : State) : (uncounted s).coils = s.coils := rfl
@[simp] theorem uncounted_regs (s : State) : (uncounted s).regs = s.regs := rfl
theorem bumpCrcFailure_uncounted (s : State) : uncounted (bumpCrcFailure s) = uncounted s := rfl

theorem serviceFc03_uncounted (addr qty : UInt16) (s : State) :
    uncounted (serviceFc03 addr qty s) =
      if readsSetpoint addr qty s then
        { uncounted s with coils := s.coils.lower cmdSetpointAddr }
      else uncounted s := by
  have same : readsSetpoint addr qty { s with fc03Serviced := s.fc03Serviced + 1 } =
      readsSetpoint addr qty s := rfl
  unfold serviceFc03
  dsimp only
  rw [same]
  cases readsSetpoint addr qty s <;> rfl

/-- Counting a failed transmission changes no command data, so only the update
under the mutex does. -/
theorem respond_uncounted (resp : Option (List UInt8)) (serviced : State → State)
    (tx : Transmission) (s : State) :
    uncounted (respond resp serviced tx s).1 =
      if resp.isSome then uncounted (serviced s) else uncounted s := by
  cases resp with
  | none => rfl
  | some resp =>
    simp only [respond, Option.isSome_some, if_true]
    split <;> rfl

theorem respond_reply (resp : Option (List UInt8)) (serviced : State → State)
    (tx : Transmission) (s : State) :
    (respond resp serviced tx s).2 = resp.map fun resp => (resp, (rs485UartSend tx resp).1) := by
  cases resp <;> rfl

variable [Zephyr]

theorem handleFc01Request_uncounted (tx : Transmission) (frame : List UInt8) (s : State) :
    uncounted (handleFc01Request tx frame s).1 = uncounted s := by
  rw [handleFc01Request, respond_uncounted]
  exact ite_self _

theorem handleFc04Request_uncounted (tx : Transmission) (frame : List UInt8) (s : State) :
    uncounted (handleFc04Request tx frame s).1 = uncounted s := by
  rw [handleFc04Request, respond_uncounted]
  exact ite_self _

/-- A served read of the setpoint register lowers coil 12, whatever becomes of
the response. -/
theorem handleFc03Request_uncounted (tx : Transmission) (frame : List UInt8) (s : State) :
    uncounted (handleFc03Request tx frame s).1 =
      if (handleFc03Request tx frame s).2.isSome ∧
          readsSetpoint (getBe16 (frame.drop 2)) (getBe16 (frame.drop 4)) s then
        { uncounted s with coils := s.coils.lower cmdSetpointAddr }
      else uncounted s := by
  rw [handleFc03Request, respond_uncounted, respond_reply, serviceFc03_uncounted, Option.isSome_map]
  cases (buildFc03Response s.regs respBufSize (getBe16 (frame.drop 2))
    (getBe16 (frame.drop 4))).isSome <;>
    cases readsSetpoint (getBe16 (frame.drop 2)) (getBe16 (frame.drop 4)) s <;> rfl

omit [Zephyr] in
theorem handleFc65Broadcast_known (uptime : UInt64) {frame : List UInt8} (s : State)
    (known : (getBe16 (frame.drop 2)).toNat < regCount) :
    (handleFc65Broadcast uptime frame s).coils = s.coils.lower ⟨_, known⟩ ∧
      (handleFc65Broadcast uptime frame s).regs =
        s.regs.set (getBe16 (frame.drop 2)).toNat (getBe16 (frame.drop 4)) := by
  unfold handleFc65Broadcast
  dsimp only
  rw [dif_pos known]
  split <;> exact ⟨rfl, rfl⟩

omit [Zephyr] in
theorem handleFc65Broadcast_unknown (uptime : UInt64) {frame : List UInt8} (s : State)
    (unknown : ¬ (getBe16 (frame.drop 2)).toNat < regCount) :
    handleFc65Broadcast uptime frame s = { s with fc65Acks := s.fc65Acks + 1 } := by
  unfold handleFc65Broadcast
  dsimp only
  rw [dif_neg unknown]

omit [Zephyr] in
theorem handleFc65Broadcast_pending (uptime : UInt64) (frame : List UInt8) (s : State) :
    (handleFc65Broadcast uptime frame s).pendingMode = s.pendingMode ∧
      (handleFc65Broadcast uptime frame s).pendingSetpoint = s.pendingSetpoint := by
  unfold handleFc65Broadcast
  dsimp only
  split
  · split <;> exact ⟨rfl, rfl⟩
  · exact ⟨rfl, rfl⟩

omit [Zephyr] in
/-- A broadcast lowers the coil of its register's number and no other. -/
theorem handleFc65Broadcast_test (uptime : UInt64) (frame : List UInt8) (s : State)
    (i : Fin coilCount) : (handleFc65Broadcast uptime frame s).coils.test i =
      (decide ((getBe16 (frame.drop 2)).toNat ≠ i.val) && s.coils.test i) := by
  by_cases known : (getBe16 (frame.drop 2)).toNat < regCount
  · rw [(handleFc65Broadcast_known uptime s known).1, Coils.test_lower]
    simp only [ne_eq, Fin.ext_iff]
  · have other : (getBe16 (frame.drop 2)).toNat ≠ i.val := by
      intro same
      exact known (same ▸ i.isLt)
    rw [handleFc65Broadcast_unknown uptime s known]
    simp [other]

omit [Zephyr] in
/-- A broadcast stamps its own register and no other. -/
theorem handleFc65Broadcast_reg (uptime : UInt64) (frame : List UInt8) (s : State)
    (i : Fin coilCount) : (handleFc65Broadcast uptime frame s).regs[i] =
      if (getBe16 (frame.drop 2)).toNat = i.val then getBe16 (frame.drop 4) else s.regs[i] := by
  by_cases known : (getBe16 (frame.drop 2)).toNat < regCount
  · simp only [(handleFc65Broadcast_known uptime s known).2, Fin.getElem_fin, Vector.getElem_set]
  · have other : (getBe16 (frame.drop 2)).toNat ≠ i.val := by
      intro same
      exact known (same ▸ i.isLt)
    rw [handleFc65Broadcast_unknown uptime s known, if_neg other]

/-- Everything one turn of the matcher can do to the traced state. -/
theorem tryDecodeAtFront_cases (env : Env) (accum : List UInt8) (accumLen : Nat) (s : Traced) :
    (tryDecodeAtFront env accum accumLen s).2 = s ∨
      (tryDecodeAtFront env accum accumLen s).2 = { s with state := bumpCrcFailure s.state } ∨
      ∃ frame, anchored (frame.getD 0 0) (frame.getD 1 0) = true ∧
        (tryDecodeAtFront env accum accumLen s).2 = accept env frame s := by
  rw [tryDecodeAtFront_eq]
  split
  · exact .inl rfl
  split
  · rename_i anchor
    unfold attempt
    split
    · exact .inl rfl
    dsimp only
    split
    · refine .inr (.inr ⟨accum.take fcReqLen, ?_, rfl⟩)
      rwa [getD_take (by decide), getD_take (by decide)]
    · exact .inr (.inl rfl)
  · exact .inl rfl

end FlexitCs60.Slave
