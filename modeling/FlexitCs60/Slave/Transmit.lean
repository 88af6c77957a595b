import FlexitCs60.Slave.Effects
import FlexitCs60.Slave.Window

/-! What a failed transmission leaves behind. All three read handlers count and
send alike; only the FC03 handler has changed command data by then. -/
namespace FlexitCs60.Slave
open Wire Framing

/-- A read window that covers the setpoint register while coil 12 is raised. -/
def ClearsSetpoint (fc : UInt8) (start qty : UInt16) (s : State) : Prop :=
  fc = 0x03 ∧ start.toNat ≤ 0x000C ∧ 0x000C < start.toNat + qty.toNat ∧
    s.coils.test cmdSetpointAddr = true

theorem readsSetpoint_iff (start qty : UInt16) (s : State) :
    readsSetpoint start qty s = true ↔ start.toNat ≤ 0x000C ∧
      0x000C < start.toNat + qty.toNat ∧ s.coils.test cmdSetpointAddr = true := by
  rw [readsSetpoint, decide_eq_true_eq]
  rfl

section
variable [Zephyr]

/-- The command data after an answered request, sent or not. -/
theorem answered_uncounted {fc : UInt8} (known : fc ∈ [(0x01 : UInt8), 0x03, 0x04])
    (start qty : UInt16) (tx : Transmission) (uptime : UInt64) (s : State)
    (answered : (handleFrame tx uptime (request fc start qty) s).2.isSome) :
    uncounted (handleFrame tx uptime (request fc start qty) s).1 =
      if fc = 0x03 ∧ readsSetpoint start qty s then
        { uncounted s with coils := s.coils.lower cmdSetpointAddr }
      else uncounted s := by
  have addr : getBe16 ((request fc start qty).drop 2) = start := getBe16_putBe16 start _
  have count : getBe16 ((request fc start qty).drop 4) = qty := getBe16_putBe16 qty _
  simp only [List.mem_cons, List.not_mem_nil, or_false] at known
  rcases known with rfl | rfl | rfl
  · exact handleFc01Request_uncounted tx _ s
  · change (handleFc03Request tx (request 0x03 start qty) s).2.isSome = true at answered
    have served := handleFc03Request_uncounted tx (request 0x03 start qty) s
    simp only [addr, count, answered, true_and] at served
    simp only [true_and]
    exact served
  · exact handleFc04Request_uncounted tx _ s

/-- The response to a servable request fails to leave the device, and the slave's
command data survives that exactly when the request did not take the pending
setpoint off coil 12 beforehand. -/
theorem failed_send_keeps_commands_iff {fc : UInt8} (known : fc ∈ [(0x01 : UInt8), 0x03, 0x04])
    (start qty : UInt16) (env : Env) (rest : List UInt8) (s : Traced)
    (served : Servable fc start.toNat qty.toNat)
    (failed : ¬ (env.tx s.handled.length).Sends) :
    let out := (tryDecodeAtFront env (request fc start qty ++ rest)
      (request fc start qty ++ rest).length s).2
    (∃ resp err, out.handled = s.handled ++ [⟨request fc start qty, some (resp, err)⟩] ∧
      err ≠ 0) ∧
    (uncounted out.state = uncounted s.state ↔ ¬ ClearsSetpoint fc start qty s.state) := by
  intro out
  obtain ⟨serviced, handled⟩ := handleFrame_request known start qty (env.tx s.handled.length)
    (env.uptime s.handled.length) s.state
  obtain ⟨resp, built⟩ := Option.isSome_iff_exists.mp
    ((response_isSome known start qty s.state).mpr served)
  have replied : (handleFrame (env.tx s.handled.length) (env.uptime s.handled.length)
      (request fc start qty) s.state).2 =
        some (resp, (rs485UartSend (env.tx s.handled.length) resp).1) := by
    rw [handled, respond_reply, built]
    rfl
  have left := answered_uncounted known start qty (env.tx s.handled.length)
    (env.uptime s.handled.length) s.state (by rw [replied]; rfl)
  have after : out = accept env (request fc start qty) s := by
    simp only [out, tryDecodeAtFront_request known]
  have clears : ClearsSetpoint fc start qty s.state ↔
      fc = 0x03 ∧ readsSetpoint start qty s.state = true := by
    rw [ClearsSetpoint, readsSetpoint_iff]
  rw [after]
  refine ⟨⟨resp, _, by rw [accept, replied], ?_⟩, ?_⟩
  · intro none
    exact failed ((rs485UartSend_eq_zero _ _).mp none).2
  simp only [accept]
  rw [left, clears]
  split
  · rename_i taken
    refine iff_of_false ?_ (not_not_intro taken)
    intro same
    have raised := ((readsSetpoint_iff start qty s.state).mp taken.2).2.2
    have coil := congrArg (fun s => s.coils.test cmdSetpointAddr) same
    simp [raised] at coil
  · rename_i untouched
    exact iff_of_true rfl untouched

end

/-- A driver that is not ready. -/
def notReady : Transmission := ⟨false, 0, .timeout⟩

/-- A queued 21.5 °C is taken off coil 12 by a read whose response never leaves
the device. -/
theorem failed_send_clears_setpoint :
    let s : Traced := ⟨(flexitSlaveQueueSetpoint 215 flexitSlaveInit).2, []⟩
    let out := (tryDecodeAtFront ⟨fun _ => 0, fun _ => notReady⟩ (request 0x03 0x000C 0x0001) 8 s).2
    s.state.coils.test cmdSetpointAddr = true ∧
      (out.handled.map fun h => h.reply.map Prod.snd) = [some (-ENODEV)] ∧
      out.state.coils.test cmdSetpointAddr = false := by
  decide +kernel

/-- A coil poll that fails to be answered leaves the same queued value alone. -/
theorem failed_send_keeps_commands_poll :
    let s : Traced := ⟨(flexitSlaveQueueSetpoint 215 flexitSlaveInit).2, []⟩
    uncounted (tryDecodeAtFront ⟨fun _ => 0, fun _ => notReady⟩
      (request 0x01 0x0000 0x0010 ++ []) (request 0x01 0x0000 0x0010 ++ []).length s).2.state =
        uncounted s.state :=
  (failed_send_keeps_commands_iff (by decide) 0x0000 0x0010 ⟨fun _ => 0, fun _ => notReady⟩ [] _
    (.inl (by decide)) (by decide)).2.mpr fun clears => absurd clears.1 (by decide)

end FlexitCs60.Slave
