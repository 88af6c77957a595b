import FlexitCs60.Slave.Cycle

/-! The agreement of the slave with the CS60: every value the CS60 takes over was queued,
each of them once and in order, and when a coil is down it has the latest. -/
namespace FlexitCs60.Slave.Cycle
open Wire Framing Labelled
open Commands (Slot answeredWord)

namespace Cs60

/-- The raised slots that still have to be read or acknowledged. -/
def owed : Cs60 → List Slot
  | .idle => []
  | .serving slots => slots
  | .acking _ slots => .mode :: slots

/-- The mode whose acknowledgement is due. -/
def due : Cs60 → Option UInt16
  | .acking mode _ => some mode
  | _ => none

end Cs60

/-- The coil is up for a value that the CS60 has not read. -/
def Fresh (slot : Slot) (s : System) : Prop :=
  s.coil slot = true ∧ (slot = .mode → s.cs60.due = none)

structure Agrees (slot : Slot) (s : System) : Prop where
  fresh : Fresh slot s → ∃ before, ofSlot slot s.queued = before ++ [s.reg slot] ∧
    (ofSlot slot s.adopted).Sublist before
  settled : ¬ Fresh slot s → (ofSlot slot s.adopted).Sublist (ofSlot slot s.queued) ∧
    (ofSlot slot s.adopted).getLast? = (ofSlot slot s.queued).getLast?

structure Inv (s : System) : Prop where
  empty : s.slave.1.len = 0
  agrees : ∀ slot, Agrees slot s
  nodup : s.cs60.owed.Nodup
  raised : ∀ slot ∈ s.cs60.owed, s.coil slot = true
  read : ∀ mode ∈ s.cs60.due, (ofSlot .mode s.adopted).getLast? = some mode
  acked : s.cs60.due = none →
    s.state.lastAckedMode = (ofSlot .mode s.adopted).getLast?.getD sentinelNone

theorem Agrees.inOrder {slot : Slot} {s : System} (agrees : Agrees slot s) :
    (ofSlot slot s.adopted).Sublist (ofSlot slot s.queued) := by
  by_cases fresh : Fresh slot s
  · obtain ⟨before, queued, sub⟩ := agrees.fresh fresh
    rw [queued]
    exact sub.trans (List.sublist_append_left ..)
  · exact (agrees.settled fresh).1

theorem Agrees.latest {slot : Slot} {s : System} (agrees : Agrees slot s)
    (down : s.coil slot = false) :
    (ofSlot slot s.adopted).getLast? = (ofSlot slot s.queued).getLast? := by
  refine (agrees.settled fun fresh => ?_).2
  rw [fresh.1] at down
  contradiction

theorem ofSlot_concat (slot other : Slot) (value : UInt16) (calls : List (Slot × UInt16)) :
    ofSlot slot (calls ++ [(other, value)]) =
      ofSlot slot calls ++ if other = slot then [value] else [] := by
  rw [ofSlot, List.filter_append, List.map_append]
  by_cases same : other = slot <;> simp [ofSlot, same]

/-- A slot agrees as long as nothing of it changes. -/
theorem Agrees.congr {slot : Slot} {s t : System} (coil : t.coil slot = s.coil slot)
    (reg : t.reg slot = s.reg slot) (due : slot = .mode → t.cs60.due = s.cs60.due)
    (queued : ofSlot slot t.queued = ofSlot slot s.queued)
    (adopted : ofSlot slot t.adopted = ofSlot slot s.adopted) (agrees : Agrees slot s) :
    Agrees slot t := by
  have same : Fresh slot t ↔ Fresh slot s := by
    unfold Fresh
    rw [coil]
    refine and_congr_right fun _ => forall_congr' fun mode => ?_
    rw [due mode]
  constructor
  · rw [same, queued, adopted, reg]
    exact agrees.fresh
  · rw [same, queued, adopted]
    exact agrees.settled

/-- The value of a fresh slot is taken over, the latest that was queued. -/
theorem Agrees.took {slot : Slot} {s t : System} (agrees : Agrees slot s) (fresh : Fresh slot s)
    (queued : t.queued = s.queued) (adopted : t.adopted = s.adopted ++ [(slot, s.reg slot)])
    (settled : ¬ Fresh slot t) : Agrees slot t := by
  obtain ⟨before, calls, sub⟩ := agrees.fresh fresh
  constructor
  · exact fun again => absurd again settled
  · intro _
    rw [queued, adopted, ofSlot_concat, if_pos rfl, calls, List.getLast?_concat,
      List.getLast?_concat]
    exact ⟨sub.append (List.Sublist.refl _), rfl⟩

/-- What changes neither the command data nor what is due keeps the invariant. -/
theorem Inv.kept {s t : System} (inv : Inv s) (empty : t.slave.1.len = 0)
    (kept : Kept s.state t.state) (queued : t.queued = s.queued) (adopted : t.adopted = s.adopted)
    (due : t.cs60.due = s.cs60.due) (nodup : t.cs60.owed.Nodup)
    (raised : ∀ slot ∈ t.cs60.owed, s.coil slot = true) : Inv t := by
  refine ⟨empty, fun slot => ?_, nodup, fun slot member => ?_, ?_, ?_⟩
  · exact (inv.agrees slot).congr (kept.1 slot).1 (kept.1 slot).2 (fun _ => due)
      (by rw [queued]) (by rw [adopted])
  · exact (kept.1 slot).1.trans (raised slot member)
  · rw [due, adopted]
    exact inv.read
  · rw [due, adopted, kept.2]
    exact inv.acked

theorem inv_boot (cells : Vector UInt8 accumSize) : Inv (boot cells) := by
  refine ⟨rfl, fun slot => ⟨fun fresh => ?_, fun _ => ⟨List.Sublist.refl _, rfl⟩⟩, List.nodup_nil,
    fun slot member => by contradiction, fun mode member => by contradiction, fun _ => rfl⟩
  have down : (boot cells).coil slot = false := by
    change flexitSlaveInit.coils.test slot.index = false
    cases slot <;> decide
  rw [Fresh, down] at fresh
  exact absurd fresh.1 Bool.false_ne_true

/-- A queue call that is accepted, while no acknowledgement of its slot is due. -/
theorem Inv.queued {s : System} (inv : Inv s) (slot : Slot) {value : UInt16} {after : State}
    (coils : after.coils = s.state.coils.raise slot.index)
    (regs : after.regs = s.state.regs.set slot.index value)
    (acked : after.lastAckedMode = s.state.lastAckedMode)
    (free : slot = .mode → s.cs60.due = none) :
    Inv { s with
      slave := (s.slave.1, { s.slave.2 with state := after })
      queued := s.queued ++ [(slot, value)] } := by
  have coil : ∀ other, after.coils.test other.index = (decide (slot = other) || s.coil other) := by
    intro other
    rw [coils, Coils.test_raise]
    cases slot <;> cases other <;> rfl
  have reg : ∀ other : Slot,
      after.regs[other.index] = if slot = other then value else s.reg other := by
    intro other
    rw [regs]
    simp only [Fin.getElem_fin, Vector.getElem_set]
    cases slot <;> cases other <;> rfl
  refine ⟨inv.empty, fun other => ?_, inv.nodup, fun other member => ?_, inv.read, ?_⟩
  · by_cases same : slot = other
    · subst same
      refine ⟨fun _ => ⟨ofSlot slot s.queued, ?_, (inv.agrees slot).inOrder⟩, fun stale => ?_⟩
      · change ofSlot slot (s.queued ++ [(slot, value)]) = _ ++ [after.regs[slot.index]]
        rw [ofSlot_concat, if_pos rfl, reg, if_pos rfl]
      · refine absurd ⟨?_, free⟩ stale
        change after.coils.test slot.index = true
        rw [coil, decide_eq_true rfl, Bool.true_or]
    · refine Agrees.congr (s := s) ?_ ?_ (fun _ => rfl) ?_ rfl (inv.agrees other)
      · change after.coils.test other.index = _
        rw [coil, decide_eq_false same, Bool.false_or]
      · change after.regs[other.index] = _
        rw [reg, if_neg same]
      · rw [ofSlot_concat, if_neg same, List.append_nil]
  · change after.coils.test other.index = true
    rw [coil, inv.raised other member, Bool.or_true]
  · change s.cs60.due = none → after.lastAckedMode = _
    rw [acked]
    exact inv.acked

theorem uncounted_lastAckedMode (s : State) : (uncounted s).lastAckedMode = s.lastAckedMode := rfl

/-- What a read of one slot leaves of the command data. -/
theorem read_fields {before after : State} {slot : Slot}
    (effect : uncounted after =
      if slot = .setpoint ∧ before.coils.test Slot.setpoint.index = true then
        { uncounted before with coils := before.coils.lower cmdSetpointAddr }
      else uncounted before) :
    (∀ other : Slot, after.coils.test other.index =
        (before.coils.test other.index && !decide (slot = .setpoint ∧ other = .setpoint))) ∧
      (∀ other : Slot, after.regs[other.index] = before.regs[other.index]) ∧
      after.lastAckedMode = before.lastAckedMode := by
  rw [← uncounted_coils after, ← uncounted_regs after, ← uncounted_lastAckedMode after, effect]
  split
  · rename_i taken
    refine ⟨fun other => ?_, fun _ => rfl, rfl⟩
    change (before.coils.lower cmdSetpointAddr).test other.index = _
    rw [Coils.test_lower]
    cases other with
    | mode =>
      have apart : cmdSetpointAddr ≠ cmdModeAddr := by decide
      simp [Slot.index, apart]
    | setpoint => simp [Slot.index, taken.1]
  · rename_i spared
    refine ⟨fun other => ?_, fun _ => rfl, rfl⟩
    rw [uncounted_coils]
    by_cases same : slot = .setpoint ∧ other = .setpoint
    · obtain ⟨rfl, rfl⟩ := same
      have down := Bool.eq_false_iff.mpr fun up => spared ⟨rfl, up⟩
      rw [down, Bool.false_and]
    · rw [decide_eq_false same, Bool.not_false, Bool.and_true]

/-- A read whose answer is taken over. -/
theorem Inv.took {s t : System} (inv : Inv s) {slot : Slot} {rest : List Slot}
    (serving : s.cs60 = .serving (slot :: rest)) (empty : t.slave.1.len = 0)
    (coil : ∀ other,
      t.coil other = (s.coil other && !decide (slot = .setpoint ∧ other = .setpoint)))
    (reg : ∀ other, t.reg other = s.reg other)
    (acked : t.state.lastAckedMode = s.state.lastAckedMode) (queued : t.queued = s.queued)
    (adopted : t.adopted = s.adopted) : Inv (t.adopt slot (s.reg slot) rest) := by
  have nodup := inv.nodup
  have raised := inv.raised
  rw [serving, Cs60.owed] at nodup raised
  have idle : s.cs60.due = none := by
    rw [serving]
    rfl
  have up : s.coil slot = true := raised slot List.mem_cons_self
  have owed : ∀ other ∈ (t.adopt slot (s.reg slot) rest).cs60.owed,
      other ∈ slot :: rest ∧ (slot = .setpoint → other ≠ .setpoint) := by
    intro other member
    cases slot with
    | mode => exact ⟨member, fun mode => by contradiction⟩
    | setpoint =>
      refine ⟨List.mem_cons_of_mem _ member, fun _ same => ?_⟩
      subst same
      exact (List.nodup_cons.mp nodup).1 member
  refine ⟨empty, fun other => ?_, ?_, fun other member => ?_, ?_, ?_⟩
  · by_cases same : slot = other
    · subst same
      have settled : ¬ Fresh slot (t.adopt slot (s.reg slot) rest) := by
        rintro ⟨still, due⟩
        cases slot with
        | mode => exact absurd (due rfl) (by simp [System.adopt, Cs60.due])
        | setpoint =>
          have down := (coil .setpoint).symm.trans still
          rw [decide_eq_true ⟨rfl, rfl⟩, Bool.not_true, Bool.and_false] at down
          contradiction
      refine (inv.agrees slot).took ⟨up, fun _ => idle⟩ queued ?_ settled
      rw [← adopted]
      rfl
    · refine (inv.agrees other).congr ?_ (reg other) ?_ (by rw [← queued]; rfl) ?_
      · refine (coil other).trans ?_
        have apart : ¬ (slot = .setpoint ∧ other = .setpoint) := fun both =>
          same (both.1.trans both.2.symm)
        rw [decide_eq_false apart, Bool.not_false, Bool.and_true]
      · rintro rfl
        cases slot with
        | mode => contradiction
        | setpoint => exact idle.symm
      · change ofSlot other (t.adopted ++ _) = _
        rw [ofSlot_concat, if_neg same, List.append_nil, adopted]
  · cases slot with
    | mode => exact nodup
    | setpoint => exact (List.nodup_cons.mp nodup).2
  · obtain ⟨old, spared⟩ := owed other member
    refine (coil other).trans ?_
    have apart : ¬ (slot = .setpoint ∧ other = .setpoint) := fun both => spared both.1 both.2
    rw [raised other old, decide_eq_false apart]
    rfl
  · intro mode due
    cases slot with
    | mode =>
      obtain rfl := Option.mem_some.mp due
      change (ofSlot .mode (t.adopted ++ _)).getLast? = _
      rw [ofSlot_concat, if_pos rfl, List.getLast?_concat]
    | setpoint => contradiction
  · intro free
    cases slot with
    | mode => contradiction
    | setpoint =>
      change t.state.lastAckedMode = (ofSlot .mode (t.adopted ++ _)).getLast?.getD sentinelNone
      rw [ofSlot_concat, if_neg (by decide), List.append_nil, acked, adopted]
      exact inv.acked idle

/-- The acknowledgement of a mode that was read. -/
theorem Inv.acknowledged {s t : System} (inv : Inv s) {mode : UInt16} {rest : List Slot}
    (acking : s.cs60 = .acking mode rest) (empty : t.slave.1.len = 0)
    (coil : t.coil .mode = false ∧ t.coil .setpoint = s.coil .setpoint)
    (reg : t.reg .setpoint = s.reg .setpoint) (acked : t.state.lastAckedMode = mode)
    (queued : t.queued = s.queued) (adopted : t.adopted = s.adopted) :
    Inv { t with cs60 := .serving rest } := by
  have nodup := inv.nodup
  have raised := inv.raised
  rw [acking, Cs60.owed] at nodup raised
  have due : s.cs60.due = some mode := by
    rw [acking]
    rfl
  refine ⟨empty, fun slot => ?_, (List.nodup_cons.mp nodup).2, fun slot member => ?_,
    fun mode member => by contradiction, fun _ => ?_⟩
  · cases slot with
    | mode =>
      have stale : ¬ Fresh .mode s := fun fresh => by
        have free := fresh.2 rfl
        rw [due] at free
        contradiction
      refine ⟨fun fresh => absurd (coil.1.symm.trans fresh.1) Bool.false_ne_true, fun _ => ?_⟩
      change (ofSlot .mode t.adopted).Sublist (ofSlot .mode t.queued) ∧
        (ofSlot .mode t.adopted).getLast? = (ofSlot .mode t.queued).getLast?
      rw [queued, adopted]
      exact (inv.agrees .mode).settled stale
    | setpoint =>
      exact (inv.agrees .setpoint).congr coil.2 reg (fun same => by contradiction)
        (congrArg _ queued) (congrArg _ adopted)
  · cases slot with
    | mode => exact absurd member (List.nodup_cons.mp nodup).1
    | setpoint => exact coil.2.trans (raised .setpoint (List.mem_cons_of_mem _ member))
  · change t.state.lastAckedMode = (ofSlot .mode t.adopted).getLast?.getD sentinelNone
    rw [acked, adopted, inv.read mode due]
    rfl

section
variable [Zephyr]

theorem pollRequest_valid : ValidWindow pollRequest := request_valid (by decide) _ _

theorem readRequest_valid (slot : Slot) : ValidWindow (readRequest slot) :=
  request_valid (by decide) _ _

theorem hears_calls (env : Env) (frame : List UInt8) (s : System) :
    (s.hears env frame).queued = s.queued ∧ (s.hears env frame).adopted = s.adopted ∧
      (s.hears env frame).cs60 = s.cs60 :=
  ⟨rfl, rfl, rfl⟩

/-- A frame that leaves the command data alone. -/
theorem Inv.heard {env : Env} {s : System} (inv : Inv s) {frame : List UInt8}
    (valid : ValidWindow frame) (kept : Kept s.state (s.hears env frame).state) {cs60 : Cs60}
    (due : cs60.due = s.cs60.due) (nodup : cs60.owed.Nodup)
    (raised : ∀ slot ∈ cs60.owed, s.coil slot = true) :
    Inv { s.hears env frame with cs60 := cs60 } := by
  have empty := (hears_window env inv.empty valid).1
  obtain ⟨queued, adopted, _⟩ := hears_calls env frame s
  generalize s.hears env frame = t at *
  exact inv.kept (t := { t with cs60 := cs60 }) empty kept queued adopted due nodup raised

theorem Inv.overheard {env : Env} {s : System} (inv : Inv s) {frame : List UInt8}
    (valid : ValidWindow frame) (kept : Kept s.state (s.hears env frame).state) :
    Inv (s.hears env frame) := by
  have empty := (hears_window env inv.empty valid).1
  obtain ⟨queued, adopted, cs60⟩ := hears_calls env frame s
  generalize s.hears env frame = t at *
  exact inv.kept empty kept queued adopted (by rw [cs60]) (by rw [cs60]; exact inv.nodup)
    (by rw [cs60]; exact inv.raised)

theorem Inv.read_answered {env : Env} {s : System} (inv : Inv s) {slot : Slot} {rest : List Slot}
    (serving : s.cs60 = .serving (slot :: rest)) {resp : List UInt8}
    (answered : (s.hears env (readRequest slot)).answer = some resp) :
    Inv ((s.hears env (readRequest slot)).adopt slot
      (answeredWord (readRequest slot) resp slot) rest) := by
  obtain ⟨effect, word⟩ := hears_read env inv.empty slot
  have taken : answeredWord (readRequest slot) resp slot = s.reg slot := word resp answered
  have empty := (hears_window env inv.empty (readRequest_valid slot)).1
  obtain ⟨queued, adopted, _⟩ := hears_calls env (readRequest slot) s
  rw [taken]
  clear answered word
  generalize s.hears env (readRequest slot) = t at *
  obtain ⟨coil, reg, acked⟩ := read_fields effect
  exact inv.took serving empty coil reg acked queued adopted

theorem Inv.read_lost {env : Env} {s : System} (inv : Inv s) {slot : Slot} {rest : List Slot}
    (serving : s.cs60 = .serving (slot :: rest))
    (lost : (s.hears env (readRequest slot)).answer = none)
    (sends : slot = .setpoint → (env.tx s.slave.2.handled.length).Sends) :
    Inv { s.hears env (readRequest slot) with cs60 := .serving rest } := by
  have mode : slot ≠ .setpoint := fun same =>
    answered_of_sends env inv.empty (by decide) (read_servable slot) (sends same) lost
  obtain ⟨effect, _⟩ := hears_read env inv.empty slot
  rw [if_neg fun taken => mode taken.1] at effect
  have nodup := inv.nodup
  have raised := inv.raised
  rw [serving] at nodup raised
  refine inv.heard (readRequest_valid slot) (kept_of_uncounted effect) ?_
    (List.nodup_cons.mp nodup).2 fun other member => raised other (List.mem_cons_of_mem _ member)
  rw [serving]
  rfl

theorem Inv.broadcast {env : Env} {s : System} (inv : Inv s) {mode : UInt16} {rest : List Slot}
    (acking : s.cs60 = .acking mode rest) :
    Inv { s.hears env (ackBroadcast mode) with cs60 := .serving rest } := by
  obtain ⟨down, coil, reg, acked⟩ := hears_ack env inv.empty mode
  have empty := (hears_window env inv.empty (ackBroadcast_valid mode)).1
  obtain ⟨queued, adopted, _⟩ := hears_calls env (ackBroadcast mode) s
  generalize s.hears env (ackBroadcast mode) = t at *
  exact inv.acknowledged acking empty ⟨down, coil⟩ reg acked queued adopted

omit [Zephyr] in
theorem Inv.queue_mode {s : System} (inv : Inv s) (mode : UInt16) (free : s.cs60.due = none) :
    Inv (s.queue .mode mode (flexitSlaveQueueMode mode)) := by
  simp only [System.queue, flexitSlaveQueueMode]
  split
  · rename_i refused
    exact inv
  · exact inv.queued .mode rfl rfl rfl fun _ => free

theorem inv_step {env : Env} {s t : System} {a : Act}
    (step : Guarded (Clean env) (Step env) s a t) (inv : Inv s) : Inv t := by
  obtain ⟨clean, step⟩ := step
  cases step with
  | queueMode mode =>
    apply inv.queue_mode
    cases now : s.cs60 with
    | idle => rfl
    | serving slots => rfl
    | acking due rest => exact absurd now (clean due rest)
  | queueSetpoint valueX10 =>
    exact inv.queued .setpoint rfl rfl rfl fun same => by contradiction
  | poll idle answered raised =>
    obtain ⟨same, shows⟩ := hears_poll env inv.empty
    refine inv.heard pollRequest_valid (kept_of_uncounted same) ?_ raised.1 fun slot member => ?_
    · rw [idle]
      rfl
    · rw [← shows _ answered slot]
      exact (raised.2 slot).mp member
  | pollLost idle lost =>
    exact inv.overheard pollRequest_valid (kept_of_uncounted (hears_poll env inv.empty).1)
  | read serving answered => exact inv.read_answered serving answered
  | @readLost slot rest serving lost =>
    refine inv.read_lost serving lost fun same => ?_
    subst same
    exact clean rest serving
  | ack acking => exact inv.broadcast acking
  | finish done =>
    refine inv.kept inv.empty ⟨fun slot => ⟨rfl, rfl⟩, rfl⟩ rfl rfl ?_ List.nodup_nil
      fun slot member => by contradiction
    rw [done]
    rfl
  | other valid foreign => exact inv.overheard valid (hears_other env inv.empty valid foreign)

/-- In a clean run the CS60 takes over queued values, each of them once and in order, and
has the latest one of every slot whose coil is down; the slave knows the mode it last took over. -/
theorem commands_agree (env : Env) (cells : Vector UInt8 accumSize) {acts : List Act} {s : System}
    (run : Labelled.Run (Guarded (Clean env) (Step env)) (boot cells) acts s) :
    (∀ slot, (ofSlot slot s.adopted).Sublist (ofSlot slot s.queued) ∧
      (s.coil slot = false →
        (ofSlot slot s.adopted).getLast? = (ofSlot slot s.queued).getLast?)) ∧
      (s.cs60.due = none →
        s.state.lastAckedMode = (ofSlot .mode s.adopted).getLast?.getD sentinelNone) := by
  have inv := run.invariant Inv inv_step (inv_boot cells)
  exact ⟨fun slot => ⟨(inv.agrees slot).inOrder, (inv.agrees slot).latest⟩, inv.acked⟩

/-! Completion: a calm cycle reads every raised coil. -/

/-- Nothing is queued and the responses to the CS60 are transmitted. -/
def Calm (env : Env) (s : System) : Act → Prop
  | .queueMode _ | .queueSetpoint _ => False
  | .poll | .read => (env.tx s.slave.2.handled.length).Sends
  | _ => True

omit [Zephyr] in
theorem clean_of_calm {env : Env} {s : System} {a : Act} (calm : Calm env s a) : Clean env s a := by
  cases a with
  | queueMode => contradiction
  | read => exact fun _ _ => calm
  | _ => trivial

/-- Every raised coil is still to be read or acknowledged. -/
def Owes (s : System) : Prop := ∀ slot, s.coil slot = true → slot ∈ s.cs60.owed

theorem owes_poll {env : Env} {s : System} (inv : Inv s) {resp : List UInt8} {slots : List Slot}
    (answered : (s.hears env pollRequest).answer = some resp) (raised : Raised resp slots) :
    Owes { s.hears env pollRequest with cs60 := .serving slots } := by
  obtain ⟨same, shows⟩ := hears_poll env inv.empty
  have kept := (kept_of_uncounted same).1
  have shown := shows resp answered
  clear answered shows same
  generalize s.hears env pollRequest = t at *
  intro slot up
  have before : s.coil slot = true := (kept slot).1.symm.trans up
  exact (raised.2 slot).mpr ((shown slot).trans before)

theorem owes_read {env : Env} {s : System} (inv : Inv s) (owes : Owes s) {slot : Slot}
    {rest : List Slot} (serving : s.cs60 = .serving (slot :: rest)) (value : UInt16) :
    Owes ((s.hears env (readRequest slot)).adopt slot value rest) := by
  obtain ⟨effect, _⟩ := hears_read env inv.empty slot
  generalize s.hears env (readRequest slot) = t at *
  intro other up
  have now := ((read_fields effect).1 other).symm.trans up
  rw [Bool.and_eq_true, Bool.not_eq_true', decide_eq_false_iff_not] at now
  have owed := owes other now.1
  rw [serving] at owed
  cases slot with
  | mode => exact owed
  | setpoint =>
    rcases List.mem_cons.mp owed with same | later
    · exact absurd ⟨rfl, same⟩ now.2
    · exact later

theorem owes_ack {env : Env} {s : System} (inv : Inv s) (owes : Owes s) {mode : UInt16}
    {rest : List Slot} (acking : s.cs60 = .acking mode rest) :
    Owes { s.hears env (ackBroadcast mode) with cs60 := .serving rest } := by
  obtain ⟨down, coil, _⟩ := hears_ack env inv.empty mode
  generalize s.hears env (ackBroadcast mode) = t at *
  intro slot up
  cases slot with
  | mode => exact absurd (down.symm.trans up) Bool.false_ne_true
  | setpoint =>
    have owed := owes .setpoint (coil.symm.trans up)
    rw [acking] at owed
    exact (List.mem_cons.mp owed).resolve_left (by simp)

theorem owes_step {env : Env} {past : List Act} {s t : System} {a : Act}
    (step : Guarded (Calm env) (Step env) s a t) (inv : Inv s) (owes : Act.poll ∈ past → Owes s)
    (polled : Act.poll ∈ past ++ [a]) : Owes t := by
  obtain ⟨calm, step⟩ := step
  have before : Act.poll = a ∨ Owes s :=
    (List.mem_append.mp polled).elim (fun old => .inr (owes old))
      fun new => .inl (List.mem_singleton.mp new)
  cases step with
  | queueMode mode => contradiction
  | queueSetpoint valueX10 => contradiction
  | poll idle answered raised => exact owes_poll inv answered raised
  | pollLost idle lost =>
    exact absurd lost (answered_of_sends env inv.empty (by decide) poll_servable calm)
  | @read slot rest resp serving answered =>
    exact owes_read inv (before.resolve_left (by simp)) serving _
  | @readLost slot rest serving lost =>
    exact absurd lost (answered_of_sends env inv.empty (by decide) (read_servable slot) calm)
  | ack acking => exact owes_ack inv (before.resolve_left (by simp)) acking
  | finish done =>
    intro slot up
    have owed := before.resolve_left (by simp) slot up
    rw [done] at owed
    contradiction
  | other valid foreign =>
    intro slot up
    have kept := ((hears_other env inv.empty valid foreign).1 slot).1
    exact before.resolve_left (by simp) slot (kept.symm.trans up)

omit [Zephyr] in
theorem ofCs60_of_calm {env : Env} {s : System} {a : Act} (calm : Calm env s a) : a.OfCs60 := by
  cases a with
  | queueMode => contradiction
  | queueSetpoint => contradiction
  | _ => trivial

theorem unqueued {env : Env} {s t : System} {a : Act} (ofCs60 : a.OfCs60)
    (step : Step env s a t) : t.queued = s.queued := by
  have hears : ∀ frame, (s.hears env frame).queued = s.queued := fun frame =>
    (hears_calls env frame s).1
  cases step with
  | queueMode mode => contradiction
  | queueSetpoint valueX10 => contradiction
  | poll =>
    dsimp only
    exact hears pollRequest
  | pollLost => exact hears pollRequest
  | @read slot =>
    dsimp only [System.adopt]
    exact hears (readRequest slot)
  | @readLost slot =>
    dsimp only
    exact hears (readRequest slot)
  | @ack mode =>
    dsimp only
    exact hears (ackBroadcast mode)
  | finish => rfl
  | @other frame => exact hears frame

theorem queued_run {env : Env} {s t : System} {during : List Act}
    (cycle : Labelled.Run (Guarded (Calm env) (Step env)) s during t) : t.queued = s.queued :=
  cycle.invariant (fun t => t.queued = s.queued)
    (fun step same => (unqueued (ofCs60_of_calm step.1) step.2).trans same) rfl

theorem Inv.delivers {env : Env} {s t : System} {during : List Act} (start : Inv s)
    (cycle : Labelled.Run (Guarded (Calm env) (Step env)) s during t) (polled : Act.poll ∈ during)
    (idle : t.cs60 = .idle) : Inv t ∧ ∀ slot, t.coil slot = false ∧
      (ofSlot slot t.adopted).getLast? = (ofSlot slot s.queued).getLast? := by
  obtain ⟨inv, owes⟩ := cycle.history (fun past t => Inv t ∧ (Act.poll ∈ past → Owes t))
    (fun step held => ⟨inv_step ⟨clean_of_calm step.1, step.2⟩ held.1,
      owes_step step held.1 held.2⟩)
    [] ⟨start, fun none => absurd none List.not_mem_nil⟩
  refine ⟨inv, fun slot => ?_⟩
  have down : t.coil slot = false := by
    apply Bool.eq_false_iff.mpr
    intro up
    have owed := owes polled slot up
    rw [idle] at owed
    contradiction
  refine ⟨down, ?_⟩
  rw [← queued_run cycle]
  exact (inv.agrees slot).latest down

/-- Once a calm cycle that polled is over, no coil is up any more and the CS60 has the latest
value that was queued for every slot. -/
theorem cycle_delivers (env : Env) (cells : Vector UInt8 accumSize) {before during : List Act}
    {s t : System} (reached : Labelled.Run (Guarded (Clean env) (Step env)) (boot cells) before s)
    (cycle : Labelled.Run (Guarded (Calm env) (Step env)) s during t) (polled : Act.poll ∈ during)
    (idle : t.cs60 = .idle) (slot : Slot) : t.coil slot = false ∧
      (ofSlot slot t.adopted).getLast? = (ofSlot slot s.queued).getLast? := by
  have start := reached.invariant Inv inv_step (inv_boot cells)
  exact (start.delivers cycle polled idle).2 slot

/-- The CS60 gets to the end of its list if it is answered. -/
theorem serving_ends {env : Env} (sends : ∀ n, (env.tx n).Sends) (slots : List Slot) {s : System}
    (inv : Inv s) (serving : s.cs60 = .serving slots) :
    ∃ acts t, Labelled.Run (Guarded (Calm env) (Step env)) s acts t ∧ t.cs60 = .idle := by
  induction slots generalizing s with
  | nil => exact ⟨[.finish], _, .next ⟨trivial, .finish serving⟩ (.refl _), rfl⟩
  | cons slot rest ih =>
    obtain ⟨resp, answered⟩ := Option.ne_none_iff_exists'.mp
      (answered_of_sends env inv.empty (by decide) (read_servable slot) (sends _))
    obtain ⟨u, read, adopted⟩ : ∃ u, Guarded (Calm env) (Step env) s .read u ∧
        u.cs60 = if slot = .mode then .acking _ rest else .serving rest :=
      ⟨_, ⟨sends _, .read serving answered⟩, rfl⟩
    have next := inv_step ⟨clean_of_calm read.1, read.2⟩ inv
    cases slot with
    | mode =>
      obtain ⟨v, ack, serving⟩ : ∃ v, Guarded (Calm env) (Step env) u .ack v ∧
          v.cs60 = .serving rest := ⟨_, ⟨trivial, .ack adopted⟩, rfl⟩
      obtain ⟨acts, t, run, idle⟩ := ih (inv_step ⟨clean_of_calm ack.1, ack.2⟩ next) serving
      exact ⟨_, t, .next read (.next ack run), idle⟩
    | setpoint =>
      obtain ⟨acts, t, run, idle⟩ := ih next adopted
      exact ⟨_, t, .next read run, idle⟩

theorem cycle_ends {env : Env} (sends : ∀ n, (env.tx n).Sends) {s : System} (inv : Inv s)
    (idle : s.cs60 = .idle) :
    ∃ acts t, Labelled.Run (Guarded (Calm env) (Step env)) s (.poll :: acts) t ∧
      t.cs60 = .idle := by
  have nodup : ([Slot.mode, .setpoint].filter s.coil).Nodup := List.Nodup.filter _ (by decide)
  have up : ∀ slot, slot ∈ [Slot.mode, .setpoint].filter s.coil ↔ s.coil slot = true := by
    intro slot
    rw [List.mem_filter]
    cases slot <;> simp
  obtain ⟨u, step, serving, _⟩ := poll_serves env inv.empty idle (sends _) nodup up
  have poll : Guarded (Calm env) (Step env) s .poll u := ⟨sends _, step⟩
  obtain ⟨acts, t, run, ended⟩ :=
    serving_ends sends _ (inv_step ⟨clean_of_calm poll.1, poll.2⟩ inv) serving
  exact ⟨acts, t, .next poll run, ended⟩

end

/-- A mode and a setpoint, queued after the start, and a calm cycle behind them. -/
theorem both_delivered : ∃ s acts t, s.queued = [(.mode, 2), (.setpoint, 220)] ∧
    Labelled.Run (Guarded (Clean Commands.calmEnv) (Step Commands.calmEnv))
      (boot (.replicate accumSize 0)) [.queueMode 2, .queueSetpoint 220] s ∧
    Labelled.Run (Guarded (Calm Commands.calmEnv) (Step Commands.calmEnv)) s (.poll :: acts) t ∧
    t.cs60 = .idle := by
  obtain ⟨s, idle, queued, run⟩ : ∃ s, s.cs60 = .idle ∧
      s.queued = [(.mode, 2), (.setpoint, 220)] ∧
      Labelled.Run (Guarded (Clean Commands.calmEnv) (Step Commands.calmEnv))
        (boot (.replicate accumSize 0)) [.queueMode 2, .queueSetpoint 220] s :=
    ⟨_, rfl, rfl, .next ⟨fun _ _ same => by contradiction, .queueMode 2⟩
      (.next ⟨trivial, .queueSetpoint 220⟩ (.refl _))⟩
  have sends : ∀ n, (Commands.calmEnv.tx n).Sends := fun _ => ⟨rfl, rfl, rfl⟩
  obtain ⟨acts, t, cycle, ended⟩ :=
    cycle_ends sends (run.invariant Inv inv_step (inv_boot _)) idle
  exact ⟨s, acts, t, queued, run, cycle, ended⟩

/-- The CS60 polls, reads both slots and acknowledges the mode. -/
theorem commands_agree_both : ∃ acts t, Labelled.Run
    (Guarded (Clean Commands.calmEnv) (Step Commands.calmEnv)) (boot (.replicate accumSize 0))
      (.queueMode 2 :: .queueSetpoint 220 :: .poll :: acts) t ∧
    (ofSlot .mode t.adopted).Sublist [2] ∧ (ofSlot .mode t.adopted).getLast? = some 2 ∧
    (ofSlot .setpoint t.adopted).Sublist [220] ∧
      (ofSlot .setpoint t.adopted).getLast? = some 220 ∧ t.state.lastAckedMode = 2 := by
  obtain ⟨s, acts, t, queued, run, cycle, ended⟩ := both_delivered
  have whole := run.trans (cycle.imp fun step => ⟨clean_of_calm step.1, step.2⟩)
  obtain ⟨agree, acked⟩ := commands_agree _ _ whole
  have down := fun slot => (run.invariant Inv inv_step (inv_boot _)).delivers cycle
    List.mem_cons_self ended |>.2 slot |>.1
  rw [(queued_run cycle).trans queued] at agree
  have mode := (agree .mode).2 (down .mode)
  refine ⟨acts, t, whole, (agree .mode).1, mode, (agree .setpoint).1,
    (agree .setpoint).2 (down .setpoint), ?_⟩
  rw [acked (by rw [ended]; rfl), mode]
  rfl

theorem cycle_delivers_both : ∃ t : System, (∀ slot, t.coil slot = false) ∧
    (ofSlot .mode t.adopted).getLast? = some 2 ∧
      (ofSlot .setpoint t.adopted).getLast? = some 220 := by
  obtain ⟨s, acts, t, queued, run, cycle, ended⟩ := both_delivered
  have delivered := cycle_delivers _ _ run cycle List.mem_cons_self ended
  refine ⟨t, fun slot => (delivered slot).1, ?_, ?_⟩
  · rw [(delivered .mode).2, queued]
    rfl
  · rw [(delivered .setpoint).2, queued]
    rfl

end FlexitCs60.Slave.Cycle
