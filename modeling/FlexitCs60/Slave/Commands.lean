import FlexitCs60.Slave.Transmit

/-! What becomes of a queued command over whole runs of queue calls and feeds. A
command is lost when its coil goes down before the CS60 has read its value; the
history of a run says when that can have happened. -/
namespace FlexitCs60.Slave.Commands
open Wire Framing

inductive Slot where
  | mode
  | setpoint
  deriving DecidableEq, Repr

/-- The number shared by the slot's coil and register. -/
def Slot.index : Slot → Fin coilCount
  | .mode => cmdModeAddr
  | .setpoint => cmdSetpointAddr

theorem Slot.index_ne {slot other : Slot} (different : slot ≠ other) :
    slot.index.val ≠ other.index.val := by
  cases slot <;> cases other <;> first | contradiction | decide

inductive Event where
  /-- A queue call that was accepted. -/
  | queued (slot : Slot) (value : UInt16)
  | handled (h : Handled)
  deriving DecidableEq

/-- An FC03 request whose window covers the slot's register. -/
def covers (h : Handled) (slot : Slot) : Bool :=
  h.frame.getD 0 0 = slaveAddr ∧ h.frame.getD 1 0 = 0x03 ∧
    (getBe16 (h.frame.drop 2)).toNat ≤ slot.index.val ∧
    slot.index.val < (getBe16 (h.frame.drop 2)).toNat + (getBe16 (h.frame.drop 4)).toNat

/-- An FC65 broadcast for the slot's register. -/
def acknowledges (h : Handled) (slot : Slot) : Bool :=
  h.frame.getD 0 0 = 0x00 ∧ h.frame.getD 1 0 = 0x65 ∧
    (getBe16 (h.frame.drop 2)).toNat = slot.index.val

/-- A response was due and `rs485_uart_send` returned an error for it. -/
def failed (h : Handled) : Bool :=
  match h.reply with
  | some (_, err) => err ≠ 0
  | none => false

/-- The slot's word in a response to the read in `frame`. -/
def answeredWord (frame resp : List UInt8) (slot : Slot) : UInt16 :=
  getBe16 (resp.drop (3 + 2 * (slot.index.val - (getBe16 (frame.drop 2)).toNat)))

/-- A covering read was answered, and the slot's word in the response is `value`. -/
def delivers (h : Handled) (slot : Slot) (value : UInt16) : Bool :=
  covers h slot &&
    match h.reply with
    | some (resp, err) => err = 0 ∧ answeredWord h.frame resp slot = value
    | none => false

/-- The queued value the CS60 has not read yet, after one more event. -/
def unreadStep (slot : Slot) (unread : Option UInt16) : Event → Option UInt16
  | .queued other value => if other = slot then some value else unread
  | .handled h => unread.filter fun value => !delivers h slot value

/-- The event takes the coil of an unread value down: an FC65 for its register,
or a read of the setpoint that is not answered. -/
def Disturbs (slot : Slot) (unread : Option UInt16) : Event → Prop
  | .queued _ _ => False
  | .handled h => unread.isSome = true ∧
      (acknowledges h slot = true ∨ slot = .setpoint ∧ covers h slot = true ∧ failed h = true)

instance (slot : Slot) (unread : Option UInt16) (e : Event) : Decidable (Disturbs slot unread e) := by
  cases e <;> unfold Disturbs <;> infer_instance

/-- No event of the history disturbs the slot. -/
def Undisturbed (slot : Slot) : Option UInt16 → List Event → Prop
  | _, [] => True
  | unread, e :: rest => ¬ Disturbs slot unread e ∧ Undisturbed slot (unreadStep slot unread e) rest

instance decideUndisturbed (slot : Slot) : (unread : Option UInt16) → (history : List Event) →
    Decidable (Undisturbed slot unread history)
  | _, [] => inferInstanceAs (Decidable True)
  | unread, e :: rest =>
    have := decideUndisturbed slot (unreadStep slot unread e) rest
    inferInstanceAs (Decidable (_ ∧ _))

theorem undisturbed_append {slot : Slot} {before after : List Event} {unread : Option UInt16} :
    Undisturbed slot unread (before ++ after) ↔ Undisturbed slot unread before ∧
      Undisturbed slot (before.foldl (unreadStep slot) unread) after := by
  induction before generalizing unread with
  | nil => simp [Undisturbed]
  | cons e rest ih => simp only [List.cons_append, Undisturbed, ih, List.foldl_cons, and_assoc]

/-- If `value` is the latest accepted one on the slot and its coil is down, a
read of the slot's register has been answered with it since. -/
def Kept (slot : Slot) (history : List Event) (s : State) : Prop :=
  ∀ before value after, history = before ++ .queued slot value :: after →
    (∀ other, .queued slot other ∉ after) → s.coils.test slot.index = false →
    ∃ h, .handled h ∈ after ∧ delivers h slot value = true

/-- While a queued value is unread its coil is up and its register holds it. -/
def Tracks (slot : Slot) (unread : Option UInt16) (s : State) : Prop :=
  ∀ value ∈ unread, s.coils.test slot.index = true ∧ s.regs[slot.index] = value

/-- The latest value stays unread until it is delivered. -/
theorem unread_of_latest {slot : Slot} (value : UInt16) (after : List Event)
    (latest : ∀ other, .queued slot other ∉ after)
    (undelivered : ∀ h, .handled h ∈ after → delivers h slot value = false) :
    after.foldl (unreadStep slot) (some value) = some value := by
  induction after with
  | nil => rfl
  | cons e rest ih =>
    have next : unreadStep slot (some value) e = some value := by
      cases e with
      | queued other v =>
        have different : other ≠ slot := by
          rintro rfl
          exact latest v (List.mem_cons_self ..)
        simp [unreadStep, different]
      | handled h => simp [unreadStep, undelivered h (List.mem_cons_self ..)]
    rw [List.foldl_cons, next]
    exact ih (fun other member => latest other (List.mem_cons_of_mem _ member))
      fun h member => undelivered h (List.mem_cons_of_mem _ member)

theorem kept_of_tracks {slot : Slot} {history : List Event} {s : State}
    (tracks : Tracks slot (history.foldl (unreadStep slot) none) s) : Kept slot history s := by
  rintro before value after rfl latest down
  by_contra undelivered
  push Not at undelivered
  have unread := unread_of_latest value after latest
    fun h member => Bool.eq_false_iff.mpr (undelivered h member)
  have raised := (tracks value (by
    rw [List.foldl_append, List.foldl_cons, unreadStep, if_pos rfl, unread]
    rfl)).1
  rw [down] at raised
  contradiction

section
variable [Zephyr]

/-- A read that covers the slot's register is answered with its content. -/
theorem fc03_answeredWord {slot : Slot} {tx : Transmission} {frame resp : List UInt8} {err : Int}
    {s : State} (covered : covers ⟨frame, some (resp, err)⟩ slot = true)
    (answered : (handleFc03Request tx frame s).2 = some (resp, err)) :
    answeredWord frame resp slot = s.regs[slot.index] := by
  obtain ⟨_, _, lower, upper⟩ := of_decide_eq_true covered
  dsimp only at lower upper
  rw [handleFc03Request, respond_reply, Option.map_eq_some_iff] at answered
  obtain ⟨built, response, same⟩ := answered
  cases same
  obtain ⟨payload, rfl, size, _, words⟩ :=
    buildRegsResponse_reads 0x03 8 (by decide) s.regs _ _ _ response
  have word := words (slot.index.val - (getBe16 (frame.drop 2)).toNat) (by omega)
  rw [Nat.add_sub_cancel' lower] at word
  have inside : (payload.drop (2 * (slot.index.val - (getBe16 (frame.drop 2)).toNat))).length ≥ 2 := by
    rw [List.length_drop]
    omega
  have skip : ∀ (a b c : UInt8) (rest : List UInt8), ([a, b, c] ++ rest).drop 3 = rest :=
    fun _ _ _ _ => rfl
  rw [answeredWord, stampCrc, List.append_assoc, ← List.drop_drop, skip,
    List.drop_append_of_le_length (by omega), getBe16_append inside]
  exact (Option.some.inj ((Vector.getElem?_eq_getElem slot.index.isLt).symm.trans word)).symm

/-- Only the FC03 handler answers a covering read. -/
theorem handleFrame_covered {slot : Slot} {tx : Transmission} {uptime : UInt64}
    {frame : List UInt8} {s : State} {reply : Option (List UInt8 × Int)}
    (covered : covers ⟨frame, reply⟩ slot = true) :
    handleFrame tx uptime frame s = handleFc03Request tx frame s := by
  obtain ⟨own, fc03, _⟩ := of_decide_eq_true covered
  dsimp only at own fc03
  have other : ¬ (frame.getD 0 0 = slaveAddr ∧ frame.getD 1 0 = 0x01) := by
    rw [fc03]
    exact fun poll => absurd poll.2 (by decide)
  simp only [handleFrame]
  rw [if_neg other, if_pos ⟨own, fc03⟩]

theorem fc03_delivers {slot : Slot} {tx : Transmission} {frame : List UInt8} {s : State}
    (covered : covers ⟨frame, (handleFc03Request tx frame s).2⟩ slot = true)
    (answered : (handleFc03Request tx frame s).2.isSome = true)
    (sent : failed ⟨frame, (handleFc03Request tx frame s).2⟩ = false) :
    delivers ⟨frame, (handleFc03Request tx frame s).2⟩ slot s.regs[slot.index] = true := by
  obtain ⟨⟨resp, err⟩, reply⟩ := Option.isSome_iff_exists.mp answered
  rw [reply] at covered sent ⊢
  rw [delivers, covered, Bool.true_and]
  simp only [failed, ne_eq, decide_not, Bool.not_eq_false', decide_eq_true_eq] at sent
  exact decide_eq_true ⟨sent, fc03_answeredWord covered reply⟩

/-- One handled frame keeps the invariant of an undisturbed slot. -/
theorem tracks_handleFrame {slot : Slot} {unread : Option UInt16} {tx : Transmission}
    {uptime : UInt64} {frame : List UInt8} {s : State}
    (anchor : anchored (frame.getD 0 0) (frame.getD 1 0) = true) (tracks : Tracks slot unread s)
    (calm : ¬ Disturbs slot unread (.handled ⟨frame, (handleFrame tx uptime frame s).2⟩)) :
    Tracks slot (unreadStep slot unread (.handled ⟨frame, (handleFrame tx uptime frame s).2⟩))
      (handleFrame tx uptime frame s).1 := by
  intro value left
  obtain ⟨member, undelivered⟩ := Option.mem_filter_iff.mp left
  obtain ⟨raised, holds⟩ := tracks value member
  have pending : unread.isSome = true := Option.isSome_of_mem member
  simp only [Disturbs, pending, true_and, not_or, not_and] at calm
  obtain ⟨foreign, answered⟩ := calm
  -- handlers that leave the command data alone
  have unchanged : ∀ s' : State, uncounted s' = uncounted s →
      s'.coils.test slot.index = true ∧ s'.regs[slot.index] = value := by
    intro s' same
    rw [← uncounted_coils s', ← uncounted_regs s', same]
    exact ⟨raised, holds⟩
  unfold handleFrame at undelivered foreign answered ⊢
  dsimp only at undelivered foreign answered ⊢
  split_ifs at undelivered foreign answered ⊢ with fc01 fc03 fc04
  · exact unchanged _ (handleFc01Request_uncounted tx frame s)
  · have effect := handleFc03Request_uncounted tx frame s
    split_ifs at effect with taken
    · refine ⟨?_, ?_⟩
      · rw [← uncounted_coils, effect, Coils.test_lower, raised, Bool.and_true, decide_eq_true_eq]
        intro same
        obtain rfl : slot = .setpoint := by
          cases slot with
          | mode => exact absurd same (by decide)
          | setpoint => rfl
        have covered : covers ⟨frame, (handleFc03Request tx frame s).2⟩ .setpoint = true := by
          obtain ⟨lower, upper, _⟩ := (readsSetpoint_iff _ _ s).mp taken.2
          exact decide_eq_true ⟨fc03.1, fc03.2, lower, upper⟩
        have delivered := fc03_delivers covered taken.1
          (Bool.eq_false_iff.mpr (answered rfl covered))
        rw [holds] at delivered
        rw [delivered] at undelivered
        contradiction
      · exact (congrArg (fun s => s.regs[slot.index]) effect).trans holds
    · exact unchanged _ effect
  · exact unchanged _ (handleFc04Request_uncounted tx frame s)
  · rcases anchored_iff.mp anchor with known | known | known | ack
    · exact absurd known fc01
    · exact absurd known fc03
    · exact absurd known fc04
    · have other : (getBe16 (frame.drop 2)).toNat ≠ slot.index.val := by
        intro same
        exact foreign (decide_eq_true ⟨ack.1, ack.2, same⟩)
      refine ⟨?_, ?_⟩
      · rw [handleFc65Broadcast_test]
        simp [other, raised]
      · rw [handleFc65Broadcast_reg, if_neg other, holds]

/-- A disturbing frame loses the command at once: the value is still unread and
its coil is down. -/
theorem lost_of_disturbs {slot : Slot} {unread : Option UInt16} {tx : Transmission}
    {uptime : UInt64} {frame : List UInt8} {s : State} (tracks : Tracks slot unread s)
    (disturbs : Disturbs slot unread (.handled ⟨frame, (handleFrame tx uptime frame s).2⟩)) :
    unreadStep slot unread (.handled ⟨frame, (handleFrame tx uptime frame s).2⟩) = unread ∧
      (handleFrame tx uptime frame s).1.coils.test slot.index = false := by
  obtain ⟨pending, disturbs⟩ := disturbs
  obtain ⟨value, rfl⟩ := Option.isSome_iff_exists.mp pending
  have raised := (tracks value rfl).1
  rcases disturbs with ack | ⟨rfl, covered, unsent⟩
  · obtain ⟨zero, fc65, same⟩ := of_decide_eq_true ack
    dsimp only at zero fc65 same
    have uncovered : covers ⟨frame, (handleFrame tx uptime frame s).2⟩ slot = false := by
      refine decide_eq_false fun read => ?_
      rw [zero] at read
      exact absurd read.1 (by decide)
    have broadcast : handleFrame tx uptime frame s = (handleFc65Broadcast uptime frame s, none) := by
      have foreign : ∀ fc, ¬ ((0x00 : UInt8) = slaveAddr ∧ frame.getD 1 0 = fc) :=
        fun fc own => absurd own.1 (by decide)
      simp only [handleFrame, zero, if_neg (foreign _)]
    refine ⟨by simp [unreadStep, delivers, uncovered], ?_⟩
    rw [broadcast, handleFc65Broadcast_test]
    simp [same]
  · obtain ⟨_, _, lower, upper⟩ := of_decide_eq_true covered
    dsimp only at lower upper
    rw [handleFrame_covered covered] at unsent covered ⊢
    cases reply : (handleFc03Request tx frame s).2 with
    | none =>
      rw [reply] at unsent
      contradiction
    | some sent =>
      obtain ⟨resp, err⟩ := sent
      rw [reply] at unsent covered
      have nonzero : ¬ err = 0 := of_decide_eq_true unsent
      refine ⟨by simp [unreadStep, delivers, nonzero], ?_⟩
      have effect := handleFc03Request_uncounted tx frame s
      rw [reply, if_pos ⟨rfl, (readsSetpoint_iff _ _ s).mpr ⟨lower, upper, raised⟩⟩] at effect
      rw [← uncounted_coils, effect, Coils.test_lower]
      simp [Slot.index]

inductive Op where
  | queueMode (mode : UInt16)
  | queueSetpoint (valueX10 : UInt16)
  | feed (data : List UInt8)

/-- The slave with the history of its accepted queue calls and handled frames. -/
structure Machine where
  accum : Accumulator UInt8 accumSize
  traced : Traced
  history : List Event

/-- A queue call on a slot, recorded if it is accepted. -/
def queue (slot : Slot) (value : UInt16) (call : State → Int × State) (m : Machine) : Machine :=
  let out := call m.traced.state
  { m with
    traced := { m.traced with state := out.2 }
    history := if out.1 = 0 then m.history ++ [.queued slot value] else m.history }

def step (env : Env) (m : Machine) : Op → Machine
  | .queueMode mode => queue .mode mode (flexitSlaveQueueMode mode) m
  | .queueSetpoint valueX10 => queue .setpoint valueX10 (flexitSlaveQueueSetpoint valueX10) m
  | .feed data =>
    let out := flexitSlaveFeed env (m.accum, m.traced) data
    ⟨out.1, out.2, m.history ++ (out.2.handled.drop m.traced.handled.length).map .handled⟩

def boot (cells : Vector UInt8 accumSize) : Machine := ⟨(booted cells).1, (booted cells).2, []⟩

def run (env : Env) (cells : Vector UInt8 accumSize) (ops : List Op) : Machine :=
  ops.foldl (step env) (boot cells)

/-- The invariant of a history and the state it led to. -/
def Follows (history : List Event) (s : State) : Prop :=
  ∀ slot, Undisturbed slot none history → Tracks slot (history.foldl (unreadStep slot) none) s

omit [Zephyr] in
theorem follows_append {history : List Event} {e : Event} {s s' : State}
    (follows : Follows history s)
    (steps : ∀ slot unread, Tracks slot unread s → ¬ Disturbs slot unread e →
      Tracks slot (unreadStep slot unread e) s') : Follows (history ++ [e]) s' := by
  intro slot calm
  obtain ⟨before, now⟩ := undisturbed_append.mp calm
  rw [List.foldl_append]
  exact steps slot _ (follows slot before) now.1

omit [Zephyr] in
/-- What a queue function does when it accepts: raise the slot's coil and store
the value, leaving the other slot alone. -/
theorem follows_queued {history : List Event} {slot : Slot} {value : UInt16} {s s' : State}
    (follows : Follows history s) (coils : s'.coils = s.coils.raise slot.index)
    (regs : s'.regs = s.regs.set slot.index value) :
    Follows (history ++ [.queued slot value]) s' := by
  refine follows_append follows fun other unread tracks _ v member => ?_
  rw [coils, regs, Coils.test_raise]
  simp only [Fin.getElem_fin, Vector.getElem_set]
  by_cases same : slot = other
  · subst same
    rw [unreadStep, if_pos rfl] at member
    obtain rfl := Option.mem_some.mp member
    simp
  · rw [unreadStep, if_neg same] at member
    obtain ⟨raised, holds⟩ := tracks v member
    rw [if_neg (Slot.index_ne same), raised, Bool.or_true]
    exact ⟨rfl, holds⟩

theorem follows_feed (env : Env) {m : Machine} (follows : Follows m.history m.traced.state)
    (data : List UInt8) :
    Follows (step env m (.feed data)).history (step env m (.feed data)).traced.state := by
  have kept : ∃ new, (flexitSlaveFeed env (m.accum, m.traced) data).2.handled =
      m.traced.handled ++ new ∧ Follows (m.history ++ new.map .handled)
        (flexitSlaveFeed env (m.accum, m.traced) data).2.state := by
    refine Accumulator.feed_induction (P := fun t => ∃ new, t.handled = m.traced.handled ++ new ∧
      Follows (m.history ++ new.map .handled) t.state) ?_ m.accum m.traced data
      ⟨[], by simp, by simpa using follows⟩
    rintro cells len t ⟨new, log, follows⟩
    rcases tryDecodeAtFront_cases env cells len t with same | bumped | ⟨frame, anchor, accepted⟩
    · exact ⟨new, by rw [same, log], by rwa [same]⟩
    · exact ⟨new, by rw [bumped, log], by rwa [bumped]⟩
    · refine ⟨new ++ [⟨frame, (handleFrame (env.tx t.handled.length)
        (env.uptime t.handled.length) frame t.state).2⟩], ?_, ?_⟩
      · rw [accepted, accept, log, List.append_assoc]
      · rw [accepted, List.map_append, ← List.append_assoc]
        exact follows_append follows fun slot unread tracks calm =>
          tracks_handleFrame anchor tracks calm
  obtain ⟨new, log, follows⟩ := kept
  rw [step]
  dsimp only
  rwa [log, List.drop_left]

theorem follows_step (env : Env) {m : Machine} (follows : Follows m.history m.traced.state)
    (op : Op) : Follows (step env m op).history (step env m op).traced.state := by
  cases op with
  | queueMode mode =>
    simp only [step, queue, flexitSlaveQueueMode]
    split
    · exact follows
    · exact follows_queued follows rfl rfl
  | queueSetpoint valueX10 => exact follows_queued follows rfl rfl
  | feed data => exact follows_feed env follows data

theorem follows_run (env : Env) (cells : Vector UInt8 accumSize) (ops : List Op) :
    Follows (run env cells ops).history (run env cells ops).traced.state := by
  have initial : Follows (boot cells).history (boot cells).traced.state :=
    fun _ _ _ member => by contradiction
  have general : ∀ m, Follows m.history m.traced.state →
      Follows (ops.foldl (step env) m).history (ops.foldl (step env) m).traced.state := by
    induction ops with
    | nil => exact fun m follows => follows
    | cons op rest ih => exact fun m follows => ih _ (follows_step env follows op)
  exact general _ initial

theorem history_prefix (env : Env) (cells : Vector UInt8 accumSize) (ops : List Op) (k : Nat) :
    (run env cells (ops.take k)).history <+: (run env cells ops).history := by
  have grows : ∀ (rest : List Op) (m : Machine), m.history <+: (rest.foldl (step env) m).history := by
    intro rest
    induction rest with
    | nil => exact fun m => List.prefix_rfl
    | cons op rest ih =>
      intro m
      refine List.IsPrefix.trans ?_ (ih (step env m op))
      cases op with
      | feed data => exact List.prefix_append _ _
      | queueMode mode =>
        simp only [step, queue]
        split
        · exact List.prefix_append _ _
        · exact List.prefix_rfl
      | queueSetpoint valueX10 => exact List.prefix_append _ _
  have split : run env cells ops = (ops.drop k).foldl (step env) (run env cells (ops.take k)) := by
    rw [run, run, ← List.foldl_append, List.take_append_drop]
  rw [split]
  exact grows _ _

/-- In a run that never disturbs a slot, no state has lost its command. -/
theorem queued_commands_kept (env : Env) (cells : Vector UInt8 accumSize) (ops : List Op)
    (slot : Slot) (calm : Undisturbed slot none (run env cells ops).history) (k : Nat) :
    Kept slot (run env cells (ops.take k)).history
      (run env cells (ops.take k)).traced.state := by
  obtain ⟨later, whole⟩ := history_prefix env cells ops k
  rw [← whole] at calm
  exact kept_of_tracks (follows_run env cells (ops.take k) slot (undisturbed_append.mp calm).1)

/-- A feed that delivers exactly one frame the matcher accepts. -/
def Whole : Op → Prop
  | .feed data => ValidWindow data
  | _ => True

/-- A step on the traced state and the history alone. -/
def deliver (env : Env) (x : Traced × List Event) : Op → Traced × List Event
  | .feed frame => (accept env frame x.1, x.2 ++ [.handled ⟨frame,
      (handleFrame (env.tx x.1.handled.length) (env.uptime x.1.handled.length) frame x.1.state).2⟩])
  | op => let m := step env ⟨(booted (Vector.replicate accumSize 0)).1, x.1, x.2⟩ op
    (m.traced, m.history)

/-- In a run that delivers one whole frame a feed, the accumulator plays no part. -/
theorem run_whole (env : Env) (cells : Vector UInt8 accumSize) {ops : List Op}
    (whole : ∀ op ∈ ops, Whole op) :
    ((run env cells ops).traced, (run env cells ops).history) =
      ops.foldl (deliver env) (⟨flexitSlaveInit, []⟩, []) := by
  have general : ∀ m : Machine, m.accum.len = 0 →
      ((ops.foldl (step env) m).traced, (ops.foldl (step env) m).history) =
        ops.foldl (deliver env) (m.traced, m.history) := by
    induction ops with
    | nil => exact fun _ _ => rfl
    | cons op rest ih =>
      intro m empty
      have first : (step env m op).accum.len = 0 ∧
          ((step env m op).traced, (step env m op).history) =
            deliver env (m.traced, m.history) op := by
        cases op with
        | queueMode mode => exact ⟨empty, rfl⟩
        | queueSetpoint valueX10 => exact ⟨empty, rfl⟩
        | feed frame =>
          obtain ⟨left, traced⟩ := feed_window env empty (whole _ (List.mem_cons_self ..)) m.traced
          refine ⟨left, ?_⟩
          simp only [step, deliver, traced]
          simp [accept]
      rw [List.foldl_cons, List.foldl_cons, ← first.2]
      exact ih (fun op member => whole op (List.mem_cons_of_mem _ member)) _ first.1
  exact general _ rfl

end

def calmEnv : Env := ⟨fun _ => 0, fun _ => .ok⟩

/-- The broadcast with which the CS60 acknowledges a mode. -/
def modeAck (mode : UInt8) : List UInt8 := stampCrc [0x00, 0x65, 0x00, 0x00, 0x00, mode]

theorem modeAck_valid (mode : UInt8) : ValidWindow (modeAck mode) :=
  ⟨_, _, _, _, _, _, _, _, rfl, by decide, rfl⟩

/-- A queued mode that is polled for, read and then acknowledged. -/
def deliveredMode : List Op :=
  [.queueMode 2, .feed (request 0x01 0x0000 0x0010), .feed (request 0x03 0x0000 0x0001),
    .feed (modeAck 2)]

theorem deliveredMode_whole : ∀ op ∈ deliveredMode, Whole op := by
  intro op member
  simp only [deliveredMode, List.mem_cons, List.not_mem_nil, or_false] at member
  rcases member with rfl | rfl | rfl | rfl
  · trivial
  · exact request_valid (by decide) _ _
  · exact request_valid (by decide) _ _
  · exact modeAck_valid 2

theorem deliveredMode_undisturbed : Undisturbed .mode none
    (run calmEnv (Vector.replicate accumSize 0) deliveredMode).history := by
  obtain ⟨_, history⟩ := Prod.ext_iff.mp
    (run_whole calmEnv (Vector.replicate accumSize 0) deliveredMode_whole)
  dsimp only at history
  rw [history]
  decide +kernel

theorem queued_commands_kept_delivered :
    let m := run calmEnv (Vector.replicate accumSize 0) (deliveredMode.take 4)
    Kept .mode m.history m.traced.state :=
  queued_commands_kept calmEnv _ deliveredMode .mode deliveredMode_undisturbed 4

/-- Mode 1 is read, mode 2 is queued, and the acknowledgement of mode 1 takes
the coil of mode 2 down before anyone has read it. -/
def staleAck : List Op :=
  [.queueMode 1, .feed (request 0x03 0x0000 0x0001), .queueMode 2, .feed (modeAck 1)]

theorem staleAck_whole : ∀ op ∈ staleAck, Whole op := by
  intro op member
  simp only [staleAck, List.mem_cons, List.not_mem_nil, or_false] at member
  rcases member with rfl | rfl | rfl | rfl
  · trivial
  · exact request_valid (by decide) _ _
  · trivial
  · exact modeAck_valid 1

theorem ack_cancels_newer_mode :
    let m := run calmEnv (Vector.replicate accumSize 0) staleAck
    ¬ Kept .mode m.history m.traced.state := by
  intro m kept
  have same := run_whole calmEnv (Vector.replicate accumSize 0) staleAck_whole
  obtain ⟨traced, history⟩ := Prod.ext_iff.mp same
  dsimp only at traced history
  simp only [m] at kept
  rw [traced, history] at kept
  obtain ⟨h, member, delivered⟩ := kept
    ((staleAck.foldl (deliver calmEnv) (⟨flexitSlaveInit, []⟩, [])).2.take 2) 2
    [.handled ⟨modeAck 1, none⟩] (by decide +kernel) (by simp) (by decide +kernel)
  simp only [List.mem_cons, Event.handled.injEq, List.not_mem_nil, or_false] at member
  subst member
  exact absurd delivered (by decide +kernel)

end FlexitCs60.Slave.Commands
