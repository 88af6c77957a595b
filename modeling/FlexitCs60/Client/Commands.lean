import FlexitCs60.Ble.Mode
import FlexitCs60.Client.Setpoint
import FlexitCs60.Slave.Agreement
import FlexitCs60.Wire.Fields
import FlexitCs60.Zigbee.Network
import Mathlib.Data.List.DropRight

/-! The commands of `ble-client` that are answered by one line: the reply of the firmware,
what the client prints of the notifications it comes in, and what the CS60 gets. -/
namespace FlexitCs60.Client
open Wire Ble Slave

/-- What the client waits for. -/
inductive Heard where
  | chunk (buf : List UInt8)
  | deadline
  deriving DecidableEq, Repr

inductive Output where
  /-- A line with its newline. -/
  | line (text : List UInt8)
  /-- What had come by the deadline. -/
  | part (text : List UInt8)
  | timeout
  deriving DecidableEq, Repr

/-- `strings.TrimRight(line, "\r\n")` -/
def trimRight (line : List UInt8) : List UInt8 := line.rdropWhile fun b => b = 0x0D ∨ b = 0x0A

/-- The receive loop of `cmdMode`, `cmdSetpoint`, `cmdZbReset` and `cmdUnpair`. -/
def awaitLine (line : List UInt8) : List Heard → Option Output
  | [] => none
  | .chunk buf :: rest =>
    match cutAt 0x0A (line ++ buf) with
    | some cut => some (.line (cut.1 ++ [0x0A]))
    | none => awaitLine (line ++ buf) rest
  | .deadline :: _ => some (if line.length > 0 then .part (trimRight line) else .timeout)

/-- `strconv.Atoi` -/
def atoiGo (s : List UInt8) : Option Int :=
  let unsigned := match s with
    | 0x2B :: rest => rest
    | 0x2D :: rest => rest
    | _ => s
  if unsigned = [] ∨ ¬ unsigned.all isDigit then none
  else
    let n : Int := if s.head? = some 0x2D then -decimal unsigned else decimal unsigned
    if -2 ^ 63 ≤ n ∧ n < 2 ^ 63 then some n else none

/-- `cmdMode` up to the write: the payload, if the argument is accepted. -/
def cmdMode (modeArg : List UInt8) : Option (List UInt8) :=
  match atoiGo modeArg with
  | none => none
  | some mode =>
    if mode < 0 ∨ mode > 3 then none else some (ascii "mode " ++ printDecimal mode.toNat)

open Zigbee.Network (NetState)

/-- The line that `zbstate` is answered with. -/
def zbstateReply : NetState → List UInt8
  | .joining => ascii "zbstate: JOINING (pairing window open)\n"
  | .joined => ascii "zbstate: JOINED\n"
  | .idle => ascii "zbstate: IDLE (not joined)\n"

/-- The text of a reply other than the state line. -/
def replyText (net : NetState) : Effect → Option (List UInt8)
  | .reply text => some text
  | .netState => some (zbstateReply net)
  | _ => none

/-- The replies that are constants; the others are printed into an array. -/
def fixedReplies : List (List UInt8) :=
  [ascii "zbreset: leaving Zigbee network, clearing NVRAM, rebooting\n",
    ascii "clearbond: removing bond, disconnecting (re-pair on next connect)\n"]

/-- The size of the shortest `reply` array. -/
def replySize : Nat := 40

/-! The receive loop. -/

theorem cutAt_absent {sep : UInt8} {text : List UInt8} (absent : sep ∉ text) :
    cutAt sep text = none := by
  induction text with
  | nil => rfl
  | cons b rest ih =>
    obtain ⟨different, later⟩ := List.ne_and_not_mem_of_not_mem_cons absent
    rw [cutAt, if_neg different.symm, ih later]
    rfl

theorem cutAt_present {sep : UInt8} {text before behind : List UInt8} (present : sep ∈ text)
    {later : List UInt8} (whole : text ++ later = before ++ sep :: behind) (absent : sep ∉ before) :
    ∃ rest, cutAt sep text = some (before, rest) := by
  obtain ⟨front, rest, rfl, first⟩ := List.eq_append_cons_of_mem present
  obtain rfl : front = before := by
    have cut := cutAt_append first (rest ++ later)
    rw [← List.cons_append, ← List.append_assoc, whole, cutAt_append absent] at cut
    exact (Prod.ext_iff.mp (Option.some.inj cut)).1.symm
  exact ⟨rest, cutAt_append first rest⟩

/-- However a text with a newline is cut, the client prints its first line. -/
theorem awaitLine_line {line body more : List UInt8} {chunks : List (List UInt8)}
    (whole : line ++ chunks.flatten = body ++ 0x0A :: more) (absent : 0x0A ∉ body)
    (fresh : 0x0A ∉ line) (later : List Heard) :
    awaitLine line (chunks.map .chunk ++ later) = some (.line (body ++ [0x0A])) := by
  induction chunks generalizing line with
  | nil =>
    rw [List.flatten_nil, List.append_nil] at whole
    rw [whole] at fresh
    exact absurd (List.mem_append_right _ List.mem_cons_self) fresh
  | cons buf rest ih =>
    rw [List.flatten_cons, ← List.append_assoc] at whole
    rw [List.map_cons, List.cons_append, awaitLine]
    by_cases newline : 0x0A ∈ line ++ buf
    · obtain ⟨behind, cut⟩ := cutAt_present newline whole absent
      rw [cut]
    · rw [cutAt_absent newline]
      exact ih whole newline

theorem awaitLine_part {line : List UInt8} {chunks : List (List UInt8)}
    (absent : 0x0A ∉ line ++ chunks.flatten) (later : List Heard) :
    awaitLine line (chunks.map .chunk ++ .deadline :: later) =
      some (if (line ++ chunks.flatten).length > 0 then .part (trimRight (line ++ chunks.flatten))
        else .timeout) := by
  induction chunks generalizing line with
  | nil => rw [List.flatten_nil, List.append_nil, List.map_nil, List.nil_append, awaitLine]
  | cons buf rest ih =>
    rw [List.flatten_cons, ← List.append_assoc] at absent ⊢
    have here : 0x0A ∉ line ++ buf := fun member => absent (List.mem_append_left _ member)
    rw [List.map_cons, List.cons_append, awaitLine, cutAt_absent here]
    exact ih absent

/-! The replies. -/

/-- Characters of a line. -/
def inline (text : List UInt8) : Bool := text.all fun b => b ≠ 0x0A ∧ b ≠ 0x0D

theorem inline_iff {text : List UInt8} :
    inline text = true ↔ ∀ b ∈ text, b ≠ 0x0A ∧ b ≠ 0x0D := by
  simp [inline, List.all_eq_true]

/-- One line, and no longer than fits its array. -/
structure Reply (text : List UInt8) : Prop where
  line : ∃ body, text = body ++ [0x0A] ∧ inline body = true
  fits : text.length < replySize ∨ text ∈ fixedReplies

theorem inline_printDecimal (n : Nat) : inline (printDecimal n) = true := by
  apply inline_iff.mpr
  intro b member
  have digit := isDigit_printDecimal n b member
  constructor
  · rintro rfl
    contradiction
  · rintro rfl
    contradiction

theorem inline_append {text more : List UInt8} (first : inline text = true)
    (second : inline more = true) : inline (text ++ more) = true := by
  rw [inline, List.all_append, Bool.and_eq_true]
  exact ⟨first, second⟩

theorem length_printDecimal_le {n width : Nat} (small : n < 10 ^ (width + 1)) :
    (printDecimal n).length ≤ width + 1 := by
  rw [length_printDecimal]
  have digits := Nat.log_lt_of_lt_pow' (Nat.succ_ne_zero width) small
  omega

theorem reply_mode {n : Nat} (small : n < 10 ^ 10) :
    Reply (ascii "mode: queued=" ++ printDecimal n ++ ascii "\n") := by
  have digits : (printDecimal n).length ≤ 9 + 1 := length_printDecimal_le small
  refine ⟨⟨ascii "mode: queued=" ++ printDecimal n, rfl, ?_⟩, .inl ?_⟩
  · exact inline_append rfl (inline_printDecimal n)
  · have word : (ascii "mode: queued=").length = 13 := rfl
    have newline : (ascii "\n").length = 1 := rfl
    rw [List.length_append, List.length_append, word, newline, replySize]
    omega

theorem reply_setpoint {dc : Nat} (small : dc ≤ 300) :
    Reply (ascii "setpoint: queued=" ++ printDecimal (dc / 10) ++ ascii "." ++
      printDecimal (dc % 10) ++ ascii " C\n") := by
  have whole : (printDecimal (dc / 10)).length ≤ 1 + 1 := length_printDecimal_le (by omega)
  have tenths : (printDecimal (dc % 10)).length ≤ 0 + 1 := length_printDecimal_le (by omega)
  refine ⟨⟨ascii "setpoint: queued=" ++ printDecimal (dc / 10) ++ ascii "." ++
    printDecimal (dc % 10) ++ ascii " C", ?_, ?_⟩, .inl ?_⟩
  · rw [List.append_assoc _ (ascii " C")]
    rfl
  · have degrees : inline (ascii "setpoint: queued=" ++ printDecimal (dc / 10)) = true :=
      inline_append rfl (inline_printDecimal _)
    have point : inline (ascii ".") = true := rfl
    have number := inline_append (inline_append degrees point) (inline_printDecimal (dc % 10))
    exact inline_append number rfl
  · have word : (ascii "setpoint: queued=").length = 17 := rfl
    have point : (ascii ".").length = 1 := rfl
    have unit : (ascii " C\n").length = 3 := rfl
    rw [List.length_append, List.length_append, List.length_append, List.length_append, word, point,
      unit, replySize]
    omega

theorem reply_constant {text : List UInt8} (ends : text.getLast? = some 0x0A)
    (inside : inline text.dropLast = true) (fits : text.length < replySize ∨ text ∈ fixedReplies) :
    Reply text :=
  ⟨⟨_, (List.dropLast_append_getLast? _ ends).symm, inside⟩, fits⟩

theorem reply_zbstate (net : NetState) : Reply (zbstateReply net) := by
  cases net <;> exact reply_constant rfl rfl (.inl (by decide))

theorem reply_fixed {text : List UInt8} (fixed : text ∈ fixedReplies) : Reply text := by
  have same := fixed
  simp only [fixedReplies, List.mem_cons, List.not_mem_nil, or_false] at same
  rcases same with rfl | rfl
  · exact reply_constant rfl rfl (.inr fixed)
  · exact reply_constant rfl rfl (.inr fixed)

/-- A payload is answered by one line at most. -/
theorem nusReceived_reply (data : List UInt8) (s : Slave.State) (net : NetState) :
    (nusReceived data s).2.filterMap (replyText net) = [] ∨
      ∃ text, (nusReceived data s).2.filterMap (replyText net) = [text] ∧ Reply text := by
  have mode : ∃ text, (modeCommand data s).2.filterMap (replyText net) = [text] ∧ Reply text := by
    have bad : Reply (ascii "mode: bad arg\n") :=
      reply_constant rfl rfl (.inl (by decide))
    unfold modeCommand
    dsimp only
    split
    · split
      · exact ⟨_, rfl, reply_mode (by rw [atoi]; omega)⟩
      · exact ⟨_, rfl, bad⟩
    · exact ⟨_, rfl, bad⟩
  have setpoint : ∃ text,
      (setpointCommand data s).2.filterMap (replyText net) = [text] ∧ Reply text := by
    unfold setpointCommand
    dsimp only
    split
    · exact ⟨_, rfl, reply_setpoint (clampTenths_bounds _).2⟩
    · exact ⟨_, rfl, reply_constant rfl rfl (.inl (by decide))⟩
  unfold nusReceived
  split
  · exact .inl rfl
  split
  · exact .inl rfl
  split
  · exact .inr ⟨_, rfl, reply_zbstate net⟩
  split
  · exact .inl rfl
  split
  · exact .inr ⟨_, rfl, reply_fixed List.mem_cons_self⟩
  split
  · exact .inr ⟨_, rfl, reply_fixed (List.mem_cons_of_mem _ List.mem_cons_self)⟩
  split
  · exact .inr mode
  split
  · exact .inr setpoint
  · exact .inl rfl

theorem trimRight_inline {text : List UInt8} (inside : inline text = true) :
    trimRight text = text := by
  rw [trimRight, List.rdropWhile_eq_self_iff]
  intro nonempty
  obtain ⟨newline, carriage⟩ := inline_iff.mp inside _ (List.getLast_mem nonempty)
  simp [newline, carriage]

/-- A payload is answered by one line at most, within its array. However the line is cut into
notifications, the client prints all of it, and what had come of it if the rest is late. -/
theorem replies_shown (data : List UInt8) (s : Slave.State) (net : NetState) {text : List UInt8}
    (sent : text ∈ (nusReceived data s).2.filterMap (replyText net)) :
    (nusReceived data s).2.filterMap (replyText net) = [text] ∧
      (text.length < replySize ∨ text ∈ fixedReplies) ∧
      (∀ (chunks : List (List UInt8)) later, chunks.flatten = text →
        awaitLine [] (chunks.map .chunk ++ later) = some (.line text)) ∧
      ∀ (chunks : List (List UInt8)) later, chunks.flatten <+: text → chunks.flatten ≠ text →
        awaitLine [] (chunks.map .chunk ++ .deadline :: later) =
          some (if chunks.flatten = [] then .timeout else .part chunks.flatten) := by
  rcases nusReceived_reply data s net with none | ⟨text', only, reply⟩
  · rw [none] at sent
    contradiction
  · rw [only] at sent
    obtain rfl := List.mem_singleton.mp sent
    obtain ⟨body, shape, inside⟩ := reply.line
    have clean := inline_iff.mp inside
    have absent : 0x0A ∉ body := fun newline => (clean _ newline).1 rfl
    refine ⟨only, reply.fits, fun chunks later whole => ?_, fun chunks later front part => ?_⟩
    · rw [shape]
      have cut : [] ++ chunks.flatten = body ++ 0x0A :: [] := whole.trans shape
      exact awaitLine_line cut absent List.not_mem_nil later
    · have before : chunks.flatten <+: body := by
        rw [shape, List.prefix_concat_iff] at front
        exact front.resolve_left (by rw [shape] at part; exact part)
      have none : 0x0A ∉ chunks.flatten := fun newline => absent (before.subset newline)
      have trimmed : trimRight chunks.flatten = chunks.flatten :=
        trimRight_inline (inline_iff.mpr fun b member => clean b (before.subset member))
      rw [awaitLine_part none, List.nil_append, trimmed]
      by_cases nothing : chunks.flatten = []
      · simp [nothing]
      · rw [if_pos (List.length_pos_iff.mpr nothing), if_neg nothing]

theorem replies_shown_cut :
    awaitLine [] [.chunk (ascii "mode: que"), .chunk (ascii "ued=2\n")] =
      some (.line (ascii "mode: queued=2\n")) := by
  have sent : ascii "mode: queued=2\n" ∈
      (nusReceived (ascii "mode 2") flexitSlaveInit).2.filterMap (replyText .joined) := by
    decide +kernel
  obtain ⟨-, -, whole, -⟩ := replies_shown _ _ _ sent
  exact whole [ascii "mode: que", ascii "ued=2\n"] [] (by decide +kernel)

/-! What a reply says is queued is what the CS60 gets. -/

open Slave.Commands (Slot)
open Slave.Cycle (System)

/-- The reply says that a value is queued for a slot. -/
def Acks (data : List UInt8) (s : Slave.State) (slot : Slot) (value : UInt16) : Prop :=
  match slot with
  | .mode => ∃ n, value = UInt16.ofNat n ∧ (nusReceived data s).2 = [modeReply n]
  | .setpoint => ∃ dc, value = UInt16.ofNat dc ∧ (nusReceived data s).2 = [setpointReply dc]

/-- The number that a reply shows, its point left out. -/
def shownNumber : Effect → Nat
  | .reply text => decimal (text.filter isDigit)
  | _ => 0

theorem filter_printDecimal (n : Nat) : (printDecimal n).filter isDigit = printDecimal n :=
  List.filter_eq_self.mpr (isDigit_printDecimal n)

theorem shownNumber_mode (n : Nat) : shownNumber (modeReply n) = n := by
  have word : (ascii "mode: queued=").filter isDigit = [] := rfl
  have newline : (ascii "\n").filter isDigit = [] := rfl
  change decimal (List.filter isDigit (_ ++ _ ++ _)) = n
  rw [List.filter_append, List.filter_append, word, newline, filter_printDecimal, List.nil_append,
    List.append_nil, decimal_printDecimal]

theorem shownNumber_setpoint (dc : Nat) : shownNumber (setpointReply dc) = dc := by
  have word : (ascii "setpoint: queued=").filter isDigit = [] := rfl
  have point : (ascii ".").filter isDigit = [] := rfl
  have unit : (ascii " C\n").filter isDigit = [] := rfl
  have digit : (printDecimal (dc % 10)).length = 1 := by
    rw [printDecimal_small (Nat.mod_lt _ (by decide))]
    rfl
  have value := positional_append 10 digitValue (printDecimal (dc / 10)) (printDecimal (dc % 10))
  change decimal (List.filter isDigit (_ ++ _ ++ _ ++ _ ++ _)) = dc
  simp only [List.filter_append, word, point, unit, filter_printDecimal, List.nil_append,
    List.append_nil]
  change decimal _ = decimal _ * _ + decimal _ at value
  rw [value, decimal_printDecimal, decimal_printDecimal, digit]
  omega

/-- Replies with one effect come from the two commands that queue. -/
theorem nusReceived_acked {data text : List UInt8} {s : Slave.State}
    (acked : (nusReceived data s).2 = [.reply text]) :
    nusReceived data s = modeCommand data s ∨ nusReceived data s = setpointCommand data s := by
  unfold nusReceived at acked ⊢
  split_ifs at acked ⊢ with stream state zbstate stop zbreset clearbond mode setpoint
  · simp at acked
  · simp at acked
  · simp at acked
  · simp at acked
  · simp at acked
  · simp at acked
  · exact .inl rfl
  · exact .inr rfl

theorem modeCommand_cases (data : List UInt8) (s : Slave.State) :
    modeCommand data s = (s, [badMode]) ∨ ∃ n, ¬ UInt16.ofNat n > 3 ∧
      modeCommand data s = ((flexitSlaveQueueMode (UInt16.ofNat n) s).2, [modeReply n]) := by
  by_cases refuses : Refuses data
  · exact .inl (modeCommand_refuses refuses s)
  · refine .inr ⟨parsedMode data, ?_, modeCommand_queues refuses s⟩
    rw [toNat_le_three]
    exact (not_or.mp refuses).2

theorem setpointCommand_cases (data : List UInt8) (s : Slave.State) :
    setpointCommand data s = (s, [badSetpoint]) ∨ ∃ dc, setpointCommand data s =
      ((flexitSlaveQueueSetpoint (UInt16.ofNat dc) s).2, [setpointReply dc]) := by
  unfold setpointCommand
  dsimp only
  split
  · exact .inr ⟨_, rfl⟩
  · exact .inl rfl

/-- The first letter of a reply. -/
def initial : Effect → Option UInt8
  | .reply text => text.head?
  | _ => none

theorem initial_mode (n : Nat) : initial (modeReply n) = some 0x6D := rfl

theorem initial_setpoint (dc : Nat) : initial (setpointReply dc) = some 0x73 := rfl

/-- A mode that is acknowledged was queued. -/
theorem mode_queued {data : List UInt8} {s : Slave.State} {n : Nat}
    (acked : (nusReceived data s).2 = [modeReply n]) : ¬ UInt16.ofNat n > 3 ∧
      (nusReceived data s).1 = (flexitSlaveQueueMode (UInt16.ofNat n) s).2 := by
  rcases nusReceived_acked acked with same | same
  · rw [same] at acked ⊢
    rcases modeCommand_cases data s with bad | ⟨m, small, queued⟩
    · rw [bad] at acked
      exact absurd (List.cons.inj acked).1.symm (modeReply_ne_bad n)
    · rw [queued] at acked ⊢
      have number := congrArg shownNumber (List.cons.inj acked).1
      rw [shownNumber_mode, shownNumber_mode] at number
      rw [← number]
      exact ⟨small, rfl⟩
  · rw [same] at acked
    rcases setpointCommand_cases data s with bad | ⟨dc, queued⟩
    · rw [bad] at acked
      exact absurd (congrArg initial (List.cons.inj acked).1) (by rw [initial_mode]; decide)
    · rw [queued] at acked
      have letter := congrArg initial (List.cons.inj acked).1
      rw [initial_mode, initial_setpoint] at letter
      contradiction

theorem setpoint_queued {data : List UInt8} {s : Slave.State} {dc : Nat}
    (acked : (nusReceived data s).2 = [setpointReply dc]) :
    (nusReceived data s).1 = (flexitSlaveQueueSetpoint (UInt16.ofNat dc) s).2 := by
  rcases nusReceived_acked acked with same | same
  · rw [same] at acked
    rcases modeCommand_cases data s with bad | ⟨m, _, queued⟩
    · rw [bad] at acked
      exact absurd (congrArg initial (List.cons.inj acked).1) (by rw [initial_setpoint]; decide)
    · rw [queued] at acked
      have letter := congrArg initial (List.cons.inj acked).1
      rw [initial_mode, initial_setpoint] at letter
      contradiction
  · rw [same] at acked ⊢
    rcases setpointCommand_cases data s with bad | ⟨dc', queued⟩
    · rw [bad] at acked
      exact absurd (List.cons.inj acked).1.symm (setpointReply_ne dc)
    · rw [queued] at acked ⊢
      have number := congrArg shownNumber (List.cons.inj acked).1
      rw [shownNumber_setpoint, shownNumber_setpoint] at number
      rw [← number]

/-- What `cmdMode` sends for the four modes is a mode command for each. -/
theorem typed_mode : ∀ mode ≤ 3, startsWith "mode" (ascii "mode " ++ printDecimal mode) = true ∧
    ¬ Refuses (ascii "mode " ++ printDecimal mode) ∧
    parsedMode (ascii "mode " ++ printDecimal mode) = mode := by
  unfold Refuses
  decide +kernel

/-- `cmdMode` sends nothing but modes, and the firmware acknowledges each of them. -/
theorem typed_mode_acked {modeArg payload : List UInt8}
    (accepted : cmdMode modeArg = some payload) :
    ∃ mode : ℕ, mode ≤ 3 ∧ atoiGo modeArg = some (mode : ℤ) ∧
      ∀ s, (nusReceived payload s).2 = [modeReply mode] := by
  rw [cmdMode] at accepted
  cases parsed : atoiGo modeArg with
  | none => simp [parsed] at accepted
  | some n =>
    simp only [parsed] at accepted
    split at accepted
    · contradiction
    · rename_i range
      obtain ⟨mode, rfl⟩ := Int.eq_ofNat_of_zero_le (show 0 ≤ n by omega)
      have small : mode ≤ 3 := by omega
      obtain rfl := Option.some.inj accepted
      refine ⟨mode, small, rfl, fun s => ?_⟩
      rw [Int.toNat_natCast]
      obtain ⟨command, queues, number⟩ := typed_mode mode small
      rw [nusReceived_mode command, modeCommand_queues queues, number]

section
open Slave.Cycle Labelled
variable [Zephyr]

/-- `nus_received` with a payload that is acknowledged, its queue call noted. -/
def receive (data : List UInt8) (slot : Slot) (value : UInt16) (s : System) : System :=
  { s with
    slave := (s.slave.1, { s.slave.2 with state := (nusReceived data s.state).1 })
    queued := s.queued ++ [(slot, value)] }

omit [Zephyr] in
theorem inv_receive {data : List UInt8} {slot : Slot} {value : UInt16} {s : System} (inv : Inv s)
    (acked : Acks data s.state slot value) (free : slot = .mode → s.cs60.due = none) :
    Inv (receive data slot value s) := by
  cases slot with
  | mode =>
    obtain ⟨n, rfl, reply⟩ := acked
    obtain ⟨small, state⟩ := mode_queued reply
    rw [flexitSlaveQueueMode, if_neg small] at state
    rw [receive, state]
    exact inv.queued .mode rfl rfl rfl free
  | setpoint =>
    obtain ⟨dc, rfl, reply⟩ := acked
    rw [receive, setpoint_queued reply]
    exact inv.queued .setpoint rfl rfl rfl free

/-- What a reply says is queued is what the CS60 has after the next calm cycle. -/
theorem acks_come_true (env : Env) (cells : Vector UInt8 accumSize) {data : List UInt8}
    {slot : Slot} {value : UInt16} {before during : List Act} {s t : System}
    (reached : Labelled.Run (Guarded (Clean env) (Step env)) (boot cells) before s)
    (free : slot = .mode → s.cs60.due = none) (acked : Acks data s.state slot value)
    (cycle : Labelled.Run (Guarded (Calm env) (Step env)) (receive data slot value s) during t)
    (polled : Act.poll ∈ during) (idle : t.cs60 = .idle) :
    t.coil slot = false ∧ (ofSlot slot t.adopted).getLast? = some value ∧
      (slot = .mode → t.state.lastAckedMode = value) := by
  have start := inv_receive (reached.invariant Inv inv_step (inv_boot cells)) acked free
  obtain ⟨inv, delivered⟩ := start.delivers cycle polled idle
  obtain ⟨down, adopted⟩ := delivered slot
  have last : (ofSlot slot t.adopted).getLast? = some value := by
    rw [adopted, receive, ofSlot_concat, if_pos rfl, List.getLast?_concat]
  refine ⟨down, last, ?_⟩
  rintro rfl
  rw [inv.acked (by rw [idle]; rfl), last]
  rfl

end

section
open Slave.Cycle

/-- The argument 2, from the shell to the CS60. -/
theorem acks_come_true_typed : ∃ (payload : List UInt8) (t : System),
    cmdMode (ascii "2") = some payload ∧ (ofSlot .mode t.adopted).getLast? = some 2 ∧
      t.state.lastAckedMode = 2 := by
  have accepted : cmdMode (ascii "2") = some (ascii "mode 2") := by decide +kernel
  obtain ⟨mode, _, parsed, reply⟩ := typed_mode_acked accepted
  obtain rfl : mode = 2 := by
    have two : atoiGo (ascii "2") = some 2 := by decide +kernel
    exact Int.ofNat_inj.mp (Option.some.inj (parsed.symm.trans two))
  have acked : Acks (ascii "mode 2") (boot (.replicate accumSize 0)).state .mode 2 :=
    ⟨2, rfl, reply _⟩
  have sends : ∀ n, (Commands.calmEnv.tx n).Sends := fun _ => ⟨rfl, rfl, rfl⟩
  obtain ⟨acts, t, cycle, ended⟩ :=
    cycle_ends sends (inv_receive (inv_boot _) acked fun _ => rfl) rfl
  obtain ⟨-, adopted, shown⟩ := acks_come_true _ _ (.refl _) (fun _ => rfl) acked cycle
    List.mem_cons_self ended
  exact ⟨_, t, accepted, adopted, shown rfl⟩

end
end FlexitCs60.Client
