import FlexitCs60.Capture.Burst
import FlexitCs60.Capture.Split
import FlexitCs60.Slave.Cycle

/-! Which captures of bus traffic are decoded. A valid frame leaves the check register zero,
and a zero byte behind it keeps it there: the answer to a read of one register and the first
byte of a broadcast behind it pass for a request. -/
namespace FlexitCs60.Capture
open Wire Crc16 Framing

/-- Requests and responses of the four reads, the only frames with two candidate lengths. -/
def Reads (f : List UInt8) : Prop :=
  ∃ fc, f[1]? = some fc ∧ (fc = 0x01 ∨ fc = 0x02 ∨ fc = 0x03 ∨ fc = 0x04)

theorem Framed.residue {f : List UInt8} (framed : Framed f) : reflected 0xA001 0xFFFF f = 0 := by
  have checked := framed.1
  rw [crcOK_iff_residue framed.length_ge, Option.some.injEq, decide_eq_true_eq] at checked
  exact checked

/-- Behind a valid frame the register starts again from zero. -/
theorem Framed.valid_short {f later : List UInt8} (framed : Framed f) (short : f.length ≤ 8) :
    Valid (f ++ later) 0 8 ↔ 8 ≤ (f ++ later).length ∧
      reflected 0xA001 0 (later.take (8 - f.length)) = 0 := by
  rw [Valid, Nat.zero_add, List.drop_zero]
  apply and_congr_right
  intro inside
  have size : ((f ++ later).take 8).length = 8 := by
    rw [List.length_take]
    omega
  rw [crcOK_iff_residue (by omega), Option.some.injEq, decide_eq_true_eq, List.take_append,
    List.take_of_length_le short, reflected_append, framed.residue]

theorem Framed.reads {f : List UInt8} (framed : Framed f) (seven : f.length = 7) : Reads f := by
  obtain ⟨lengths, found, own⟩ := framed.2
  obtain ⟨fc, code, ⟨reads, _⟩ | ⟨_, eight⟩ | ⟨_, bc, _, nine⟩⟩ := candidate_cases found own
  · exact ⟨fc, code, reads⟩
  · omega
  · omega

/-- Eight is tried before the length of a read that has another, and nothing else is tried
before the length of its frame. -/
theorem early_lengths {f : List UInt8} (framed : Framed f) {lengths : List Nat}
    (found : candidateLengths f 0 = some lengths) :
    lengths.takeWhile (· ≠ f.length) = [] ∧ (Reads f → f.length = 8) ∨
      lengths.takeWhile (· ≠ f.length) = [8] ∧ Reads f ∧ f.length ≠ 8 := by
  obtain ⟨lengths', found', own⟩ := framed.2
  obtain rfl := Option.some.inj (found.symm.trans found')
  have room := framed.length_ge
  obtain ⟨fc, code, ⟨known, _⟩ | ⟨single, eight⟩ | ⟨multiple, bc, size, nine⟩⟩ :=
    candidate_cases found own
  · obtain ⟨bc, size⟩ : ∃ bc, f[0 + 2]? = some bc :=
      ⟨_, List.getElem?_eq_getElem (show 0 + 2 < f.length by omega)⟩
    obtain rfl := Option.some.inj (found.symm.trans (candidateLengths_read code known size))
    by_cases eight : f.length = 8
    · exact .inl ⟨List.takeWhile_cons_of_neg (by simp [eight]), fun _ => eight⟩
    · have five : f.length = bc.toNat + 5 := (List.mem_pair.mp own).resolve_left eight
      refine .inr ⟨?_, ⟨fc, code, known⟩, eight⟩
      rw [List.takeWhile_cons_of_pos (by simpa using Ne.symm eight),
        List.takeWhile_cons_of_neg (by simp [five])]
  · obtain rfl := Option.some.inj (found.symm.trans (candidateLengths_single code single))
    exact .inl ⟨List.takeWhile_cons_of_neg (by simp [eight]), fun _ => eight⟩
  · obtain rfl := Option.some.inj (found.symm.trans (candidateLengths_multiple code multiple size))
    refine .inl ⟨List.takeWhile_cons_of_neg (by simp [nine]), ?_⟩
    rintro ⟨fc', code', known⟩
    obtain rfl := Option.some.inj (code'.symm.trans code)
    rcases multiple with rfl | rfl <;> simp at known

/-- A frame is settled unless it is a read that passes for a request. -/
theorem settled_iff {f : List UInt8} (framed : Framed f) (later : List UInt8) :
    Settled f later ↔ (Reads f → f.length ≠ 8 → ¬ Valid (f ++ later) 0 8) := by
  obtain ⟨lengths, found, _⟩ := framed.2
  constructor
  · intro settled reads other
    rcases early_lengths framed found with ⟨_, eight⟩ | ⟨early, _⟩
    · exact absurd (eight reads) other
    · exact settled lengths found 8 (early ▸ List.mem_singleton_self 8)
  · intro clear lengths' found' len before
    obtain rfl := Option.some.inj (found.symm.trans found')
    rcases early_lengths framed found with ⟨none, _⟩ | ⟨early, reads, other⟩
    · rw [none] at before
      contradiction
    · rw [early, List.mem_singleton] at before
      rw [before]
      exact clear reads other

/-- The answer to a read of one register is mistaken exactly if a zero byte follows. -/
theorem settled_answer {f : List UInt8} (framed : Framed f) (seven : f.length = 7)
    (later : List UInt8) : Settled f later ↔ later.head? ≠ some 0x00 := by
  rw [settled_iff framed]
  have short : f.length ≤ 8 := by omega
  have passes : Valid (f ++ later) 0 8 ↔ later.head? = some 0x00 := by
    rw [framed.valid_short short, List.length_append, seven]
    cases later with
    | nil => simp
    | cons byte rest =>
      rw [List.take_succ_cons, List.take_zero, reflected_single (by decide), List.head?_cons,
        Option.some.injEq, List.length_cons]
      exact and_iff_right (by omega)
  refine (Iff.trans ?_ (not_congr passes))
  exact ⟨fun clear => clear (framed.reads seven) (by omega), fun clear _ _ => clear⟩

/-- Longer responses are mistaken for what they open with. -/
theorem settled_long {f : List UInt8} (framed : Framed f) (long : 8 < f.length)
    (later : List UInt8) : Settled f later ↔ (Reads f → crcOK (f.take 8) ≠ some true) := by
  rw [settled_iff framed]
  have inside : 0 + 8 ≤ (f ++ later).length := by
    rw [List.length_append]
    omega
  have passes : Valid (f ++ later) 0 8 ↔ crcOK (f.take 8) = some true := by
    rw [Valid, List.drop_zero, List.take_append_of_le_length (Nat.le_of_lt long)]
    exact and_iff_right inside
  rw [passes]
  exact ⟨fun clear reads => clear reads (by omega), fun clear reads _ => clear reads⟩

/-- The frames of the bus: reads are requests, answers of one register, or responses that do
not open like a request. -/
def Plain (f : List UInt8) : Prop :=
  Reads f → f.length = 7 ∨ f.length = 8 ∨ 8 < f.length ∧ crcOK (f.take 8) ≠ some true

theorem settled_plain {f : List UInt8} (framed : Framed f) (plain : Plain f) (later : List UInt8) :
    Settled f later ↔ (f.length = 7 → later.head? ≠ some 0x00) := by
  by_cases seven : f.length = 7
  · rw [settled_answer framed seven]
    exact ⟨fun clear _ => clear, fun clear => clear seven⟩
  · refine iff_of_true ?_ fun same => absurd same seven
    rw [settled_iff framed]
    intro reads other
    rcases plain reads with same | same | ⟨long, refused⟩
    · exact absurd same seven
    · exact absurd same other
    · exact (settled_iff framed later).mp ((settled_long framed long later).mpr fun _ => refused)
        reads other

theorem unambiguous_append (tail : List UInt8) (before after : List (List UInt8)) :
    Unambiguous tail (before ++ after) ↔
      Unambiguous (after.flatten ++ tail) before ∧ Unambiguous tail after := by
  induction before with
  | nil => exact (and_iff_right trivial).symm
  | cons f rest ih =>
    rw [List.cons_append, Unambiguous, Unambiguous, ih, List.flatten_append, List.append_assoc,
      and_assoc]

theorem unambiguous_iff {fs : List (List UInt8)} (framed : ∀ f ∈ fs, Framed f)
    (plain : ∀ f ∈ fs, Plain f) (tail : List UInt8) : Unambiguous tail fs ↔
      ∀ before f after, fs = before ++ f :: after → f.length = 7 →
        (after.flatten ++ tail).head? ≠ some 0x00 := by
  induction fs with
  | nil => exact iff_of_true trivial fun before f after shape => by simp at shape
  | cons first rest ih =>
    obtain ⟨here, there⟩ := List.forall_mem_cons.mp framed
    obtain ⟨now, others⟩ := List.forall_mem_cons.mp plain
    rw [Unambiguous, settled_plain here now, ih there others]
    constructor
    · rintro ⟨clear, later⟩ before f after shape seven
      rcases List.cons_eq_append_iff.mp shape with ⟨rfl, same⟩ | ⟨before', rfl, split⟩
      · obtain ⟨rfl, rfl⟩ := List.cons_eq_cons.mp same
        exact clear seven
      · exact later before' f after split seven
    · intro clear
      refine ⟨clear [] first rest rfl, fun before f after shape => ?_⟩
      exact clear (first :: before) f after (by rw [shape]; rfl)

/-- A capture of bus traffic is decoded into its frames if and only if no answer of one
register has a zero byte behind it, and so no broadcast. -/
theorem answers_decoded_iff (window : Int × Int) {fs : List (List UInt8)}
    (framed : ∀ f ∈ fs, Framed f) (plain : ∀ f ∈ fs, Plain f) {tail : List UInt8}
    (short : tail.length ≤ 3) {fuel : Nat} (enough : (fs.flatten ++ tail).length ≤ fuel) :
    (∃ report, scan window (fs.flatten ++ tail) fuel 0 .empty = some report ∧
      report.frames = pieces 0 fs) ↔
      ∀ before f after, fs = before ++ f :: after → f.length = 7 →
        (after.flatten ++ tail).head? ≠ some 0x00 := by
  rw [← unambiguous_iff framed plain]
  constructor
  · rintro ⟨report, scanned, frames⟩
    exact unambiguous_of_frames window framed [] scanned frames
  · intro settled
    obtain ⟨report, read, frames⟩ := readFrames_frames window framed 0 .empty
    exact ⟨report, (scan_frames window short framed settled [] enough .empty).trans read, frames⟩

/-- A panel's answer to the read of its mode, with the acknowledgement behind it. -/
def panelExchange : List (List UInt8) :=
  [[0x02, 0x03, 0x00, 0x00, 0x00, 0x01, 0x84, 0x39], [0x02, 0x03, 0x02, 0x00, 0x03, 0xBC, 0x45],
    [0x00, 0x65, 0x00, 0x00, 0x00, 0x03, 0x0C, 0x12]]

theorem answers_decoded_iff_panel : ¬ ∃ report,
    scan (0, 0) (panelExchange.flatten ++ []) 23 0 .empty = some report ∧
      report.frames = [⟨0, 8⟩, ⟨8, 7⟩, ⟨15, 8⟩] := by
  have request : Framed [0x02, 0x03, 0x00, 0x00, 0x00, 0x01, 0x84, 0x39] :=
    ⟨by decide +kernel, [8, 5], rfl, by decide⟩
  have answer : Framed [0x02, 0x03, 0x02, 0x00, 0x03, 0xBC, 0x45] :=
    ⟨by decide +kernel, [8, 7], rfl, by decide⟩
  have ack : Framed [0x00, 0x65, 0x00, 0x00, 0x00, 0x03, 0x0C, 0x12] :=
    ⟨by decide +kernel, [8], rfl, by decide⟩
  have framed : ∀ f ∈ panelExchange, Framed f := by
    simp [panelExchange, request, answer, ack]
  have plain : ∀ f ∈ panelExchange, Plain f := by
    simp [panelExchange, Plain]
  intro decoded
  have clear := (answers_decoded_iff (0, 0) framed plain (by decide) (by decide)).mp decoded
  exact clear [_] _ [_] rfl rfl rfl

section
open Slave Slave.Cycle Slave.Commands
variable [Zephyr]

theorem crcOK_stampCrc (standard : ∀ data, crc16Ansi data = modbus data) {body : List UInt8}
    (room : 2 ≤ body.length) : crcOK (stampCrc body) = some true := by
  have length : (stampCrc body).length = body.length + 2 := length_stampCrc body
  have checked : crcOk (stampCrc body) (stampCrc body).length = true :=
    (crcOk_iff rfl (by omega)).mpr ⟨body, by omega, rfl⟩
  rw [crcOk_iff_residue standard (by omega)] at checked
  rw [crcOK_iff_residue (by omega), checked]

/-- Between frames the slave's accumulator is empty. -/
theorem empty_run {env : Env} {cells : Vector UInt8 accumSize} {acts : List Act} {s : System}
    (run : Run env (boot cells) acts s) : s.slave.1.len = 0 := by
  have poll : ValidWindow pollRequest := request_valid (by decide) _ _
  have read (slot : Slot) : ValidWindow (readRequest slot) := request_valid (by decide) _ _
  refine run.invariant (fun s => s.slave.1.len = 0) ?_ rfl
  intro s a t step empty
  cases step with
  | queueMode mode => exact empty
  | queueSetpoint valueX10 => exact empty
  | poll idle answered raised =>
    have quiet := (hears_window env empty poll).1
    generalize s.hears env pollRequest = u at quiet
    exact quiet
  | pollLost idle unanswered =>
    have quiet := (hears_window env empty poll).1
    generalize s.hears env pollRequest = u at quiet
    exact quiet
  | @read slot rest resp serving answered =>
    have quiet := (hears_window env empty (read slot)).1
    generalize s.hears env (readRequest slot) = u at quiet
    exact quiet
  | @readLost slot rest serving unanswered =>
    have quiet := (hears_window env empty (read slot)).1
    generalize s.hears env (readRequest slot) = u at quiet
    exact quiet
  | @ack mode rest acking =>
    have quiet := (hears_window env empty (ackBroadcast_valid mode)).1
    generalize s.hears env (ackBroadcast mode) = u at quiet
    exact quiet
  | finish done => exact empty
  | other valid foreign => exact (hears_window env empty valid).1

theorem framed_readRequest (standard : ∀ data, crc16Ansi data = modbus data) (slot : Slot) :
    Framed (readRequest slot) := by
  have code : (readRequest slot)[0 + 1]? = some 0x03 := rfl
  have eight : (readRequest slot).length = 8 := length_stampCrc _
  have size := List.getElem?_eq_getElem (show 0 + 2 < (readRequest slot).length by omega)
  refine ⟨crcOK_stampCrc standard ?_, _, candidateLengths_read code (by decide) size, ?_⟩
  · exact Nat.le_add_left 2 _
  · exact List.mem_cons_self

/-- The slave's answer to the read of a slot. -/
theorem framed_answer (standard : ∀ data, crc16Ansi data = modbus data) {env : Env} {s : System}
    (empty : s.slave.1.len = 0) {slot : Slot} {resp : List UInt8}
    (answered : (s.hears env (readRequest slot)).answer = some resp) :
    Framed resp ∧ resp.length = 7 := by
  have known : (0x03 : UInt8) ∈ [(0x01 : UInt8), 0x03, 0x04] := by decide
  rw [readRequest, hears_answer env empty known] at answered
  have built := (Option.filter_eq_some_iff.mp answered).1
  obtain ⟨bc, payload, rfl, size, length, _, reads⟩ := response_answers known _ _ s.state resp built
  obtain ⟨two, _⟩ := reads.holding rfl
  have code : (stampCrc ([0x01, 0x03, bc] ++ payload))[0 + 1]? = some 0x03 := rfl
  have count : (stampCrc ([0x01, 0x03, bc] ++ payload))[0 + 2]? = some bc := rfl
  refine ⟨⟨crcOK_stampCrc standard (by simp), _, candidateLengths_read code (by decide) count, ?_⟩,
    ?_⟩
  · rw [length]
    exact List.mem_cons_of_mem _ List.mem_cons_self
  · rw [length, ← size, two]
    rfl

/-- In every run of the command cycle, when the slave answers the read of a slot: a capture in
which that answer is followed by a broadcast, as that of a mode by its acknowledgement, is not
decoded into its frames. -/
theorem exchange_hidden (standard : ∀ data, crc16Ansi data = modbus data) {env : Env}
    {cells : Vector UInt8 accumSize} {acts : List Act} {s : System}
    (run : Run env (boot cells) acts s) {slot : Slot} {resp broadcast : List UInt8}
    (answered : (s.hears env (readRequest slot)).answer = some resp) (framed : Framed broadcast)
    (addressed : broadcast.head? = some 0x00) {before after : List (List UInt8)}
    (around : ∀ f ∈ before ++ after, Framed f) (tail : List UInt8) (window : Int × Int)
    (fuel : Nat) {report : Report}
    (scanned : scan window
      ((before ++ [readRequest slot, resp, broadcast] ++ after).flatten ++ tail) fuel 0 .empty =
        some report) :
    report.frames ≠ pieces 0 (before ++ [readRequest slot, resp, broadcast] ++ after) := by
  intro frames
  obtain ⟨answer, seven⟩ := framed_answer standard (empty_run run) answered
  have whole : ∀ f ∈ before ++ [readRequest slot, resp, broadcast] ++ after, Framed f := by
    intro f member
    simp only [List.mem_append, List.mem_cons, List.not_mem_nil, or_false] at member
    rcases member with (earlier | rfl | rfl | rfl) | later
    · exact around f (List.mem_append_left _ earlier)
    · exact framed_readRequest standard slot
    · exact answer
    · exact framed
    · exact around f (List.mem_append_right _ later)
  have settled := unambiguous_of_frames window whole [] scanned frames
  rw [List.append_assoc, unambiguous_append] at settled
  have clear := (settled_answer answer seven _).mp settled.2.2.1
  obtain ⟨rest, rfl⟩ := List.head?_eq_some_iff.mp addressed
  exact clear rfl

end

open Slave Slave.Cycle Slave.Commands

/-- The CS60 polls, reads the mode that was queued and acknowledges it, between two reads of the
setpoint. -/
theorem exchange_hidden_mode : ∃ s t resp,
    Run calmEnv (Cycle.boot (.replicate accumSize 0)) [.queueMode 2, .poll] s ∧
      (s.hears calmEnv (readRequest .mode)).answer = some resp ∧
      answeredWord (readRequest .mode) resp .mode = 2 ∧ Run calmEnv s [.read, .ack] t ∧
      ∀ report, scan (0, 0) (([readRequest .setpoint] ++
          [readRequest .mode, resp, ackBroadcast 2] ++ [readRequest .setpoint]).flatten ++ [])
          39 0 .empty = some report →
        report.frames ≠ pieces 0 ([readRequest .setpoint] ++
          [readRequest .mode, resp, ackBroadcast 2] ++ [readRequest .setpoint]) := by
  let q : System := (Cycle.boot (.replicate accumSize 0)).queue .mode 2 (flexitSlaveQueueMode 2)
  have sends : ∀ n, (calmEnv.tx n).Sends := fun _ => ⟨rfl, rfl, rfl⟩
  have standard : ∀ data, crc16Ansi data = modbus data := fun _ => rfl
  have up : ∀ slot, slot ∈ [Slot.mode] ↔ q.coil slot = true := by
    intro slot
    cases slot <;> decide
  obtain ⟨s, poll, serving, kept⟩ :=
    poll_serves calmEnv (s := q) rfl rfl (sends _) (List.nodup_singleton _) up
  have run : Run calmEnv (Cycle.boot (.replicate accumSize 0)) [.queueMode 2, .poll] s :=
    .next (.queueMode 2) (.next poll (.refl _))
  have empty := empty_run run
  obtain ⟨resp, answer⟩ := Option.ne_none_iff_exists'.mp (answered_of_sends calmEnv empty
    (by decide) (read_servable .mode) (sends _))
  have two : answeredWord (readRequest .mode) resp .mode = 2 := by
    rw [(hears_read calmEnv empty .mode).2 resp answer, kept]
    rfl
  have code : (ackBroadcast 2)[0 + 1]? = some 0x65 := rfl
  have ack : Framed (ackBroadcast 2) :=
    ⟨crcOK_stampCrc standard (by decide), [8], candidateLengths_single code (by decide),
      List.mem_cons_self⟩
  have around : ∀ f ∈ [readRequest .setpoint] ++ [readRequest .setpoint], Framed f := by
    simp [framed_readRequest standard]
  exact ⟨_, _, resp, run, answer, two, .next (.read serving answer) (.next (.ack rfl) (.refl _)),
    fun report scanned =>
      exchange_hidden standard run answer ack rfl around [] (0, 0) 39 scanned⟩

end FlexitCs60.Capture
