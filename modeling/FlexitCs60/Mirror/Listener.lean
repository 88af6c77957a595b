import FlexitCs60.Mirror.Selection
import FlexitCs60.System.Timed

/-! The mirror as a thread: a feed copies its bytes and then decodes in turns,
each at its own uptime. What the mirrored state says of the frames accepted so
far is derived from what one turn can do. -/
namespace FlexitCs60.Mirror
open Wire Framing

/-- What `k_uptime_get` returns, in milliseconds. -/
abbrev Uptime := { ms : Nat // ms < 2 ^ 63 }

namespace Uptime

def boot : Uptime := ⟨0, by decide⟩

/-- The cast to `uint64_t`. -/
def word (t : Uptime) : UInt64 := .ofNat t.val

theorem toNat_word (t : Uptime) : t.word.toNat = t.val := by
  exact UInt64.toNat_ofNat_of_lt' (t.property.trans (by decide))

end Uptime

/-- The statics of the file, whether a feed is under way, and the uptimes of the
accepted frames. -/
structure Listener where
  accum : Accumulator UInt8 accumSize
  traced : Traced
  feeding : Bool
  arrivals : List (Uptime × List UInt8)

def listening : Listener := ⟨booted.1, booted.2, false, []⟩

/-- The status blocks among the arrivals, oldest first. -/
def statusBlocks (arrivals : List (Uptime × List UInt8)) : List (Uptime × List UInt8) :=
  arrivals.filter fun a => opensFc10 a.2

/-- The fields a status block overwrites, the others zeroed. -/
def status (s : State) : State :=
  { s with
    counters := initial.counters
    fc10Frames := 0
    fc06Frames := 0
    crcFailures := 0
    lastFc10UptimeMs := 0 }

/-- These fields as one status block leaves them. -/
def blockStatus (frame : List UInt8) : State := status (mirrorFc10 (frame.drop 7) initial)

/-- The mirrored state tells the number of status blocks, and the latest of them. -/
structure Mirrors (arrivals : List (Uptime × List UInt8)) (s : Traced) : Prop where
  logged : s.accepted = arrivals.map Prod.snd
  counted : s.state.fc10Frames = .ofNat (statusBlocks arrivals).length
  stamped : s.state.lastFc10UptimeMs =
    ((statusBlocks arrivals).getLast?.map fun a => a.1.word).getD 0
  shown : status s.state =
    ((statusBlocks arrivals).getLast?.map fun a => blockStatus a.2).getD initial

/-- The mirror after a run of steps: bounded storage, arrivals in the order of
their times, and a state that tells them. -/
structure Faithful (now : Uptime) (l : Listener) : Prop where
  bounded : l.accum.len ≤ accumSize
  ordered : l.arrivals.Pairwise fun a b => a.1 ≤ b.1
  past : ∀ a ∈ l.arrivals, a.1 ≤ now
  mirrors : Mirrors l.arrivals l.traced

theorem faithful_listening (now : Uptime) : Faithful now listening :=
  ⟨Nat.zero_le _, .nil, nofun, rfl, rfl, rfl, rfl⟩

theorem Faithful.later {now t : Uptime} {l : Listener} (ordered : now ≤ t)
    (faithful : Faithful now l) : Faithful t l :=
  { faithful with past := fun a member => (faithful.past a member).trans ordered }

theorem Mirrors.bump {arrivals : List (Uptime × List UInt8)} {s : Traced}
    (mirrors : Mirrors arrivals s) : Mirrors arrivals { s with state := bumpCrcFailure s.state } :=
  ⟨mirrors.logged, mirrors.counted, mirrors.stamped, mirrors.shown⟩

variable [Zephyr]

namespace Listener

/-- The part of `panel_mirror_feed` before its loop. -/
def start (data : List UInt8) (l : Listener) : Listener :=
  if data.length = 0 then l else { l with accum := l.accum.fill data, feeding := true }

/-- One turn of the loop. -/
def turn (t : Uptime) (l : Listener) : Listener :=
  if l.accum.len = 0 then { l with feeding := false }
  else
    let (consumed, traced) :=
      tryDecodeAtFront (fun _ => t.word) l.accum.cells.toList l.accum.len l.traced
    { accum := if consumed = 0 then l.accum else l.accum.consume consumed
      traced := traced
      feeding := consumed ≠ 0
      arrivals := l.arrivals ++ (traced.accepted.drop l.traced.accepted.length).map (t, ·) }

end Listener

inductive FeedAct where
  | feed (data : List UInt8)
  | turn
  deriving DecidableEq, Repr

/-- A feed starts when none is under way, and its turns follow. -/
inductive FeedStep (t : Uptime) (l : Listener) : FeedAct → Listener → Prop where
  | feed (data : List UInt8) : l.feeding = false → FeedStep t l (.feed data) (l.start data)
  | turn : l.feeding = true → FeedStep t l .turn (l.turn t)

/-! What one turn does to the mirrored state and to the record of arrivals. -/

theorem tryDecodeAtFront_cases (clock : Clock) (accum : List UInt8) (accumLen : Nat) (s : Traced) :
    (tryDecodeAtFront clock accum accumLen s).1 ≤ accumLen ∧
      ((tryDecodeAtFront clock accum accumLen s).2 = s ∨
        (tryDecodeAtFront clock accum accumLen s).2 =
          { s with state := bumpCrcFailure s.state } ∨
        ∃ frame, crcOk frame (if opensFc10 frame then fc10Len else fc06Len) = true ∧
          (tryDecodeAtFront clock accum accumLen s).2 = accept clock frame s) := by
  rw [tryDecodeAtFront_eq]
  by_cases short : accumLen < 2
  · rw [if_pos short]
    exact ⟨Nat.zero_le _, .inl rfl⟩
  rw [if_neg short]
  have slip : 1 ≤ accumLen := by omega
  cases fc10 : opensFc10 accum with
  | true =>
    have first : opensFc10 (accum.take fc10Len) = true := by rw [opensFc10_take (by decide), fc10]
    rw [if_pos rfl]
    split
    · exact ⟨Nat.zero_le _, .inl rfl⟩
    split
    · split
      · exact ⟨Nat.zero_le _, .inl rfl⟩
      rw [settle_eq rfl s (tryDecodeFc10_gate _ _ _)]
      split
      · rename_i long valid
        refine ⟨Nat.not_lt.mp long, .inr (.inr ⟨accum.take fc10Len, ?_, ?_⟩)⟩
        · rwa [first]
        · simp only [accept, decodeFrame, first, if_true]
      · exact ⟨slip, .inr (.inl rfl)⟩
    · exact ⟨slip, .inl rfl⟩
  | false =>
    have first : opensFc10 (accum.take fc06Len) = false := by rw [opensFc10_take (by decide), fc10]
    rw [if_neg (by decide)]
    split
    · split
      · exact ⟨Nat.zero_le _, .inl rfl⟩
      rw [settle_eq rfl s (tryDecodeFc06_gate _ _ _)]
      split
      · rename_i long valid
        refine ⟨Nat.not_lt.mp long, .inr (.inr ⟨accum.take fc06Len, ?_, ?_⟩)⟩
        · rwa [first]
        · simp only [accept, decodeFrame, first, Bool.false_eq_true, if_false]
      · exact ⟨slip, .inr (.inl rfl)⟩
    · exact ⟨slip, .inl rfl⟩

/-- What a turn leaves of the mirrored state and the arrivals. -/
theorem turn_cases (t : Uptime) (l : Listener) :
    (l.turn t).traced = l.traced ∧ (l.turn t).arrivals = l.arrivals ∨
      (l.turn t).traced = { l.traced with state := bumpCrcFailure l.traced.state } ∧
        (l.turn t).arrivals = l.arrivals ∨
      ∃ frame, crcOk frame (if opensFc10 frame then fc10Len else fc06Len) = true ∧
        (l.turn t).traced = accept (fun _ => t.word) frame l.traced ∧
        (l.turn t).arrivals = l.arrivals ++ [(t, frame)] := by
  by_cases empty : l.accum.len = 0
  · rw [Listener.turn, if_pos empty]
    exact .inl ⟨rfl, rfl⟩
  rw [Listener.turn, if_neg empty]
  dsimp only
  have cases := (tryDecodeAtFront_cases (fun _ => t.word) l.accum.cells.toList l.accum.len
    l.traced).2
  rcases cases with same | failed | ⟨frame, valid, accepted⟩
  · rw [same, List.drop_length]
    exact .inl ⟨rfl, List.append_nil _⟩
  · rw [failed, List.drop_length]
    exact .inr (.inl ⟨rfl, List.append_nil _⟩)
  · rw [accepted]
    refine .inr (.inr ⟨frame, valid, rfl, ?_⟩)
    rw [accept, List.drop_left]
    rfl

/-- Nothing but a status block moves the status fields and their count. -/
theorem Mirrors.accept {arrivals : List (Uptime × List UInt8)} {s : Traced} (t : Uptime)
    {frame : List UInt8} (valid : crcOk frame (if opensFc10 frame then fc10Len else fc06Len) = true)
    (mirrors : Mirrors arrivals s) :
    Mirrors (arrivals ++ [(t, frame)]) (accept (fun _ => t.word) frame s) := by
  have logged : s.accepted ++ [frame] = (arrivals ++ [(t, frame)]).map Prod.snd := by
    rw [mirrors.logged, List.map_append]
    rfl
  cases fc10 : opensFc10 frame with
  | true =>
    rw [fc10, if_pos rfl] at valid
    have blocks : statusBlocks (arrivals ++ [(t, frame)]) = statusBlocks arrivals ++ [(t, frame)] := by
      rw [statusBlocks, List.filter_append, List.filter_singleton, fc10]
      rfl
    have decoded : (Mirror.accept (fun _ => t.word) frame s).state =
        { mirrorFc10 (frame.drop 7) s.state with lastFc10UptimeMs := t.word } := by
      simp only [Mirror.accept, decodeFrame, fc10, if_true, tryDecodeFc10, valid]
    refine ⟨logged, ?_, ?_, ?_⟩
    · rw [decoded, blocks, List.length_append, List.length_singleton, UInt32.ofNat_add,
        ← mirrors.counted]
      rfl
    · rw [decoded, blocks, List.getLast?_concat]
      rfl
    · rw [decoded, blocks, List.getLast?_concat]
      rfl
  | false =>
    rw [fc10, if_neg (by decide)] at valid
    have blocks : statusBlocks (arrivals ++ [(t, frame)]) = statusBlocks arrivals := by
      rw [statusBlocks, List.filter_append, List.filter_singleton, fc10]
      exact List.append_nil _
    have decoded : ∃ counters, (Mirror.accept (fun _ => t.word) frame s).state =
        { s.state with counters := counters, fc06Frames := s.state.fc06Frames + 1 } := by
      simp only [Mirror.accept, decodeFrame, fc10, Bool.false_eq_true, if_false, tryDecodeFc06,
        valid, if_true]
      exact ⟨_, rfl⟩
    obtain ⟨counters, decoded⟩ := decoded
    refine ⟨logged, ?_, ?_, ?_⟩
    · rw [decoded, blocks]
      exact mirrors.counted
    · rw [decoded, blocks]
      exact mirrors.stamped
    · rw [decoded, blocks]
      exact mirrors.shown

omit [Zephyr] in
theorem Faithful.start {now : Uptime} {l : Listener} (faithful : Faithful now l)
    (data : List UInt8) : Faithful now (l.start data) := by
  unfold Listener.start
  split
  · exact faithful
  · exact { faithful with bounded := Accumulator.fill_bounded faithful.bounded (by decide) data }

/-- A turn takes off the front what it consumed. -/
theorem len_turn (t : Uptime) {l : Listener} (bounded : l.accum.len ≤ accumSize) :
    (l.turn t).accum.len = l.accum.len -
      (tryDecodeAtFront (fun _ => t.word) l.accum.cells.toList l.accum.len l.traced).1 := by
  have inside := (tryDecodeAtFront_cases (fun _ => t.word) l.accum.cells.toList l.accum.len
    l.traced).1
  unfold Listener.turn
  split
  · dsimp only
    omega
  · dsimp only
    split
    · omega
    · exact sizeSub_eq inside (bounded.trans_lt (by decide))

theorem bounded_turn {t : Uptime} {l : Listener} (bounded : l.accum.len ≤ accumSize) :
    (l.turn t).accum.len ≤ accumSize :=
  (len_turn t bounded).trans_le ((Nat.sub_le ..).trans bounded)

theorem Faithful.turn {now t : Uptime} {l : Listener} (ordered : now ≤ t)
    (faithful : Faithful now l) : Faithful t (l.turn t) := by
  have bounded := bounded_turn (t := t) faithful.bounded
  have earlier := faithful.later ordered
  rcases turn_cases t l with ⟨traced, arrivals⟩ | ⟨traced, arrivals⟩ |
    ⟨frame, valid, traced, arrivals⟩
  · refine ⟨bounded, ?_, ?_, ?_⟩ <;> rw [arrivals]
    · exact earlier.ordered
    · exact earlier.past
    · rw [traced]
      exact earlier.mirrors
  · refine ⟨bounded, ?_, ?_, ?_⟩ <;> rw [arrivals]
    · exact earlier.ordered
    · exact earlier.past
    · rw [traced]
      exact earlier.mirrors.bump
  · refine ⟨bounded, ?_, ?_, ?_⟩ <;> rw [arrivals]
    · refine List.pairwise_append.mpr ⟨earlier.ordered, List.pairwise_singleton .., ?_⟩
      intro a member b last
      rw [List.mem_singleton.mp last]
      exact earlier.past a member
    · intro a member
      rcases List.mem_append.mp member with before | last
      · exact earlier.past a before
      · rw [List.mem_singleton.mp last]
    · rw [traced]
      exact earlier.mirrors.accept t valid

theorem Faithful.step {now t : Uptime} {l l' : Listener} {a : FeedAct} (ordered : now ≤ t)
    (step : FeedStep t l a l') (faithful : Faithful now l) : Faithful t l' := by
  cases step with
  | feed data idle => exact (faithful.later ordered).start data
  | turn feeding => exact faithful.turn ordered

theorem arrivals_step {t : Uptime} {l l' : Listener} {a : FeedAct} (step : FeedStep t l a l') :
    l.arrivals <+: l'.arrivals := by
  cases step with
  | feed data idle =>
    unfold Listener.start
    split <;> exact List.prefix_refl _
  | turn feeding =>
    rcases turn_cases t l with ⟨_, arrivals⟩ | ⟨_, arrivals⟩ | ⟨frame, _, _, arrivals⟩
    · exact arrivals ▸ List.prefix_refl _
    · exact arrivals ▸ List.prefix_refl _
    · exact arrivals ▸ List.prefix_append ..

omit [Zephyr] in
/-- The link is up while a status block, accepted after the first millisecond of
uptime, is recent enough. -/
theorem cs60LinkUp_iff {now : Uptime} {l : Listener} (faithful : Faithful now l) (staleMs : UInt32) :
    cs60LinkUp staleMs now.word l.traced.state = true ↔
      ∃ a ∈ statusBlocks l.arrivals, 0 < a.1.val ∧ now.val - a.1.val ≤ staleMs.toNat := by
  have stamped := faithful.mirrors.stamped
  have ordered : (statusBlocks l.arrivals).Pairwise fun a b => a.1 ≤ b.1 :=
    faithful.ordered.filter _
  rw [cs60LinkUp, decide_eq_true_eq]
  rcases List.eq_nil_or_concat (statusBlocks l.arrivals) with none | ⟨before, last, blocks⟩
  · rw [none] at stamped ⊢
    exact iff_of_false (fun up => up.1 stamped) (by simp)
  · rw [List.concat_eq_append] at blocks
    rw [blocks, List.getLast?_concat] at stamped
    have latest : last.1 ≤ now :=
      faithful.past last (List.mem_of_mem_filter (blocks ▸ List.mem_append_right _ (by simp)))
    have nonzero : last.1.word ≠ 0 ↔ 0 < last.1.val := by
      rw [ne_eq, ← UInt64.toNat_inj, last.1.toNat_word]
      exact Nat.pos_iff_ne_zero.symm
    have age : now.word - last.1.word ≤ staleMs.toUInt64 ↔
        now.val - last.1.val ≤ staleMs.toNat := by
      rw [UInt64.le_iff_toNat_le, UInt64.toNat_sub_of_le, now.toNat_word, last.1.toNat_word,
        UInt32.toNat_toUInt64]
      rw [UInt64.le_iff_toNat_le, now.toNat_word, last.1.toNat_word]
      exact latest
    rw [stamped, blocks]
    change last.1.word ≠ 0 ∧ now.word - last.1.word ≤ staleMs.toUInt64 ↔ _
    rw [nonzero, age]
    constructor
    · exact fun recent => ⟨last, by simp, recent⟩
    · rintro ⟨a, member, positive, recent⟩
      rw [blocks] at ordered
      have earlier : a.1.val ≤ last.1.val := by
        rcases List.mem_append.mp member with before | same
        · exact (List.pairwise_append.mp ordered).2.2 a before last (by simp)
        · rw [List.mem_singleton.mp same]
      omega

/-- The turns of one uptime are the loop of `panel_mirror_feed`. -/
theorem turns_run {t : Uptime} (fuel : Nat) {l : Listener} (feeding : l.feeding = true)
    (enough : l.accum.len ≤ fuel) (bounded : l.accum.len ≤ accumSize) :
    ∃ turns l', Timed.Run FeedStep (t, l) (List.replicate turns (t, .turn)) (t, l') ∧
      l'.feeding = false ∧ (l'.accum, l'.traced) =
        Accumulator.drain (tryDecodeAtFront fun _ => t.word) fuel (l.accum, l.traced) := by
  induction fuel generalizing l with
  | zero =>
    have empty : l.accum.len = 0 := Nat.le_zero.mp enough
    refine ⟨1, l.turn t, .next (le_refl t) (.turn feeding) (.refl _), ?_⟩
    rw [Listener.turn, if_pos empty]
    exact ⟨rfl, rfl⟩
  | succ fuel ih =>
    by_cases empty : l.accum.len = 0
    · refine ⟨1, l.turn t, .next (le_refl t) (.turn feeding) (.refl _), ?_⟩
      rw [Listener.turn, if_pos empty, Accumulator.drain, if_pos empty]
      exact ⟨rfl, rfl⟩
    rw [Accumulator.drain, if_neg empty]
    by_cases none : (tryDecodeAtFront (fun _ => t.word) l.accum.cells.toList l.accum.len
        l.traced).1 = 0
    · refine ⟨1, l.turn t, .next (le_refl t) (.turn feeding) (.refl _), ?_⟩
      rw [Listener.turn, if_neg empty]
      simp only [none, if_true, ne_eq, not_true_eq_false, decide_false, and_self]
    · have shorter : (l.turn t).accum.len ≤ fuel := by
        have := len_turn t bounded
        omega
      have going : (l.turn t).feeding = true := by
        rw [Listener.turn, if_neg empty]
        simp only [ne_eq, none, not_false_eq_true, decide_true]
      obtain ⟨turns, l', rest, done, same⟩ := ih going shorter (bounded_turn bounded)
      refine ⟨turns + 1, l', .next (le_refl t) (.turn feeding) rest, done, same.trans ?_⟩
      rw [Listener.turn, if_neg empty]
      simp only [none, if_false]

/-- A feed and its turns at one uptime are a call of `panel_mirror_feed`. -/
theorem feed_run {t : Uptime} {l : Listener} (bounded : l.accum.len ≤ accumSize)
    (idle : l.feeding = false) (data : List UInt8) :
    ∃ turns l', Timed.Run FeedStep (t, l) ((t, .feed data) :: List.replicate turns (t, .turn))
        (t, l') ∧ l'.feeding = false ∧
      (l'.accum, l'.traced) = panelMirrorFeed (fun _ => t.word) (l.accum, l.traced) data := by
  have start := FeedStep.feed (t := t) data idle
  unfold panelMirrorFeed Accumulator.feed
  by_cases empty : data.length = 0
  · rw [Listener.start, if_pos empty] at start
    rw [if_pos empty]
    exact ⟨0, l, .next (le_refl t) start (.refl _), idle, rfl⟩
  · rw [Listener.start, if_neg empty] at start
    rw [if_neg empty]
    obtain ⟨turns, l', rest, done, same⟩ := turns_run (t := t) (l.accum.fill data).len
      (l := { l with accum := l.accum.fill data, feeding := true }) rfl (le_refl _)
      (Accumulator.fill_bounded bounded (by decide) data)
    exact ⟨turns, l', .next (le_refl t) start rest, done, same⟩

/-- A frame at the front arrives with the turn that decodes it. -/
theorem turn_arrives (t : Uptime) {l : Listener} {width : Nat} (bounded : l.accum.len ≤ accumSize)
    (framed : rules.verdict l.accum.contents = .frame width) :
    (l.turn t).arrivals = l.arrivals ++ [(t, l.accum.contents.take width)] := by
  have some : l.accum.len ≠ 0 := by
    intro none
    have inside := rules.within framed
    have progress := rules.positive framed
    rw [Accumulator.length_contents bounded, none] at inside
    omega
  have decoded : (tryDecodeAtFront (fun _ => t.word) l.accum.cells.toList l.accum.len l.traced).2 =
      accept (fun _ => t.word) (l.accum.contents.take width) l.traced := by
    rw [(tryDecodeAtFront_local _).contents bounded]
    exact congrArg Prod.snd (matcher_frame _ l.traced framed)
  rw [Listener.turn, if_neg some]
  dsimp only
  rw [decoded, accept, List.drop_left]
  rfl

/-- A status block fed to a mirror that just booted arrives in the first turn. -/
theorem block_arrives (t : Uptime) {data : List UInt8} (size : data.length = 170) :
    ∃ l, Timed.Run FeedStep (Uptime.boot, listening)
        [(t, .feed (stampCrc (header ++ data))), (t, .turn)] (t, l) ∧
      l.arrivals = [(t, stampCrc (header ++ data))] := by
  have length : (stampCrc (header ++ data)).length = 179 := by
    rw [length_stampCrc, List.length_append, size]
    rfl
  have bounded : (booted.1).len ≤ accumSize := Nat.zero_le _
  obtain ⟨len, contents⟩ := Accumulator.fill_contents bounded (by decide)
    (stampCrc (header ++ data)) (by rw [length]; decide)
  have whole : (booted.1.fill (stampCrc (header ++ data))).contents = stampCrc (header ++ data) := by
    rw [contents, show booted.1.contents = [] from rfl, List.nil_append, length]
    rfl
  have framed : rules.verdict (booted.1.fill (stampCrc (header ++ data))).contents = .frame 179 := by
    rw [whole]
    have valid : ValidFc10 ((stampCrc (header ++ data)).take 179) :=
      ⟨data, size, List.take_of_length_le length.le⟩
    exact verdict_frame_iff.mpr (.inl ⟨rfl, valid⟩)
  have arrived : ∀ l : Listener, l.accum = booted.1.fill (stampCrc (header ++ data)) →
      l.arrivals = [] → (l.turn t).arrivals = [(t, stampCrc (header ++ data))] := by
    intro l accum none
    rw [← accum] at framed whole
    rw [turn_arrives t (accum ▸ Accumulator.fill_bounded bounded (by decide) _) framed, none,
      whole, List.take_of_length_le length.le]
    rfl
  have started : FeedStep t listening (.feed (stampCrc (header ++ data)))
      (listening.start (stampCrc (header ++ data))) := .feed _ rfl
  rw [Listener.start, if_neg (by rw [length]; decide)] at started
  exact ⟨_, .next (Nat.zero_le t.val) started (.next (le_refl t) (.turn rfl) (.refl _)),
    arrived _ rfl rfl⟩

end FlexitCs60.Mirror
