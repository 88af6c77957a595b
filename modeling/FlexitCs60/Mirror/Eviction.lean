import FlexitCs60.Mirror.Writes

/-! Which write the counter table gives up. Its search compares uptimes in
milliseconds, and the frames of one chunk are decoded within the same one, so the
slot given up is the least recently written one only while no lower slot ties. -/
namespace FlexitCs60.Mirror
open Wire Framing

/-- Every slot replaced was the one least recently written. -/
def EvictsOldest (ws : List Write) : Prop :=
  Slots.EvictsOldest Write.addr (fun ws => slots (table ws))
    (fun ws w => chooseSlot (table ws) w.addr) ws

/-- The table held the eight most recently written addresses all along. -/
def AlwaysRecent (ws : List Write) : Prop :=
  Slots.AlwaysRecent Write.addr (fun ws => slots (table ws)) ws

/-- Whenever a slot was replaced, no slot below the least recently written one was
written in the same millisecond. -/
def NeverTied (ws : List Write) : Prop :=
  Slots.NeverTied Write.addr Write.stamp (fun ws => slots (table ws)) ws

/-- The writes among the arrivals. -/
def writesOf (arrivals : List (Uptime × List UInt8)) : List Write :=
  writes (arrivals.map fun a => (a.1.word, a.2))

theorem evictsOldest_iff {ws : List Write}
    (ordered : ws.Pairwise fun v w => v.atMs ≤ w.atMs) : EvictsOldest ws ↔ NeverTied ws :=
  table_fills.evictsOldest_iff (fun _ _ evicts => chooseSlot_least evicts)
    (ordered.imp UInt64.le_iff_toNat_le.mp)

theorem alwaysRecent_iff {ws : List Write}
    (ordered : ws.Pairwise fun v w => v.atMs ≤ w.atMs) : AlwaysRecent ws ↔ NeverTied ws :=
  table_fills.alwaysRecent_iff.trans (evictsOldest_iff ordered)

theorem writesOf_ordered {now : Uptime} {l : Listener} (faithful : Faithful now l) :
    (writesOf l.arrivals).Pairwise fun v w => v.atMs ≤ w.atMs := by
  unfold writesOf writes
  refine List.pairwise_map.mpr (List.Pairwise.filter _ (List.pairwise_map.mpr ?_))
  refine faithful.ordered.imp fun {a b} earlier => ?_
  change a.1.word ≤ b.1.word
  rw [UInt64.le_iff_toNat_le, a.1.toNat_word, b.1.toNat_word]
  exact earlier

section
variable [Zephyr]

/-- A turn records the write it accepts. -/
theorem counters_turn (t : Uptime) {l : Listener}
    (recorded : l.traced.state.counters = table (writesOf l.arrivals)) :
    (l.turn t).traced.state.counters = table (writesOf (l.turn t).arrivals) := by
  rcases turn_cases t l with ⟨traced, arrivals⟩ | ⟨traced, arrivals⟩ |
    ⟨frame, valid, traced, arrivals⟩
  · rw [traced, arrivals, recorded]
  · rw [traced, arrivals, ← recorded]
    rfl
  · rw [traced, arrivals, counters_accept valid recorded, writesOf, List.map_append]
    rfl

theorem recorded_run {events : List (Uptime × FeedAct)} {x : Uptime × Listener}
    (run : Timed.Run FeedStep (Uptime.boot, listening) events x) :
    Faithful x.1 x.2 ∧ x.2.traced.state.counters = table (writesOf x.2.arrivals) := by
  refine run.history (fun _ x => Faithful x.1 x.2 ∧
    x.2.traced.state.counters = table (writesOf x.2.arrivals)) ?_ [] ⟨faithful_listening _, rfl⟩
  intro _ now t l a l' ordered step ⟨faithful, recorded⟩
  refine ⟨faithful.step ordered step, ?_⟩
  cases step with
  | feed data idle =>
    unfold Listener.start
    split <;> exact recorded
  | turn feeding => exact counters_turn t recorded

/-- Over any feeds, decoded turn by turn under uptimes that never decrease. -/
theorem evicts_oldest_iff {events : List (Uptime × FeedAct)} {x : Uptime × Listener}
    (run : Timed.Run FeedStep (Uptime.boot, listening) events x) :
    x.2.traced.state.counters = table (writesOf x.2.arrivals) ∧
      (EvictsOldest (writesOf x.2.arrivals) ↔ NeverTied (writesOf x.2.arrivals)) ∧
      (AlwaysRecent (writesOf x.2.arrivals) ↔ NeverTied (writesOf x.2.arrivals)) := by
  obtain ⟨faithful, recorded⟩ := recorded_run run
  have ordered := writesOf_ordered faithful
  exact ⟨recorded, evictsOldest_iff ordered, alwaysRecent_iff ordered⟩

/-- What arrives in a run arrives no earlier than it began. -/
theorem arrivals_since {t : Uptime} {events : List (Uptime × FeedAct)} {y : Uptime × Listener}
    (run : Timed.Run FeedStep (t, listening) events y) :
    t ≤ y.1 ∧ ∀ a ∈ y.2.arrivals, t ≤ a.1 := by
  refine run.history (fun _ y => t ≤ y.1 ∧ ∀ a ∈ y.2.arrivals, t ≤ a.1) ?_ [] ⟨le_refl t, nofun⟩
  intro _ now later l act l' ordered step ⟨since, arrived⟩
  refine ⟨since.trans ordered, ?_⟩
  cases step with
  | feed data idle =>
    unfold Listener.start
    split <;> exact arrived
  | turn feeding =>
    rcases turn_cases later l with ⟨_, arrivals⟩ | ⟨_, arrivals⟩ | ⟨frame, _, _, arrivals⟩
    · exact arrivals ▸ arrived
    · exact arrivals ▸ arrived
    · rw [arrivals]
      intro a member
      rcases List.mem_append.mp member with before | last
      · exact arrived a before
      · rw [List.mem_singleton.mp last]
        exact since.trans ordered

/-- The frame that carries a write. -/
def Write.frame (w : Write) : List UInt8 :=
  stampCrc ([0x00, 0x06] ++ (putBe16 w.addr ++ putBe16 w.value))

theorem length_frame (w : Write) : w.frame.length = 8 := by
  rw [Write.frame, length_stampCrc]
  rfl

theorem valid_frame (w : Write) : ValidFc06 w.frame := ⟨_, _, _, _, rfl⟩

theorem ofFrame_frame (w : Write) : Write.ofFrame w.atMs w.frame = w := by
  rw [Write.ofFrame, Write.frame, stampCrc]
  generalize putLe16 _ = check
  have fields : ∀ body : List UInt8, (([0x00, 0x06] ++ body) ++ check).drop 2 = body ++ check ∧
      (([0x00, 0x06] ++ body) ++ check).drop 4 = (body ++ check).drop 2 := fun _ => ⟨rfl, rfl⟩
  rw [(fields _).1, (fields _).2, List.append_assoc, getBe16_putBe16,
    List.drop_left' (length_putBe16 _), getBe16_putBe16]

theorem opensFc10_frame (w : Write) : opensFc10 w.frame = false := rfl

/-- A stream of such frames is accepted whole. -/
theorem drain_frames (clock : Clock) (ws : List Write) (s : Traced) :
    (drainAll (matcher clock) (ws.flatMap Write.frame) s).2.accepted =
      s.accepted ++ ws.map Write.frame := by
  induction ws generalizing s with
  | nil => rw [List.flatMap_nil, (matcher_follows clock).drainAll_wait rfl, List.map_nil,
      List.append_nil]
  | cons w ws ih =>
    have front : (w.frame ++ ws.flatMap Write.frame).take 8 = w.frame :=
      List.take_left' (length_frame w)
    have framed : rules.verdict (w.frame ++ ws.flatMap Write.frame) = .frame 8 := by
      change verdict (w.frame ++ ws.flatMap Write.frame) = _
      rw [verdict_frame_iff, front]
      exact .inr ⟨rfl, valid_frame w⟩
    rw [List.flatMap_cons, (matcher_follows clock).drainAll_next (by simp [framed]),
      matcher_frame clock s framed, framed, front, Verdict.width,
      List.drop_left' (length_frame w), ih, List.map_cons, List.append_cons]
    rfl

/-- Writes of one millisecond that fit the accumulator, fed as one chunk. -/
theorem writes_run (t : Uptime) (ws : List Write) (stamps : ∀ w ∈ ws, w.atMs = t.word)
    (fits : 8 * ws.length ≤ accumSize) : ∃ turns l, Timed.Run FeedStep (Uptime.boot, listening)
      ((t, .feed (ws.flatMap Write.frame)) :: List.replicate turns (t, .turn)) (t, l) ∧
      writesOf l.arrivals = ws := by
  obtain ⟨turns, l, run, _, same⟩ := feed_run (t := t) (l := listening) (Nat.zero_le _) rfl
    (ws.flatMap Write.frame)
  have begun : Timed.Run FeedStep (Uptime.boot, listening)
      ((t, .feed (ws.flatMap Write.frame)) :: List.replicate turns (t, .turn)) (t, l) := by
    cases run with
    | next _ first rest => exact .next (Nat.zero_le t.val) first rest
  have faithful := (recorded_run begun).1
  have room : Fits rules accumSize [] [ws.flatMap Write.frame] := by
    refine ⟨?_, trivial⟩
    simp only [List.length_nil, List.length_flatMap, length_frame, List.map_const',
      List.sum_replicate, nsmul_eq_mul, Nat.cast_id]
    omega
  have accepted : l.arrivals.map Prod.snd = ws.map Write.frame := by
    rw [← faithful.mirrors.logged]
    have drained := congrArg Prod.snd (run_fits (fun _ => t.word) room).2
    change (l.accum, l.traced).2.accepted = _
    rw [same]
    change (Mirror.run (fun _ => t.word) [ws.flatMap Write.frame]).2.accepted = _
    rw [drained, List.flatten_singleton, drain_frames]
    rfl
  have arrivals : l.arrivals = ws.map fun w => (t, w.frame) := by
    have alike : l.arrivals = (l.arrivals.map Prod.snd).map (t, ·) := by
      rw [List.map_map]
      refine (List.map_id' l.arrivals).symm.trans (List.map_congr_left fun a member => ?_)
      exact Prod.ext (le_antisymm (faithful.past a member) ((arrivals_since run).2 a member)) rfl
    rw [alike, accepted, List.map_map]
    rfl
  refine ⟨turns, l, begun, ?_⟩
  rw [writesOf, writes, arrivals, List.map_map, List.filter_map, List.map_map,
    List.filter_eq_self.mpr fun w _ => by simp [opensFc10_frame]]
  refine (List.map_congr_left fun w member => ?_).trans (List.map_id' ws)
  change Write.ofFrame t.word w.frame = w
  rw [← stamps w member, ofFrame_frame]

end

/-- One minute of uptime. -/
def minute : Uptime := ⟨60000, by decide⟩

/-- Writes of zero to these addresses in one millisecond. -/
def burst (addrs : List UInt16) : List Write := addrs.map fun addr => ⟨addr, 0, minute.word⟩

/-- Nine addresses in one chunk: the ninth replaces the first, which is in the
lowest slot. -/
theorem evicts_oldest_iff_nine : ∃ turns l,
    Timed.Run FeedStep (Uptime.boot, listening)
      ((minute, .feed ((burst [1, 2, 3, 4, 5, 6, 7, 8, 9]).flatMap Write.frame)) ::
        List.replicate turns (minute, .turn)) (minute, l) ∧
    writesOf l.arrivals = burst [1, 2, 3, 4, 5, 6, 7, 8, 9] ∧
    EvictsOldest (writesOf l.arrivals) ∧ AlwaysRecent (writesOf l.arrivals) := by
  obtain ⟨turns, l, run, same⟩ := writes_run minute
    (burst [1, 2, 3, 4, 5, 6, 7, 8, 9]) (by decide) (by decide)
  obtain ⟨_, oldest, recent⟩ := evicts_oldest_iff run
  suffices untied : NeverTied (writesOf l.arrivals) from
    ⟨turns, l, run, same, oldest.mpr untied, recent.mpr untied⟩
  rw [same]
  intro before w inside evicts i isOldest
  have holds := table_fills.holds before
  have long := inside.length_le
  have full := holds.full evicts.2
  have few : (Recency.recentKeys Write.addr before).length ≤ before.length := by
    rw [Recency.length_recentKeys]
    exact (List.toFinset_card_le _).trans_eq (List.length_map _)
  rw [List.length_append] at long
  have all : before.length = 8 := Nat.le_antisymm (Nat.le_of_succ_le_succ long) (full.trans few)
  obtain rfl : before = burst [1, 2, 3, 4, 5, 6, 7, 8] := by
    rw [List.prefix_iff_eq_take.mp ((List.prefix_append ..).trans inside), all]
    rfl
  -- only the lowest slot can be the least recently written one
  obtain rfl : i = 0 := by
    by_contra apart
    obtain ⟨b, there⟩ := Option.ne_none_iff_exists'.mp (evicts.2 i)
    have first : slots (table (burst [1, 2, 3, 4, 5, 6, 7, 8])) 0 = some ⟨1, 0, minute.word⟩ := by
      decide +kernel
    have older := isOldest b there 0 _ (Ne.symm apart) first
    have position : (Recency.recentKeys Write.addr
        (burst [1, 2, 3, 4, 5, 6, 7, 8])).idxOf 1 = 7 := by decide +kernel
    have length : (Recency.recentKeys Write.addr
        (burst [1, 2, 3, 4, 5, 6, 7, 8])).length = 8 := by decide +kernel
    have known := List.idxOf_lt_length_iff.mpr (holds.mem_recentKeys there)
    rw [Recency.older_iff, position] at older
    rw [length] at known
    omega
  exact fun _ _ j lower => absurd lower (Fin.not_lt_zero j)

/-- Eight addresses, the first again and a ninth, in one chunk of 80 bytes: the
ninth replaces the first, and the second stays. -/
theorem tied_slot_replaced : ∃ turns l,
    Timed.Run FeedStep (Uptime.boot, listening)
      ((minute, .feed ((burst [1, 2, 3, 4, 5, 6, 7, 8, 1, 9]).flatMap Write.frame)) ::
        List.replicate turns (minute, .turn)) (minute, l) ∧
    writesOf l.arrivals = burst [1, 2, 3, 4, 5, 6, 7, 8, 1, 9] ∧
    ¬ EvictsOldest (writesOf l.arrivals) ∧ ¬ AlwaysRecent (writesOf l.arrivals) := by
  obtain ⟨turns, l, run, same⟩ := writes_run minute
    (burst [1, 2, 3, 4, 5, 6, 7, 8, 1, 9]) (by decide) (by decide)
  have tied : ¬ EvictsOldest (writesOf l.arrivals) := by
    rw [same]
    intro oldest
    have replaced := oldest (burst [1, 2, 3, 4, 5, 6, 7, 8, 1]) ⟨9, 0, minute.word⟩
      (List.prefix_refl _) ⟨absent_iff.mpr (by decide +kernel), by decide +kernel⟩
    have older := replaced ⟨1, 0, minute.word⟩ (by decide +kernel) 1 ⟨2, 0, minute.word⟩
      (by decide +kernel) (by decide +kernel)
    rw [Recency.older_iff] at older
    exact absurd older (by decide +kernel)
  exact ⟨turns, l, run, same, tied, fun recent => tied (table_fills.alwaysRecent_iff.mp recent)⟩

end FlexitCs60.Mirror
