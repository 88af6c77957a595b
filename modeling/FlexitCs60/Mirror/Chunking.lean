import FlexitCs60.Mirror.Counters
import FlexitCs60.Mirror.Selection
import Mathlib.Tactic.IntervalCases

/-! When the chunk boundaries of `panel_mirror_feed` are invisible. The drain
worker delivers chunks of up to 128 bytes to a 256-byte accumulator in which up
to 178 bytes can be left, so two thirds of a status block can be too much. -/
namespace FlexitCs60.Mirror
open Wire Framing

/-- The mirrored state without its uptime stamps. -/
def unstamped (s : State) : State :=
  { s with
    counters := s.counters.map fun c => { c with atMs := 0 }
    lastFc10UptimeMs := 0 }

/-- The mirrored state without its stamps and without the counter table. -/
def tableless (s : State) : State :=
  { s with
    counters := initial.counters
    lastFc10UptimeMs := 0 }

/-- Accepted frames, status fields and frame counts. -/
def observed (s : Traced) : List (List UInt8) × State := (s.accepted, tableless s.state)

/-- Accepted frames and the whole mirrored state, stamps ignored. -/
def mirrored (s : Traced) : List (List UInt8) × State := (s.accepted, unstamped s.state)

theorem unstamped_aligned {clock clock' : Clock} {s t : State} (same : tableless s = tableless t)
    (aligned : Aligned clock clock' s.counters t.counters) : unstamped s = unstamped t := by
  have tables : (s.counters.map fun c => { c with atMs := 0 }) =
      t.counters.map fun c => { c with atMs := 0 } := by
    apply Vector.ext
    intro i inside
    obtain ⟨addr, value, used, _⟩ := aligned i inside
    simp only [Vector.getElem_map, addr, value, used]
  have rebuilt : ∀ s : State, unstamped s =
      { tableless s with counters := s.counters.map fun c => { c with atMs := 0 } } := fun _ => rfl
  rw [rebuilt, rebuilt, same, tables]

section
variable [Zephyr]

/-- A decoder reads neither the counter table nor a stamp for what it does to
the other fields. -/
theorem tableless_decodeFrame (uptime : UInt64) (frame : List UInt8) (s : State) :
    tableless (decodeFrame uptime frame s) = tableless (decodeFrame 0 frame (tableless s)) := by
  unfold decodeFrame tryDecodeFc10 tryDecodeFc06
  cases opensFc10 frame
  · cases crcOk frame fc06Len <;> rfl
  · cases crcOk frame fc10Len <;> rfl

theorem decodeFrame_aligned {clock clock' : Clock} (ordered : SameOrder clock clock') {s t : State}
    (aligned : Aligned clock clock' s.counters t.counters) (k : Nat) (frame : List UInt8) :
    Aligned clock clock' (decodeFrame (clock k) frame s).counters
      (decodeFrame (clock' k) frame t).counters := by
  unfold decodeFrame tryDecodeFc10 tryDecodeFc06
  cases opensFc10 frame
  · cases crcOk frame fc06Len
    · exact aligned
    · simp only [Bool.false_eq_true, if_false, if_true, chooseSlot_aligned ordered aligned]
      exact aligned.set _ _ _ k
  · cases crcOk frame fc10Len <;> exact aligned

theorem matcher_observed (clock clock' : Clock) (buffer : List UInt8) {s t : Traced}
    (same : observed s = observed t) :
    observed (matcher clock buffer s).2 = observed (matcher clock' buffer t).2 := by
  obtain ⟨log, state⟩ := Prod.ext_iff.mp same
  dsimp only [observed] at log state
  rw [matcher_eq, matcher_eq]
  cases verdict buffer with
  | wait => exact same
  | slip =>
    simp only [slipOver]
    split
    · have bumped : ∀ s : State, tableless (bumpCrcFailure s) = bumpCrcFailure (tableless s) :=
        fun _ => rfl
      simp only [observed, log, bumped, state]
    · exact same
  | frame width =>
    simp only [observed, accept]
    rw [tableless_decodeFrame, state, ← tableless_decodeFrame, log]

/-- Same log, same fields, and tables that differ in their stamps only. -/
def InStep (clock clock' : Clock) (s t : Traced) : Prop :=
  observed s = observed t ∧ Aligned clock clock' s.state.counters t.state.counters

theorem matcher_inStep {clock clock' : Clock} (ordered : SameOrder clock clock')
    (buffer : List UInt8) {s t : Traced} (inStep : InStep clock clock' s t) :
    InStep clock clock' (matcher clock buffer s).2 (matcher clock' buffer t).2 := by
  obtain ⟨same, aligned⟩ := inStep
  refine ⟨matcher_observed clock clock' buffer same, ?_⟩
  rw [matcher_eq, matcher_eq]
  cases verdict buffer with
  | wait => exact aligned
  | slip =>
    simp only [slipOver]
    split <;> exact aligned
  | frame width =>
    have log : s.accepted = t.accepted := congrArg Prod.fst same
    simp only [accept, log]
    exact decodeFrame_aligned ordered aligned _ _

/-- Every chunk fits behind the bytes that can be left over before it. -/
def ChunksFit (lens : List Nat) : Prop := Roomy 178 accumSize 0 lens

instance (lens : List Nat) : Decidable (ChunksFit lens) :=
  inferInstanceAs (Decidable (Roomy 178 accumSize 0 lens))

/-- Every stream cut into chunks of these lengths is mirrored as it is when it
is fed byte by byte. The two runs read what clock they like; only the choice of
the counter slot to reuse needs them to order the frames alike. -/
def ChunkIndependent (lens : List Nat) : Prop :=
  ∀ chunks : List (List UInt8), chunks.map List.length = lens → ∀ clock clock',
    let cut := (run clock chunks).2
    let bytewise := (run clock' (chunks.flatten.map fun byte => [byte])).2
    observed cut = observed bytewise ∧
      (SameOrder clock clock' → mirrored cut = mirrored bytewise)

/-- A status block full of `FF` bytes. -/
def probeFrame : List UInt8 := stampCrc (header ++ List.replicate 170 0xFF)

theorem length_probeFrame : probeFrame.length = 179 := by
  rw [probeFrame, length_stampCrc, List.length_append, List.length_replicate]
  rfl

/-- A proper prefix of something that opens like a status block waits. -/
theorem prefix_waits {buffer : List UInt8} (opens : buffer.take 7 = header) {n : Nat}
    (short : n ≤ 178) : verdict (buffer.take n) = .wait := by
  obtain ⟨fc10, full⟩ := fullHeader_iff.mpr opens
  have size : (buffer.take n).length ≤ n := List.length_take_le ..
  rw [verdict_wait]
  by_cases two : n < 2
  · exact .inl (by omega)
  by_cases seven : n < 7
  · exact .inr (.inl ⟨by rwa [opensFc10_take (by omega)], by omega⟩)
  · refine .inr (.inr (.inl ⟨by rwa [opensFc10_take (by omega)], ?_, ?_⟩))
    · rwa [fullHeader_take (by omega)]
    · simp only [fc10Len]
      omega

/-- Only the header and the check sum hold bytes other than `FF`, and the two
check bytes are followed by `FF`. -/
theorem probe_alone (n : Nat) {q : Nat} (later : 0 < q) :
    ((probeFrame ++ List.replicate n 0xFF).drop q).take probeFrame.length ≠ probeFrame := by
  intro occurs
  have stream : probeFrame ++ List.replicate n 0xFF =
      header ++ (List.replicate 170 0xFF ++ (putLe16 (crc16Ansi (header ++
        List.replicate 170 0xFF)) ++ List.replicate n 0xFF)) := by
    simp only [probeFrame, stampCrc, List.append_assoc]
  have opens : probeFrame = header ++ (List.replicate 170 0xFF ++ putLe16 (crc16Ansi (header ++
      List.replicate 170 0xFF))) := by
    simp only [probeFrame, stampCrc, List.append_assoc]
  have byte : ∀ i < 7, (probeFrame ++ List.replicate n 0xFF)[q + i]? = header[i]? := by
    intro i inside
    have whole : i < probeFrame.length := by
      rw [length_probeFrame]
      omega
    have same := congrArg (fun w => w[i]?) occurs
    simp only [List.getElem?_take, if_pos whole, List.getElem?_drop] at same
    rw [same, opens, List.getElem?_append_left inside]
  have padding : ∀ j, 179 ≤ j → ∀ b ∈ (probeFrame ++ List.replicate n 0xFF)[j]?, b = 0xFF := by
    intro j behind b found
    rw [List.getElem?_append_right (by rw [length_probeFrame]; exact behind),
      List.getElem?_replicate] at found
    split at found <;> simp at found
    exact found.symm
  have data : ∀ j, 7 ≤ j → j < 177 → (probeFrame ++ List.replicate n 0xFF)[j]? = some 0xFF := by
    intro j lower upper
    have size : header.length = 7 := rfl
    rw [stream, List.getElem?_append_right (by omega), List.getElem?_append_left (by
      rw [List.length_replicate]
      omega), List.getElem?_replicate, if_pos (by omega)]
  have first := byte 0 (by decide)
  have second := byte 1 (by decide)
  have third := byte 2 (by decide)
  rcases lt_or_ge q 7 with head | behind
  · obtain ⟨rest, split⟩ : ∃ rest, probeFrame ++ List.replicate n 0xFF = header ++ rest :=
      ⟨_, stream⟩
    rw [split] at first second
    interval_cases q <;> simp [header] at first second
  · rcases lt_or_ge q 177 with inside | tail
    · rw [Nat.add_zero, data q behind inside] at first
      exact absurd first (by decide)
    · rcases lt_or_ge q 178 with check | tail
      · exact absurd (padding (q + 2) (by omega) 0x00 third) (by decide)
      · exact absurd (padding (q + 1) (by omega) 0x10 second) (by decide)

theorem probe : Probe rules 178 accumSize probeFrame 0xFF where
  size := length_probeFrame
  positive := by decide
  fits := by decide
  small := residual_length
  accepted := by
    have valid : ValidFc10 (probeFrame.take 179) := by
      rw [List.take_of_length_le length_probeFrame.le]
      exact ⟨List.replicate 170 0xFF, List.length_replicate .., rfl⟩
    rw [length_probeFrame]
    exact verdict_frame_iff.mpr (.inl ⟨rfl, valid⟩)
  undecided := fun n short => prefix_waits (by
    rw [probeFrame, stampCrc, List.append_assoc]
    exact List.take_left' rfl) short
  slips := by
    intro next rest
    change verdict (0xFF :: next :: rest) = .slip
    simp [verdict, opensFc10, opensFc06]
  alone := fun n _ later => probe_alone n later

theorem run_bytewise (clock : Clock) (stream : List UInt8) :
    (run clock (stream.map fun byte => [byte])).2 =
      (drainAll (matcher clock) stream ⟨initial, []⟩).2 := by
  have same := (run_fits clock (fits_bytewise residual_length (by decide) stream)).2
  rw [bytewise_flatten] at same
  exact (Prod.ext_iff.mp same).2

/-- With or without overflow, a run is one of the list-level feeds. -/
theorem run_feeds (clock : Clock) {chunks : List (List UInt8)}
    (small : ∀ chunk ∈ chunks, chunk.length ≤ 128) :
    (run clock chunks).2 =
      (chunks.foldl (feed accumSize (matcher clock)) ([], ⟨initial, []⟩)).2 :=
  (Prod.ext_iff.mp (Accumulator.feeds_contents (tryDecodeAtFront_local clock)
    (matcher_follows clock) chunks (fun chunk member => (small chunk member).trans_lt (by decide))
    (by decide)
    (a := ⟨Vector.replicate accumSize 0, 0⟩) (Nat.zero_le _) ⟨initial, []⟩).2).2

/-- A chunk length list is invisible to every stream exactly when no chunk can
overflow the accumulator. -/
theorem broadcasts_chunkIndependent_iff (lens : List Nat) (sizes : ∀ len ∈ lens, 1 ≤ len ∧ len ≤ 128) :
    ChunkIndependent lens ↔ ChunksFit lens := by
  constructor
  · intro independent
    by_contra overflows
    let clock : Clock := fun _ => 0
    obtain ⟨chunks, rfl, whole, cut⟩ := probe.overflow_loses (matcher_follows clock)
      Traced.accepted (accepted_accept clock) (accepted_slip clock) overflows
      (s := ⟨initial, []⟩) (by simp)
    have same := congrArg Prod.fst (independent chunks rfl clock clock).1
    have small : ∀ chunk ∈ chunks, chunk.length ≤ 128 :=
      fun chunk member => (sizes _ (List.mem_map_of_mem member)).2
    rw [run_feeds clock small, run_bytewise] at same
    dsimp only [observed] at same
    rw [same] at cut
    exact cut whole
  · rintro roomy chunks rfl clock clock'
    have fits := fits_of_roomy residual_length chunks [] rfl le_rfl roomy
    rw [(Prod.ext_iff.mp (run_fits clock fits).2).2, run_bytewise]
    refine ⟨?_, fun ordered => ?_⟩
    · exact drainAll_rel (matcher_follows clock) (matcher_follows clock')
        (R := fun s t => observed s = observed t)
        (fun buffer _ _ _ same => matcher_observed clock clock' buffer same) _ rfl
    · have initially : InStep clock clock' ⟨initial, []⟩ ⟨initial, []⟩ :=
        ⟨rfl, fun i inside => ⟨rfl, rfl, rfl, fun used => by simp [initial] at used⟩⟩
      obtain ⟨same, aligned⟩ := drainAll_rel (matcher_follows clock) (matcher_follows clock')
        (R := InStep clock clock') (fun buffer _ _ _ inStep => matcher_inStep ordered buffer inStep)
        chunks.flatten initially
      obtain ⟨log, state⟩ := Prod.ext_iff.mp same
      exact Prod.ext log (unstamped_aligned state aligned)

end

/-- Drained chunks whose lengths happen to leave room. -/
theorem chunkIndependent_drained : ChunkIndependent [128, 128] :=
  (broadcasts_chunkIndependent_iff [128, 128] (by decide)).mpr (by decide)

set_option maxRecDepth 8000 in
/-- A status block of which 129 bytes are waiting loses its first byte to the
128-byte chunk that completes it. -/
theorem chunk_loses_status :
    let frame := stampCrc (header ++ List.replicate 170 0x00)
    let chunks := [frame.take 128, (frame.drop 128).take 1,
      frame.drop 129 ++ List.replicate 78 0x01]
    let clock : Clock := fun _ => 0
    chunks.map List.length = [128, 1, 128] ∧ (run clock chunks).2.accepted = [] ∧
      (run clock (chunks.flatten.map fun byte => [byte])).2.accepted = [frame] := by
  intro frame chunks clock
  rw [run_bytewise, run_feeds clock (by decide +kernel)]
  decide +kernel

end FlexitCs60.Mirror
