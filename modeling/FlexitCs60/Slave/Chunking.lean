import FlexitCs60.Slave.Selection
import FlexitCs60.Stream.Chunking
import Mathlib.Tactic.IntervalCases

/-! When the chunk boundaries of `flexit_slave_feed` are invisible. The drain
worker delivers chunks of up to 128 bytes to a 64-byte accumulator; what decides
is whether every chunk fits behind the at most seven bytes that can be left. -/
namespace FlexitCs60.Slave
open Wire Framing

def tables (s : State) : Coils × Vector UInt16 regCount := (s.coils, s.regs)

/-- What a run shows: the handled frames with their responses, and the tables. -/
def outcome (s : Traced) :
    List (List UInt8 × Option (List UInt8)) × Coils × Vector UInt16 regCount :=
  (s.handled.map fun h => (h.frame, h.reply.map Prod.fst), tables s.state)

theorem outcome_frames {s t : Traced} (same : outcome s = outcome t) :
    handledFrames s = handledFrames t := by
  have := congrArg (fun o => o.1.map Prod.fst) same
  simpa [outcome, handledFrames, Function.comp_def] using this

/-- Two states with the same tables answer alike, and their tables stay the
same, if the locked update keeps them the same. -/
theorem respond_tables (resp : Option (List UInt8)) {serviced : State → State} {s t : State}
    (same : tables s = tables t) (updates : tables (serviced s) = tables (serviced t))
    (tx tx' : Transmission) :
    tables (respond resp serviced tx s).1 = tables (respond resp serviced tx' t).1 ∧
      (respond resp serviced tx s).2.map Prod.fst =
        (respond resp serviced tx' t).2.map Prod.fst := by
  cases resp with
  | none => exact ⟨same, rfl⟩
  | some resp =>
    refine ⟨?_, rfl⟩
    simp only [respond]
    split <;> split <;> exact updates

section
variable [Zephyr]

/-- Tables and responses depend on the tables and the frame alone, not on
transmission results, uptimes or counters. -/
theorem handleFrame_tables {s t : State} (same : tables s = tables t) (tx tx' : Transmission)
    (uptime uptime' : UInt64) (frame : List UInt8) :
    tables (handleFrame tx uptime frame s).1 = tables (handleFrame tx' uptime' frame t).1 ∧
      (handleFrame tx uptime frame s).2.map Prod.fst =
        (handleFrame tx' uptime' frame t).2.map Prod.fst := by
  obtain ⟨coils, regs⟩ := Prod.ext_iff.mp same
  simp only [tables] at coils regs
  unfold handleFrame
  dsimp only
  split_ifs
  · rw [handleFc01Request, handleFc01Request, coils]
    exact respond_tables _ same same tx tx'
  · rw [handleFc03Request, handleFc03Request, regs]
    refine respond_tables _ same ?_ tx tx'
    have reads : readsSetpoint (getBe16 (frame.drop 2)) (getBe16 (frame.drop 4)) s =
        readsSetpoint (getBe16 (frame.drop 2)) (getBe16 (frame.drop 4)) t := by
      simp only [readsSetpoint, coils]
    simp only [tables, serviceFc03_coils, serviceFc03_regs, reads, coils, regs]
  · exact respond_tables _ same same tx tx'
  · refine ⟨?_, rfl⟩
    simp only [handleFc65Broadcast, tables, coils, regs]
    split
    · split <;> rfl
    · rfl

theorem matcher_outcome (env env' : Env) (buffer : List UInt8) {s t : Traced}
    (same : outcome s = outcome t) :
    outcome (matcher env buffer s).2 = outcome (matcher env' buffer t).2 := by
  obtain ⟨log, tabs⟩ := Prod.ext_iff.mp same
  simp only [outcome] at log tabs
  rw [matcher_eq, matcher_eq]
  cases verdict buffer with
  | wait => exact same
  | slip =>
    simp only [slipOver]
    split
    · simpa only [outcome, tables, bumpCrcFailure] using same
    · exact same
  | frame width =>
    obtain ⟨tables', reply⟩ := handleFrame_tables tabs (env.tx s.handled.length)
      (env'.tx t.handled.length) (env.uptime s.handled.length) (env'.uptime t.handled.length)
      (buffer.take width)
    simp only [outcome, accept, List.map_append, List.map_cons, List.map_nil, log, tables', reply]

/-- Every chunk fits behind the bytes that can be left over before it. -/
def ChunksFit (lens : List Nat) : Prop := Roomy 7 accumSize 0 lens

instance (lens : List Nat) : Decidable (ChunksFit lens) :=
  inferInstanceAs (Decidable (Roomy 7 accumSize 0 lens))

/-- Every stream cut into chunks of these lengths shows what the same stream
shows when it is fed byte by byte, whatever the outside answers in either run. -/
def ChunkIndependent (lens : List Nat) : Prop :=
  ∀ chunks : List (List UInt8), chunks.map List.length = lens → ∀ env env' cells cells',
    outcome (run env cells chunks).2 =
      outcome (run env' cells' (chunks.flatten.map fun byte => [byte])).2

/-- A request for a register far outside the table: it is handled, silently. -/
def probeFrame : List UInt8 := stampCrc [0x01, 0x03, 0xFF, 0xFF, 0xFF, 0xFF]

theorem probeFrame_valid : ValidWindow probeFrame :=
  ⟨_, _, _, _, _, _, _, _, rfl, by simp, rfl⟩

omit [Zephyr] in
/-- Behind the frame comes padding only, and neither it nor a later byte of the
frame opens another occurrence. -/
theorem probe_alone {lo hi : UInt8} (n : Nat) {q : Nat} (later : 0 < q) :
    (([0x01, 0x03, 0xFF, 0xFF, 0xFF, 0xFF, lo, hi] ++ List.replicate n 0xFF).drop q).take 8 ≠
      [0x01, 0x03, 0xFF, 0xFF, 0xFF, 0xFF, lo, hi] := by
  intro occurs
  have byte : ∀ i < 8, ([0x01, 0x03, 0xFF, 0xFF, 0xFF, 0xFF, lo, hi] ++
      List.replicate n 0xFF)[q + i]? =
        [(0x01 : UInt8), 0x03, 0xFF, 0xFF, 0xFF, 0xFF, lo, hi][i]? := by
    intro i inside
    have := congrArg (fun w => w[i]?) occurs
    simpa only [List.getElem?_take, if_pos inside, List.getElem?_drop] using this
  by_cases behind : 8 ≤ q
  · have first := byte 0 (by decide)
    rw [List.getElem?_append_right (by simpa using behind), List.getElem?_replicate] at first
    split at first <;> simp at first
  · have first := byte 0 (by decide)
    have second := byte 1 (by decide)
    have seventh := byte 6 (by decide)
    interval_cases q <;> simp [List.getElem?_replicate] at first second seventh
    -- a frame that started at its own check sum would need `lo = 0x01` and `lo = 0xFF`
    rw [first] at seventh
    exact absurd seventh.2 (by decide)

theorem probe : Probe rules 7 accumSize probeFrame 0xFF where
  size := rfl
  positive := by decide
  fits := by decide
  small := residual_length
  accepted := by
    have valid : ValidWindow (probeFrame.take 8) := probeFrame_valid
    exact verdict_frame_iff.mpr valid
  undecided := by
    intro n short
    change verdict ([0x01, 0x03, 0xFF, 0xFF, 0xFF, 0xFF, _, _].take n) = .wait
    interval_cases n <;> rfl
  slips := by
    intro next rest
    change verdict (0xFF :: next :: rest) = .slip
    simp [verdict, anchored, slaveAddr]
  alone := fun n _ later => probe_alone n later

theorem run_bytewise (env : Env) (cells : Vector UInt8 accumSize) (stream : List UInt8) :
    (run env cells (stream.map fun byte => [byte])).2 =
      (drainAll (matcher env) stream ⟨flexitSlaveInit, []⟩).2 := by
  have same := (run_fits env cells (fits_bytewise residual_length (by decide) stream)).2
  rw [bytewise_flatten] at same
  exact (Prod.ext_iff.mp same).2

/-- With or without overflow, a run is one of the list-level feeds. -/
theorem run_feeds (env : Env) (cells : Vector UInt8 accumSize) {chunks : List (List UInt8)}
    (small : ∀ chunk ∈ chunks, chunk.length ≤ 128) :
    (run env cells chunks).2 =
      (chunks.foldl (feed accumSize (matcher env)) ([], ⟨flexitSlaveInit, []⟩)).2 :=
  (Prod.ext_iff.mp (Accumulator.feeds_contents (tryDecodeAtFront_local env) (matcher_follows env)
    chunks (fun chunk member => (small chunk member).trans_lt (by decide)) (by decide) (a := ⟨cells, 0⟩) (Nat.zero_le _) ⟨flexitSlaveInit, []⟩).2).2

/-- A chunk length list is invisible to every stream exactly when no chunk can
overflow the accumulator. -/
theorem requests_chunkIndependent_iff (lens : List Nat) (sizes : ∀ len ∈ lens, 1 ≤ len ∧ len ≤ 128) :
    ChunkIndependent lens ↔ ChunksFit lens := by
  constructor
  · intro independent
    by_contra overflows
    let env : Env := ⟨fun _ => 0, fun _ => .ok⟩
    let cells : Vector UInt8 accumSize := Vector.replicate accumSize 0
    obtain ⟨chunks, rfl, whole, cut⟩ := probe.overflow_loses (matcher_follows env) handledFrames
      (handledFrames_accept env) (handledFrames_slip env) overflows (s := ⟨flexitSlaveInit, []⟩)
      (by simp [handledFrames])
    have same := outcome_frames (independent chunks rfl env env cells cells)
    have small : ∀ chunk ∈ chunks, chunk.length ≤ 128 :=
      fun chunk member => (sizes _ (List.mem_map_of_mem member)).2
    rw [run_feeds env cells small, run_bytewise] at same
    rw [same] at cut
    exact cut whole
  · rintro roomy chunks rfl env env' cells cells'
    have fits := fits_of_roomy residual_length chunks [] rfl le_rfl roomy
    rw [(Prod.ext_iff.mp (run_fits env cells fits).2).2, run_bytewise]
    exact drainAll_rel (matcher_follows env) (matcher_follows env')
      (R := fun s t => outcome s = outcome t)
      (fun buffer _ _ _ same => matcher_outcome env env' buffer same) _ rfl

end

/-- Two drained chunks of 57 bytes, the largest size that always fits. -/
theorem chunkIndependent_fifty_seven : ChunkIndependent [57, 57] :=
  (requests_chunkIndependent_iff [57, 57] (by decide)).mpr (by decide)

/-- A probe at the front of a 65-byte chunk is dropped before it is looked at. -/
theorem chunk_loses_probe :
    let chunk : List UInt8 := [0x01, 0x04, 0x00, 0x00, 0x00, 0x04, 0xF1, 0xC9] ++
      List.replicate 57 0xFF
    let env : Env := ⟨fun _ => 0, fun _ => .ok⟩
    let cells := Vector.replicate accumSize 0
    chunk.length = 65 ∧ handledFrames (run env cells [chunk]).2 = [] ∧
      handledFrames (run env cells (chunk.map fun byte => [byte])).2 =
        [[0x01, 0x04, 0x00, 0x00, 0x00, 0x04, 0xF1, 0xC9]] := by
  intro chunk env cells
  rw [run_bytewise, run_feeds env cells (by decide)]
  decide +kernel

end FlexitCs60.Slave
