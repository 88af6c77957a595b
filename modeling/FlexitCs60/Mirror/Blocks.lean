import FlexitCs60.Mirror.Selection

/-! A status block of any registers is mirrored field by field. -/
namespace FlexitCs60.Mirror
open Wire Framing

/-- The registers of a block, from `0x00BE` on. -/
abbrev Registers := Vector UInt16 85

def register (r : Registers) (addr : Nat) : UInt16 := r.toList.getD (addr - 0x00BE) 0

/-- Header, registers and the Modbus check sum. -/
def statusBlock (r : Registers) : List UInt8 :=
  let body := header ++ r.toList.flatMap putBe16
  body ++ putLe16 (Crc16.modbus body)

/-- Each field holds its register, and each bit the condition on its register. -/
structure Mirrored (r : Registers) (s : State) : Prop where
  tempSetpoint : s.tempSetpointX10 = (register r 0x00BE).toInt16
  mode : s.mode = register r 0x00BF
  unknown1 : s.unknown1 = register r 0x00C0
  unknown2 : s.unknown2 = register r 0x00C1
  tempSetpoint2 : s.tempSetpoint2X10 = (register r 0x00C2).toInt16
  tempSupplyAir : s.tempSupplyAirX10 = (register r 0x00C3).toInt16
  tempExtractAir : s.tempExtractAirX10 = (register r 0x00C4).toInt16
  tempOutdoorAir : s.tempOutdoorAirX10 = (register r 0x00C5).toInt16
  tempReturnWater : s.tempReturnWaterX10 = (register r 0x00C6).toInt16
  pctCooling : s.pctCooling = register r 0x00C7
  pctHeatExchanger : s.pctHeatExchanger = register r 0x00C8
  pctHeating : s.pctHeating = register r 0x00C9
  pctSupplyFan : s.pctSupplyFan = register r 0x00CA
  extractAir : s.sensorsPresent &&& sensorExtractAir ≠ 0 ↔ -1000 < (register r 0x00C4).toInt16.toInt
  returnWater :
    s.sensorsPresent &&& sensorReturnWater ≠ 0 ↔ -1000 < (register r 0x00C6).toInt16.toInt
  supplySensor : s.alarms &&& alarmSupplySensor ≠ 0 ↔ register r 0x0104 ≠ 0
  outdoorSensor : s.alarms &&& alarmOutdoorSensor ≠ 0 ↔ register r 0x0106 ≠ 0
  overheat : s.alarms &&& alarmOverheat ≠ 0 ↔ register r 0x0108 ≠ 0
  heatExchanger : s.alarms &&& alarmHeatExchanger ≠ 0 ↔ register r 0x010B ≠ 0
  filter : s.alarms &&& alarmFilter ≠ 0 ↔ register r 0x010C ≠ 0

theorem length_words (words : List UInt16) : (words.flatMap putBe16).length = 2 * words.length := by
  induction words with
  | nil => rfl
  | cons word later ih =>
    rw [List.flatMap_cons, List.length_append, ih, length_putBe16, List.length_cons]
    omega

theorem getBe16_drop_words {words : List UInt16} {k : Nat} (inside : k < words.length)
    (tail : List UInt8) :
    getBe16 ((words.flatMap putBe16 ++ tail).drop (2 * k)) = words.getD k 0 := by
  induction words generalizing k with
  | nil => simp at inside
  | cons word later ih =>
    rw [List.flatMap_cons, List.append_assoc]
    cases k with
    | zero => exact getBe16_putBe16 word _
    | succ k =>
      rw [Nat.mul_succ, Nat.add_comm, ← List.drop_drop, List.drop_left' (length_putBe16 word)]
      exact ih (by simpa using inside)

theorem sensor_bits (extract returnWater : Bool) (mask : UInt8)
    (same : mask = bitmask [(extract, sensorExtractAir), (returnWater, sensorReturnWater)]) :
    (mask &&& sensorExtractAir ≠ 0 ↔ extract = true) ∧
      (mask &&& sensorReturnWater ≠ 0 ↔ returnWater = true) := by
  subst same
  revert extract returnWater
  decide

/-- The alarms that are up are the ones whose bit can be read back. -/
theorem alarm_bits (supply outdoor overheat exchanger filter : Bool) (mask : UInt8)
    (same : mask = bitmask [(supply, alarmSupplySensor), (outdoor, alarmOutdoorSensor),
      (overheat, alarmOverheat), (exchanger, alarmHeatExchanger), (filter, alarmFilter)]) :
    (mask &&& alarmSupplySensor ≠ 0 ↔ supply = true) ∧
      (mask &&& alarmOutdoorSensor ≠ 0 ↔ outdoor = true) ∧
      (mask &&& alarmOverheat ≠ 0 ↔ overheat = true) ∧
      (mask &&& alarmHeatExchanger ≠ 0 ↔ exchanger = true) ∧
      (mask &&& alarmFilter ≠ 0 ↔ filter = true) := by
  subst same
  revert supply outdoor overheat exchanger filter
  decide

/-- The fields a block overwrites, from its registers. -/
theorem mirrored_mirrorFc10 (r : Registers) (tail : List UInt8) (s : State) :
    Mirrored r (mirrorFc10 (r.toList.flatMap putBe16 ++ tail) s) := by
  have word (addr k : Nat) (inside : k < 85) (place : addr - 0x00BE = k) :
      getBe16 ((r.toList.flatMap putBe16 ++ tail).drop (2 * k)) = register r addr := by
    rw [getBe16_drop_words (by rw [Vector.length_toList]; exact inside), register, place]
  have extract := word 0x00C4 6 (by decide) rfl
  have returnWater := word 0x00C6 8 (by decide) rfl
  have alarm (addr k : Nat) (inside : k < 85) (place : addr - 0x00BE = k) :
      decide (getBe16 ((r.toList.flatMap putBe16 ++ tail).drop (fc10RegOff addr)) ≠ 0) = true ↔
        register r addr ≠ 0 := by
    have offset : fc10RegOff addr = 2 * k := by
      unfold fc10RegOff
      omega
    rw [decide_eq_true_eq, offset, word addr k inside place]
  have sensor (addr k : Nat) (inside : k < 85) (place : addr - 0x00BE = k) :
      decide ((getBe16 ((r.toList.flatMap putBe16 ++ tail).drop (2 * k))).toInt16 >
        tempSentinelMaxX10) = true ↔ -1000 < (register r addr).toInt16.toInt := by
    rw [decide_eq_true_eq, word addr k inside place]
    exact Int16.lt_iff_toInt_lt
  obtain ⟨extractBit, returnBit⟩ := sensor_bits _ _
    (mirrorFc10 (r.toList.flatMap putBe16 ++ tail) s).sensorsPresent rfl
  obtain ⟨supply, outdoor, overheat, exchanger, filter⟩ := alarm_bits _ _ _ _ _
    (mirrorFc10 (r.toList.flatMap putBe16 ++ tail) s).alarms rfl
  constructor
  case tempSetpoint => exact congrArg UInt16.toInt16 (word 0x00BE 0 (by decide) rfl)
  case mode => exact word 0x00BF 1 (by decide) rfl
  case unknown1 => exact word 0x00C0 2 (by decide) rfl
  case unknown2 => exact word 0x00C1 3 (by decide) rfl
  case tempSetpoint2 => exact congrArg UInt16.toInt16 (word 0x00C2 4 (by decide) rfl)
  case tempSupplyAir => exact congrArg UInt16.toInt16 (word 0x00C3 5 (by decide) rfl)
  case tempExtractAir => exact congrArg UInt16.toInt16 extract
  case tempOutdoorAir => exact congrArg UInt16.toInt16 (word 0x00C5 7 (by decide) rfl)
  case tempReturnWater => exact congrArg UInt16.toInt16 returnWater
  case pctCooling => exact word 0x00C7 9 (by decide) rfl
  case pctHeatExchanger => exact word 0x00C8 10 (by decide) rfl
  case pctHeating => exact word 0x00C9 11 (by decide) rfl
  case pctSupplyFan => exact word 0x00CA 12 (by decide) rfl
  case extractAir => exact extractBit.trans (sensor 0x00C4 6 (by decide) rfl)
  case returnWater => exact returnBit.trans (sensor 0x00C6 8 (by decide) rfl)
  case supplySensor => exact supply.trans (alarm 0x0104 70 (by decide) rfl)
  case outdoorSensor => exact outdoor.trans (alarm 0x0106 72 (by decide) rfl)
  case overheat => exact overheat.trans (alarm 0x0108 74 (by decide) rfl)
  case heatExchanger => exact exchanger.trans (alarm 0x010B 77 (by decide) rfl)
  case filter => exact filter.trans (alarm 0x010C 78 (by decide) rfl)

theorem Mirrored.stamped {r : Registers} {s : State} (mirrored : Mirrored r s) (uptime : UInt64) :
    Mirrored r { s with lastFc10UptimeMs := uptime } := by
  cases mirrored
  constructor
  all_goals assumption

theorem length_statusBlock (r : Registers) : (statusBlock r).length = 179 := by
  rw [statusBlock, List.length_append, List.length_append, length_words, Vector.length_toList]
  rfl

section
variable [Zephyr] (standard : ∀ data, crc16Ansi data = Crc16.modbus data)
include standard

theorem valid_statusBlock (r : Registers) : ValidFc10 (statusBlock r) := by
  refine ⟨r.toList.flatMap putBe16, ?_, ?_⟩
  · rw [length_words, Vector.length_toList]
  · rw [statusBlock, stampCrc, standard]

/-- A scan that starts at a block accepts it and is through with it. -/
theorem drain_statusBlock (clock : Clock) (r : Registers) (s : Traced) :
    drainAll (matcher clock) (statusBlock r) s = ([], accept clock (statusBlock r) s) := by
  have whole : (statusBlock r).take 179 = statusBlock r :=
    List.take_of_length_le (length_statusBlock r).le
  have framed : rules.verdict (statusBlock r) = .frame 179 := by
    change verdict (statusBlock r) = _
    rw [verdict_frame_iff, whole]
    exact .inl ⟨rfl, valid_statusBlock standard r⟩
  have rest : (statusBlock r).drop 179 = [] :=
    List.drop_eq_nil_of_le (length_statusBlock r).le
  rw [(matcher_follows clock).drainAll_next (by simp [framed]), matcher_frame clock s framed,
    framed, Verdict.width, rest, whole, (matcher_follows clock).drainAll_wait rfl]

theorem accept_statusBlock (clock : Clock) (r : Registers) (s : Traced) :
    Mirrored r (accept clock (statusBlock r) s).state ∧
      (accept clock (statusBlock r) s).state.counters = s.state.counters ∧
      (accept clock (statusBlock r) s).state.fc10Frames = s.state.fc10Frames + 1 ∧
      (accept clock (statusBlock r) s).state.fc06Frames = s.state.fc06Frames ∧
      (accept clock (statusBlock r) s).state.crcFailures = s.state.crcFailures := by
  have whole : (statusBlock r).take 179 = statusBlock r :=
    List.take_of_length_le (length_statusBlock r).le
  have valid := valid_statusBlock standard r
  rw [← whole] at valid
  obtain ⟨-, -, check⟩ := validFc10_iff.mp valid
  rw [whole] at check
  have data : (statusBlock r).drop 7 = r.toList.flatMap putBe16 ++
      putLe16 (Crc16.modbus (header ++ r.toList.flatMap putBe16)) := by
    rw [statusBlock, List.append_assoc]
    rfl
  have state : (accept clock (statusBlock r) s).state =
      { mirrorFc10 ((statusBlock r).drop 7) s.state with
        lastFc10UptimeMs := clock s.accepted.length } := by
    have opens : opensFc10 (statusBlock r) = true := rfl
    rw [accept, decodeFrame, if_pos opens, tryDecodeFc10]
    exact congrArg Prod.snd (if_pos check)
  rw [state, data]
  exact ⟨(mirrored_mirrorFc10 r _ s.state).stamped _, rfl, rfl, rfl, rfl⟩

/-- A status block of any registers, in any chunks of up to 78 bytes and on any state with
an empty accumulator, is accepted once and mirrored, and nothing of it is left. -/
theorem block_mirrored (clock : Clock) (r : Registers) (x : Accumulator UInt8 accumSize × Traced)
    (empty : x.1.len = 0) {chunks : List (List UInt8)} (parts : chunks.flatten = statusBlock r)
    (sizes : ∀ chunk ∈ chunks, 1 ≤ chunk.length ∧ chunk.length ≤ 78) :
    (chunks.foldl (panelMirrorFeed clock) x).2.accepted = x.2.accepted ++ [statusBlock r] ∧
      (chunks.foldl (panelMirrorFeed clock) x).1.len = 0 ∧
      Mirrored r (chunks.foldl (panelMirrorFeed clock) x).2.state ∧
      (chunks.foldl (panelMirrorFeed clock) x).2.state.counters = x.2.state.counters ∧
      (chunks.foldl (panelMirrorFeed clock) x).2.state.fc10Frames = x.2.state.fc10Frames + 1 ∧
      (chunks.foldl (panelMirrorFeed clock) x).2.state.fc06Frames = x.2.state.fc06Frames ∧
      (chunks.foldl (panelMirrorFeed clock) x).2.state.crcFailures = x.2.state.crcFailures := by
  obtain ⟨a, s⟩ := x
  have none : a.contents = [] := by
    rw [Accumulator.contents, empty, List.take_zero]
  have small : a.len ≤ accumSize := empty.le.trans (Nat.zero_le _)
  have fits : Fits rules accumSize a.contents chunks :=
    fits_of_bound 178 78 (by decide) residual_length chunks
      (fun chunk member => (sizes chunk member).2) _ (by rw [none]; rfl)
  obtain ⟨bounded, same⟩ := Accumulator.feeds_eq_drainAll (tryDecodeAtFront_local clock)
    (matcher_follows clock) chunks (by decide) small s (by rw [none]; rfl) fits
  change (chunks.foldl (panelMirrorFeed clock) (a, s)).1.len ≤ _ at bounded
  have drained : ((chunks.foldl (panelMirrorFeed clock) (a, s)).1.contents,
      (chunks.foldl (panelMirrorFeed clock) (a, s)).2) = ([], accept clock (statusBlock r) s) := by
    refine same.trans ?_
    rw [none, List.nil_append, parts]
    exact drain_statusBlock standard clock r s
  obtain ⟨contents, traced⟩ := Prod.ext_iff.mp drained
  dsimp only at contents traced
  rw [traced]
  refine ⟨rfl, ?_, accept_statusBlock standard clock r s⟩
  rw [← Accumulator.length_contents bounded, contents, List.length_nil]

end

/-- A block of equal registers, and three pieces of it. -/
def plainBlock : List UInt8 := statusBlock (Vector.replicate 85 0x0100)
def plainChunks : List (List UInt8) :=
  [plainBlock.take 78, (plainBlock.drop 78).take 78, plainBlock.drop 156]

theorem block_mirrored_plain :
    (plainChunks.foldl (panelMirrorFeed fun _ => 1) booted).2.accepted = [plainBlock] := by
  have length : plainBlock.length = 179 := length_statusBlock _
  have parts : plainChunks.flatten = plainBlock := by
    have tail : plainBlock.drop 156 = (plainBlock.drop 78).drop 78 := by rw [List.drop_drop]
    rw [plainChunks, tail, List.flatten_cons, List.flatten_cons, List.flatten_singleton,
      List.take_append_drop, List.take_append_drop]
  have sizes : ∀ chunk ∈ plainChunks, 1 ≤ chunk.length ∧ chunk.length ≤ 78 := by
    simp only [plainChunks, List.mem_cons, List.not_mem_nil, or_false, forall_eq_or_imp, forall_eq,
      List.length_take, List.length_drop, length]
    decide
  exact (block_mirrored (fun _ => rfl) (fun _ => 1) (Vector.replicate 85 0x0100) booted rfl parts
    sizes).1

end FlexitCs60.Mirror
