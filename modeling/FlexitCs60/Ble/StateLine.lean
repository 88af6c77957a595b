import FlexitCs60.Mirror.Tables
import FlexitCs60.Slave.Tables
import FlexitCs60.Wire.TextCodec
import Mathlib.Tactic.Ring
import Mathlib.Tactic.Linarith

/-! The answer to the `state` command. `format_state_line` fills its buffer from
several `snprintf` calls, which treat a text that does not fit differently. -/
namespace FlexitCs60.Ble
open Wire Mirror

/-- `format_temp_x10` into a buffer of `cap` bytes, without the terminator. -/
def formatTempX10 (cap : Nat) (x10 : Int16) (present : Bool) : List UInt8 :=
  let x := x10.toInt
  let text :=
    if !present then ascii "n/a"
    else if x < 0 then
      ascii "-" ++ printDecimal ((-x).toNat / 10) ++ ascii "." ++ printDecimal ((-x).toNat % 10)
    else printDecimal (x.toNat / 10) ++ ascii "." ++ printDecimal (x.toNat % 10)
  text.take (cap - 1)

def extractPresent (s : State) : Bool := s.sensorsPresent &&& sensorExtractAir ≠ 0

def returnPresent (s : State) : Bool := s.sensorsPresent &&& sensorReturnWater ≠ 0

/-- The fields of the first format string. -/
def mainFields (s : State) : List Field :=
  let temp (x10 : Int16) (present : Bool) := formatTempX10 16 x10 present
  let hex (word : UInt16) := ascii "0x" ++ printHex4 word
  [(ascii "MODE", printDecimal s.mode.toNat),
    (ascii "SET", temp s.tempSetpointX10 true),
    (ascii "SET2", temp s.tempSetpoint2X10 true),
    (ascii "T_SUP", temp s.tempSupplyAirX10 true),
    (ascii "T_EXT", temp s.tempExtractAirX10 (extractPresent s)),
    (ascii "T_OUT", temp s.tempOutdoorAirX10 true),
    (ascii "T_RET", temp s.tempReturnWaterX10 (returnPresent s)),
    (ascii "PCT_COOL", printDecimal s.pctCooling.toNat),
    (ascii "PCT_HX", printDecimal s.pctHeatExchanger.toNat),
    (ascii "PCT_HEAT", printDecimal s.pctHeating.toNat),
    (ascii "PCT_FAN", printDecimal s.pctSupplyFan.toNat),
    (ascii "UNK1", hex s.unknown1),
    (ascii "UNK2", hex s.unknown2),
    (ascii "FC10", printDecimal s.fc10Frames.toNat),
    (ascii "FC06", printDecimal s.fc06Frames.toNat),
    (ascii "CRCERR", printDecimal s.crcFailures.toNat),
    (ascii "LAST_MS", printDecimal s.lastFc10UptimeMs.toNat)]

/-- `%u` of a flag. -/
def printFlag (flag : Bool) : List UInt8 := printDecimal (if flag then 1 else 0)

def setpointSegment (sl : Slave.Snapshot) : List Field :=
  let coil12 := (ascii "SP_COIL12", printFlag sl.coilSetpointPending)
  let reads := (ascii "SP_READS", printDecimal sl.setpointReads.toNat)
  if sl.pendingSetpoint = 0xFFFF then [(ascii "SP_QUEUED", ascii "none"), coil12, reads]
  else
    [(ascii "SP_QUEUED", printDecimal (sl.pendingSetpoint.toNat / 10) ++ ascii "." ++
        printDecimal (sl.pendingSetpoint.toNat % 10)),
      (ascii "SP_REG", printDecimal sl.regSetpointValue.toNat), coil12, reads]

/-- The fields of the format strings on the slave, one list for each call. -/
def slaveSegments (sl : Slave.Snapshot) : List (List Field) :=
  [[(ascii "MODE_QUEUED",
      if sl.pendingMode = 0xFFFF then ascii "none" else printDecimal sl.pendingMode.toNat)],
    [(ascii "MODE_ACKED",
      if sl.lastAckedMode = 0xFFFF then ascii "none"
      else
        printDecimal sl.lastAckedMode.toNat ++ ascii "@" ++ printDecimal sl.lastAckUptimeMs.toNat)],
    [(ascii "SLV_FC01", printDecimal sl.fc01Serviced.toNat),
      (ascii "SLV_FC03", printDecimal sl.fc03Serviced.toNat),
      (ascii "SLV_FC04", printDecimal sl.fc04Serviced.toNat),
      (ascii "SLV_FC65", printDecimal sl.fc65Acks.toNat),
      (ascii "SLV_COIL0", printFlag sl.coil0Pending)],
    setpointSegment sl]

/-- Seconds since the counter was written, on the 64-bit difference. -/
def ageS (now : UInt64) (c : Counter) : UInt64 := (now - c.atMs) / 1000

def counterField (now : UInt64) (c : Counter) : Field :=
  (ascii "CNT[0x" ++ printHex4 c.addr ++ ascii "]",
    printDecimal c.value.toNat ++ ascii "@" ++ printDecimal (ageS now c).toNat ++ ascii "s")

/-- A call that adds its text if there is room for all of it. -/
def appendSegment (cap : Nat) (line : List UInt8) (segment : List Field) : List UInt8 :=
  let text := trail segment
  if line.length < cap - 1 ∧ 0 < text.length ∧ text.length < cap - line.length then line ++ text
  else line

/-- The counter loop. A text that does not fit is cut off and ends it. -/
def appendCounters (cap : Nat) (now : UInt64) : List Counter → List UInt8 → List UInt8
  | [], line => line
  | c :: rest, line =>
    if cap - 1 ≤ line.length then line
    else if !c.used then appendCounters cap now rest line
    else
      let text := trail [counterField now c]
      if cap - line.length ≤ text.length then (line ++ text).take (cap - 1)
      else appendCounters cap now rest (line ++ text)

/-- `format_state_line` with the two snapshots and the uptime it reads. -/
def formatStateLine (cap : Nat) (s : State) (sl : Slave.Snapshot) (now : UInt64) : List UInt8 :=
  let line := (joined (mainFields s)).take (cap - 1)
  let line := (slaveSegments sl).foldl (appendSegment cap) line
  let line := appendCounters cap now s.counters.toList line
  if line.length < cap - 1 then line ++ ascii "\n" else line

/-! The widths of the fields. -/

def decimalWidth (n : Nat) : Nat := Nat.log 10 n + 1

def tempWidth (x10 : Int16) (present : Bool) : Nat :=
  if present then (if x10.toInt < 0 then 1 else 0) + decimalWidth (x10.toInt.natAbs / 10) + 2 else 3

/-- Room for the panel's registers and the mirror's diagnostics. -/
def mainWidth (s : State) : Nat :=
  135 + decimalWidth s.mode.toNat + tempWidth s.tempSetpointX10 true +
    tempWidth s.tempSetpoint2X10 true + tempWidth s.tempSupplyAirX10 true +
    tempWidth s.tempExtractAirX10 (extractPresent s) + tempWidth s.tempOutdoorAirX10 true +
    tempWidth s.tempReturnWaterX10 (returnPresent s) + decimalWidth s.pctCooling.toNat +
    decimalWidth s.pctHeatExchanger.toNat + decimalWidth s.pctHeating.toNat +
    decimalWidth s.pctSupplyFan.toNat + decimalWidth s.fc10Frames.toNat +
    decimalWidth s.fc06Frames.toNat + decimalWidth s.crcFailures.toNat +
    decimalWidth s.lastFc10UptimeMs.toNat

/-- Room for the slave's cycle state. -/
def slaveWidth (sl : Slave.Snapshot) : Nat :=
  110 + (if sl.pendingMode = 0xFFFF then 4 else decimalWidth sl.pendingMode.toNat) +
    (if sl.lastAckedMode = 0xFFFF then 4
      else decimalWidth sl.lastAckedMode.toNat + 1 + decimalWidth sl.lastAckUptimeMs.toNat) +
    decimalWidth sl.fc01Serviced.toNat + decimalWidth sl.fc03Serviced.toNat +
    decimalWidth sl.fc04Serviced.toNat + decimalWidth sl.fc65Acks.toNat +
    (if sl.pendingSetpoint = 0xFFFF then 4
      else decimalWidth (sl.pendingSetpoint.toNat / 10) + 10 +
        decimalWidth sl.regSetpointValue.toNat) +
    decimalWidth sl.setpointReads.toNat

def counterWidth (now : UInt64) (c : Counter) : Nat :=
  15 + decimalWidth c.value.toNat + decimalWidth (ageS now c).toNat

def usedCounters (s : State) : List Counter := s.counters.toList.filter Counter.used

/-- Bytes the whole line needs, with a blank or the newline behind each field. -/
def lineWidth (s : State) (sl : Slave.Snapshot) (now : UInt64) : Nat :=
  mainWidth s + slaveWidth sl + ((usedCounters s).map (counterWidth now)).sum

theorem decimalWidth_le {n k : Nat} (short : n < 10 ^ (k + 1)) : decimalWidth n ≤ k + 1 :=
  Nat.succ_le_of_lt (Nat.lt_succ_of_le (Nat.le_of_lt_succ (Nat.log_lt_of_lt_pow' (by omega) short)))

theorem length_none : (ascii "none").length = 4 := rfl

theorem length_at : (ascii "@").length = 1 := rfl

theorem length_point : (ascii ".").length = 1 := rfl

theorem length_formatTempX10 (x10 : Int16) (present : Bool) :
    (formatTempX10 16 x10 present).length = tempWidth x10 present := by
  have lower := x10.le_toInt
  have upper := x10.toInt_lt
  have digits : decimalWidth (x10.toInt.natAbs / 10) ≤ 4 := decimalWidth_le (by omega)
  have last : Nat.log 10 (x10.toInt.natAbs % 10) = 0 := Nat.log_of_lt (Nat.mod_lt _ (by decide))
  have na : (ascii "n/a").length = 3 := rfl
  have minus : (ascii "-").length = 1 := rfl
  unfold formatTempX10 tempWidth
  cases present with
  | false =>
    simp only [Bool.not_false, if_true, List.length_take, na]
    rfl
  | true =>
    simp only [Bool.not_true, Bool.false_eq_true, if_false, if_true, List.length_take]
    by_cases negative : x10.toInt < 0
    · have same : (-x10.toInt).toNat = x10.toInt.natAbs := by omega
      simp only [if_pos negative, same, List.length_append, length_printDecimal, minus,
        length_point, last, decimalWidth] at digits ⊢
      omega
    · have same : x10.toInt.toNat = x10.toInt.natAbs := by omega
      simp only [if_neg negative, same, List.length_append, length_printDecimal,
        length_point, last, decimalWidth] at digits ⊢
      omega

theorem length_mainFields (s : State) : (trail (mainFields s)).length = mainWidth s := by
  have keys : ((mainFields s).map Prod.fst).flatten.length = 89 := by
    change ((mainFields initial).map Prod.fst).flatten.length = 89
    decide +kernel
  have mark : (ascii "0x").length = 2 := rfl
  have hex : ∀ word, (printHex4 word).length = 4 := fun _ => rfl
  rw [length_trail, keys]
  simp only [mainFields, List.map_cons, List.map_nil, List.flatten_cons, List.flatten_nil,
    List.length_append, List.length_cons, List.length_nil, length_formatTempX10,
    length_printDecimal, mark, hex, mainWidth, decimalWidth]
  ring

theorem length_printFlag (flag : Bool) : (printFlag flag).length = 1 := by
  cases flag <;> rfl

theorem length_setpointSegment (sl : Slave.Snapshot) : (trail (setpointSegment sl)).length =
    33 + (if sl.pendingSetpoint = 0xFFFF then 4
      else decimalWidth (sl.pendingSetpoint.toNat / 10) + 10 +
        decimalWidth sl.regSetpointValue.toNat) + decimalWidth sl.setpointReads.toNat := by
  have queued : (ascii "SP_QUEUED").length = 9 := rfl
  have reg : (ascii "SP_REG").length = 6 := rfl
  have coil12 : (ascii "SP_COIL12").length = 9 := rfl
  have reads : (ascii "SP_READS").length = 8 := rfl
  have last : Nat.log 10 (sl.pendingSetpoint.toNat % 10) = 0 :=
    Nat.log_of_lt (Nat.mod_lt _ (by decide))
  unfold setpointSegment
  split
  · simp only [length_trail, List.map_cons, List.map_nil, List.flatten_cons, List.flatten_nil,
      List.length_append, List.length_cons, List.length_nil, length_printFlag, length_printDecimal,
      length_none, queued, coil12, reads, decimalWidth]
    ring
  · simp only [length_trail, List.map_cons, List.map_nil, List.flatten_cons, List.flatten_nil,
      List.length_append, List.length_cons, List.length_nil, length_printFlag, length_printDecimal,
      length_point, queued, reg, coil12, reads, last, decimalWidth]
    ring

theorem length_slaveSegments (sl : Slave.Snapshot) :
    (trail (slaveSegments sl).flatten).length = slaveWidth sl := by
  have keys : (ascii "MODE_QUEUED" ++ (ascii "MODE_ACKED" ++ (ascii "SLV_FC01" ++
      (ascii "SLV_FC03" ++ (ascii "SLV_FC04" ++ (ascii "SLV_FC65" ++ ascii "SLV_COIL0")))))).length =
        62 := rfl
  have queued : (if sl.pendingMode = 0xFFFF then ascii "none"
      else printDecimal sl.pendingMode.toNat).length =
        if sl.pendingMode = 0xFFFF then 4 else decimalWidth sl.pendingMode.toNat := by
    split
    · exact length_none
    · exact length_printDecimal _
  have acked : (if sl.lastAckedMode = 0xFFFF then ascii "none"
      else printDecimal sl.lastAckedMode.toNat ++ ascii "@" ++
        printDecimal sl.lastAckUptimeMs.toNat).length =
        if sl.lastAckedMode = 0xFFFF then 4
        else decimalWidth sl.lastAckedMode.toNat + 1 + decimalWidth sl.lastAckUptimeMs.toNat := by
    split
    · exact length_none
    · simp only [List.length_append, length_printDecimal, length_at, decimalWidth]
  simp only [List.length_append] at keys
  have split : (slaveSegments sl).flatten = (slaveSegments sl).flatten.take 7 ++
      setpointSegment sl := by
    simp [slaveSegments]
  rw [split, trail_append, List.length_append, length_setpointSegment, length_trail]
  simp only [slaveSegments, List.flatten_cons, List.cons_append, List.nil_append,
    List.take_succ_cons, List.take_zero, List.map_cons, List.map_nil, List.flatten_nil,
    List.length_append, List.length_cons, List.length_nil, length_printFlag, length_printDecimal,
    queued, acked, slaveWidth, decimalWidth] at keys ⊢
  omega

theorem length_counterField (now : UInt64) (c : Counter) :
    (trail [counterField now c]).length = counterWidth now c := by
  have opening : (ascii "CNT[0x").length = 6 := rfl
  have closing : (ascii "]").length = 1 := rfl
  have seconds : (ascii "s").length = 1 := rfl
  have hex : (printHex4 c.addr).length = 4 := rfl
  simp only [counterField, length_trail, List.map_cons, List.map_nil, List.flatten_cons,
    List.flatten_nil, List.length_append, List.length_cons, List.length_nil, length_printDecimal,
    opening, closing, length_at, seconds, hex, counterWidth, decimalWidth]
  ring

/-- Calls that have room for their texts add them one after the other. -/
theorem foldl_appendSegment {cap : Nat} (segments : List (List Field)) (line : List UInt8)
    (room : line.length + (trail segments.flatten).length < cap) :
    segments.foldl (appendSegment cap) line = line ++ trail segments.flatten := by
  induction segments generalizing line with
  | nil => exact (List.append_nil line).symm
  | cons segment rest ih =>
    rw [List.flatten_cons, trail_append, List.length_append] at room
    have step : appendSegment cap line segment = line ++ trail segment := by
      unfold appendSegment
      dsimp only
      split
      · rfl
      · rename_i full
        have empty : (trail segment).length = 0 := by omega
        rw [List.length_eq_zero_iff.mp empty, List.append_nil]
    rw [List.foldl_cons, step, ih _ (by rw [List.length_append]; omega), List.flatten_cons,
      trail_append, List.append_assoc]

/-- The counter loop adds a field for each used slot if there is room for all of
them, and otherwise leaves the buffer full. -/
theorem appendCounters_eq {cap : Nat} (now : UInt64) (counters : List Counter) (line : List UInt8)
    (room : line.length < cap) :
    let whole := line ++ trail ((counters.filter Counter.used).map (counterField now))
    appendCounters cap now counters line = whole.take (cap - 1) := by
  induction counters generalizing line with
  | nil =>
    simp only [List.filter_nil, List.map_nil, trail, List.flatMap_nil, List.append_nil]
    rw [List.take_of_length_le (by omega)]
    rfl
  | cons c rest ih =>
    unfold appendCounters
    dsimp only
    by_cases full : cap - 1 ≤ line.length
    · rw [if_pos full, List.take_append_of_le_length full, List.take_of_length_le (by omega)]
    rw [if_neg full]
    cases used : c.used with
    | false =>
      rw [List.filter_cons_of_neg (by simp [used])]
      exact ih line room
    | true =>
      have split := trail_append [counterField now c]
        ((rest.filter Counter.used).map (counterField now))
      rw [List.singleton_append] at split
      rw [List.filter_cons_of_pos used, List.map_cons, split, ← List.append_assoc]
      simp only [Bool.not_true, Bool.false_eq_true, if_false]
      by_cases long : cap - line.length ≤ (trail [counterField now c]).length
      · rw [if_pos long]
        refine (List.take_append_of_le_length ?_).symm
        rw [List.length_append]
        omega
      · rw [if_neg long]
        exact ih _ (by rw [List.length_append]; omega)

theorem decimalWidth_word (n : UInt16) : decimalWidth n.toNat ≤ 5 :=
  decimalWidth_le (n.toNat_lt.trans (by decide))

theorem decimalWidth_counter (n : UInt32) : decimalWidth n.toNat ≤ 10 :=
  decimalWidth_le (n.toNat_lt.trans (by decide))

theorem decimalWidth_uptime (n : UInt64) : decimalWidth n.toNat ≤ 20 :=
  decimalWidth_le (n.toNat_lt.trans (by decide))

theorem tempWidth_le (x10 : Int16) (present : Bool) : tempWidth x10 present ≤ 7 := by
  have lower := x10.le_toInt
  have upper := x10.toInt_lt
  have digits : decimalWidth (x10.toInt.natAbs / 10) ≤ 4 := decimalWidth_le (by omega)
  unfold tempWidth
  split
  · split <;> omega
  · decide

theorem mainWidth_le (s : State) : mainWidth s ≤ 252 := by
  have mode := decimalWidth_word s.mode
  have setpoint := tempWidth_le s.tempSetpointX10 true
  have setpoint2 := tempWidth_le s.tempSetpoint2X10 true
  have supply := tempWidth_le s.tempSupplyAirX10 true
  have extract := tempWidth_le s.tempExtractAirX10 (extractPresent s)
  have outdoor := tempWidth_le s.tempOutdoorAirX10 true
  have returned := tempWidth_le s.tempReturnWaterX10 (returnPresent s)
  have cooling := decimalWidth_word s.pctCooling
  have exchanger := decimalWidth_word s.pctHeatExchanger
  have heating := decimalWidth_word s.pctHeating
  have fan := decimalWidth_word s.pctSupplyFan
  have fc10 := decimalWidth_counter s.fc10Frames
  have fc06 := decimalWidth_counter s.fc06Frames
  have crc := decimalWidth_counter s.crcFailures
  have last := decimalWidth_uptime s.lastFc10UptimeMs
  unfold mainWidth
  linarith

theorem slaveWidth_le (sl : Slave.Snapshot) : slaveWidth sl ≤ 210 := by
  have queued : (if sl.pendingMode = 0xFFFF then 4
      else decimalWidth sl.pendingMode.toNat) ≤ 5 := by
    split
    · decide
    · exact decimalWidth_word _
  have acked : (if sl.lastAckedMode = 0xFFFF then 4
      else decimalWidth sl.lastAckedMode.toNat + 1 + decimalWidth sl.lastAckUptimeMs.toNat) ≤ 26 := by
    have value := decimalWidth_word sl.lastAckedMode
    have uptime := decimalWidth_uptime sl.lastAckUptimeMs
    split <;> omega
  have setpoint : (if sl.pendingSetpoint = 0xFFFF then 4
      else decimalWidth (sl.pendingSetpoint.toNat / 10) + 10 +
        decimalWidth sl.regSetpointValue.toNat) ≤ 19 := by
    have range := sl.pendingSetpoint.toNat_lt
    have degrees : decimalWidth (sl.pendingSetpoint.toNat / 10) ≤ 4 := decimalWidth_le (by omega)
    have reg := decimalWidth_word sl.regSetpointValue
    split <;> omega
  have fc01 := decimalWidth_counter sl.fc01Serviced
  have fc03 := decimalWidth_counter sl.fc03Serviced
  have fc04 := decimalWidth_counter sl.fc04Serviced
  have fc65 := decimalWidth_counter sl.fc65Acks
  have reads := decimalWidth_counter sl.setpointReads
  unfold slaveWidth
  linarith

theorem le_decimalWidth {n k : Nat} (long : 10 ^ k ≤ n) : k + 1 ≤ decimalWidth n :=
  Nat.succ_le_succ (Nat.le_log_of_pow_le (by decide) long)

theorem le_tempWidth (x10 : Int16) (present : Bool) : 3 ≤ tempWidth x10 present := by
  have digits : 1 ≤ decimalWidth (x10.toInt.natAbs / 10) := Nat.le_add_left ..
  unfold tempWidth
  split <;> omega

theorem decimalWidth_pos (n : Nat) : 1 ≤ decimalWidth n := Nat.le_add_left ..

theorem le_mainWidth (s : State) : 162 ≤ mainWidth s := by
  have mode := decimalWidth_pos s.mode.toNat
  have setpoint := le_tempWidth s.tempSetpointX10 true
  have setpoint2 := le_tempWidth s.tempSetpoint2X10 true
  have supply := le_tempWidth s.tempSupplyAirX10 true
  have extract := le_tempWidth s.tempExtractAirX10 (extractPresent s)
  have outdoor := le_tempWidth s.tempOutdoorAirX10 true
  have returned := le_tempWidth s.tempReturnWaterX10 (returnPresent s)
  have cooling := decimalWidth_pos s.pctCooling.toNat
  have exchanger := decimalWidth_pos s.pctHeatExchanger.toNat
  have heating := decimalWidth_pos s.pctHeating.toNat
  have fan := decimalWidth_pos s.pctSupplyFan.toNat
  have fc10 := decimalWidth_pos s.fc10Frames.toNat
  have fc06 := decimalWidth_pos s.fc06Frames.toNat
  have crc := decimalWidth_pos s.crcFailures.toNat
  have last := decimalWidth_pos s.lastFc10UptimeMs.toNat
  unfold mainWidth
  linarith

/-! The line as a whole. -/

/-- The fields of the line, if it has room for all of them. -/
def stateFields (s : State) (sl : Slave.Snapshot) (now : UInt64) : List Field :=
  mainFields s ++ (slaveSegments sl).flatten ++ (usedCounters s).map (counterField now)

theorem length_stateFields (s : State) (sl : Slave.Snapshot) (now : UInt64) :
    (joined (stateFields s sl now)).length + 1 = lineWidth s sl now := by
  have counters : ∀ l : List Counter,
      (trail (l.map (counterField now))).length = (l.map (counterWidth now)).sum := by
    intro l
    induction l with
    | nil => rfl
    | cons c rest ih =>
      have split := trail_append [counterField now c] (rest.map (counterField now))
      rw [List.singleton_append] at split
      rw [List.map_cons, split, List.length_append, length_counterField, ih]
      rfl
  rw [length_joined (by simp [stateFields, mainFields]), stateFields, trail_append, trail_append,
    List.length_append, List.length_append, length_mainFields, length_slaveSegments, counters]
  rfl

/-- With the buffer of the `state` command no field is left out. A line too long for
it is cut off and loses its newline. -/
theorem formatStateLine_eq (s : State) (sl : Slave.Snapshot) (now : UInt64) :
    formatStateLine 512 s sl now =
      if lineWidth s sl now ≤ 511 then joined (stateFields s sl now) ++ ascii "\n"
      else (joined (stateFields s sl now)).take 511 := by
  have main := mainWidth_le s
  have slave := slaveWidth_le sl
  have some : mainFields s ≠ [] := by simp [mainFields]
  have opening := length_joined some
  rw [length_mainFields] at opening
  have width := length_stateFields s sl now
  have first : (joined (mainFields s)).take 511 = joined (mainFields s) :=
    List.take_of_length_le (by omega)
  have second : (slaveSegments sl).foldl (appendSegment 512) (joined (mainFields s)) =
      joined (mainFields s ++ (slaveSegments sl).flatten) := by
    rw [foldl_appendSegment _ _ (by rw [length_slaveSegments]; omega), joined_append some]
  have front : (joined (mainFields s ++ (slaveSegments sl).flatten)).length < 512 := by
    rw [joined_append some, List.length_append, length_slaveSegments]
    omega
  have third : appendCounters 512 now s.counters.toList
      (joined (mainFields s ++ (slaveSegments sl).flatten)) =
        (joined (stateFields s sl now)).take 511 := by
    have whole : joined (stateFields s sl now) =
        joined (mainFields s ++ (slaveSegments sl).flatten) ++
          trail ((usedCounters s).map (counterField now)) := joined_append (by simp [mainFields]) _
    rw [whole]
    exact appendCounters_eq now _ _ front
  unfold formatStateLine
  simp only [Nat.reduceSub, first, second, third, List.length_take]
  split
  · rw [if_pos (by omega), List.take_of_length_le (by omega)]
  · rw [if_neg (by omega)]

theorem length_formatStateLine (s : State) (sl : Slave.Snapshot) (now : UInt64) :
    (formatStateLine 512 s sl now).length = min (lineWidth s sl now) 511 := by
  have width := length_stateFields s sl now
  have newline : (ascii "\n").length = 1 := rfl
  rw [formatStateLine_eq]
  split
  · rw [List.length_append, newline]
    omega
  · rw [List.length_take]
    omega

end FlexitCs60.Ble
