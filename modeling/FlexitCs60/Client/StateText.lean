import FlexitCs60.Ble.StateLine
import FlexitCs60.Mirror.Eviction
import Mathlib.Algebra.Order.BigOperators.Group.List

/-! The client's reading of the state line. What it finds under each key determines
the field that was printed there; the line is in one piece exactly while the numbers
in it are short enough. -/
namespace FlexitCs60.Client
open Wire Mirror Ble TextCodec

/-- `cmdState` with the notifications that arrive in time: the text before the first
newline. -/
def cmdState (line : List UInt8) : List (List UInt8) → Option (List UInt8)
  | [] => none
  | chunk :: rest =>
    match cutAt 0x0A (line ++ chunk) with
    | some cut => some cut.1
    | none => cmdState (line ++ chunk) rest

/-- What the loop of `formatStateHuman` collects. -/
structure StateTokens where
  kv : List UInt8 → Option (List UInt8)
  cntKeys : List (List UInt8)

def stateTokens (line : List UInt8) : StateTokens where
  kv := table (fieldsOf line)
  cntKeys := ((fieldsOf line).map Prod.fst).filter fun key => ascii "CNT[" <+: key

/-! How the values are printed. -/

theorem ne_of_absent {b : UInt8} {text missing : List UInt8} (present : b ∈ text)
    (absent : b ∉ missing) : text ≠ missing := by
  rintro rfl
  exact absent present

/-- `%u`, or `none` -/
def queuedMode : TextCodec (Option Nat) :=
  unsigned.orElse (ascii "none") (by decide +kernel) fun n same =>
    absent_unsigned (b := 0x6E) rfl n (same ▸ by decide +kernel)

/-- `%u@%llu`, or `none` -/
def ackedMode : TextCodec (Option (Nat × Nat)) :=
  (pair 0x40 unsigned unsigned rfl (absent_unsigned rfl)).orElse (ascii "none")
    (by decide +kernel) fun _ =>
      ne_of_absent (List.mem_append_right _ (List.mem_cons_self ..)) (by decide +kernel)

/-- A temperature in tenths, or `n/a` -/
def temperature : TextCodec (Option Int) :=
  signedTenths.orElse (ascii "n/a") (by decide +kernel) fun x =>
    ne_of_absent (b := 0x2E) (by
      have point : (0x2E : UInt8) ∈ tenths.print x.natAbs :=
        List.mem_append_right _ (List.mem_cons_self ..)
      change _ ∈ if x < 0 then _ else _
      split
      · exact List.mem_cons_of_mem _ point
      · exact point) (by decide +kernel)

/-- `%u.%u`, or `none` -/
def queuedSetpoint : TextCodec (Option Nat) :=
  tenths.orElse (ascii "none") (by decide +kernel) fun _ =>
    ne_of_absent (List.mem_append_right _ (List.mem_cons_self ..)) (by decide +kernel)

/-- `CNT[0x%04X]` -/
def counterKey : TextCodec UInt16 :=
  (hex4.marked (ascii "CNT[0x") (by decide +kernel)).unit (ascii "]") (by decide +kernel)

/-- `%u@%llus` -/
def counterValue : TextCodec (Nat × Nat) :=
  pair 0x40 unsigned (unsigned.unit (ascii "s") (by decide +kernel)) rfl (absent_unsigned rfl)

namespace StateTokens

/-- The value under a key, read. -/
def value {α : Type*} (t : StateTokens) (key : String) (c : TextCodec α) : Option α :=
  (t.kv (ascii key)).bind c.read

/-- Under each key stands what was to be shown there. -/
structure Shows (t : StateTokens) (s : State) (sl : Slave.Snapshot) (now : UInt64) : Prop where
  mode : t.value "MODE" unsigned = some s.mode.toNat
  setpoint : t.value "SET" temperature = some (some s.tempSetpointX10.toInt)
  setpoint2 : t.value "SET2" temperature = some (some s.tempSetpoint2X10.toInt)
  supplyAir : t.value "T_SUP" temperature = some (some s.tempSupplyAirX10.toInt)
  extractAir : t.value "T_EXT" temperature =
    some (if extractPresent s then some s.tempExtractAirX10.toInt else none)
  outdoorAir : t.value "T_OUT" temperature = some (some s.tempOutdoorAirX10.toInt)
  returnWater : t.value "T_RET" temperature =
    some (if returnPresent s then some s.tempReturnWaterX10.toInt else none)
  cooling : t.value "PCT_COOL" unsigned = some s.pctCooling.toNat
  heatExchanger : t.value "PCT_HX" unsigned = some s.pctHeatExchanger.toNat
  heating : t.value "PCT_HEAT" unsigned = some s.pctHeating.toNat
  supplyFan : t.value "PCT_FAN" unsigned = some s.pctSupplyFan.toNat
  unknown1 : t.value "UNK1" hexWord = some s.unknown1
  unknown2 : t.value "UNK2" hexWord = some s.unknown2
  fc10Frames : t.value "FC10" unsigned = some s.fc10Frames.toNat
  fc06Frames : t.value "FC06" unsigned = some s.fc06Frames.toNat
  crcFailures : t.value "CRCERR" unsigned = some s.crcFailures.toNat
  lastMs : t.value "LAST_MS" unsigned = some s.lastFc10UptimeMs.toNat
  modeQueued : t.value "MODE_QUEUED" queuedMode =
    some (if sl.pendingMode = 0xFFFF then none else some sl.pendingMode.toNat)
  modeAcked : t.value "MODE_ACKED" ackedMode =
    some (if sl.lastAckedMode = 0xFFFF then none
      else some (sl.lastAckedMode.toNat, sl.lastAckUptimeMs.toNat))
  fc01 : t.value "SLV_FC01" unsigned = some sl.fc01Serviced.toNat
  fc03 : t.value "SLV_FC03" unsigned = some sl.fc03Serviced.toNat
  fc04 : t.value "SLV_FC04" unsigned = some sl.fc04Serviced.toNat
  fc65 : t.value "SLV_FC65" unsigned = some sl.fc65Acks.toNat
  coil0 : t.value "SLV_COIL0" unsigned = some sl.coil0Pending.toNat
  setpointQueued : t.value "SP_QUEUED" queuedSetpoint =
    some (if sl.pendingSetpoint = 0xFFFF then none else some sl.pendingSetpoint.toNat)
  setpointReg : sl.pendingSetpoint ≠ 0xFFFF →
    t.value "SP_REG" unsigned = some sl.regSetpointValue.toNat
  coil12 : t.value "SP_COIL12" unsigned = some sl.coilSetpointPending.toNat
  reads : t.value "SP_READS" unsigned = some sl.setpointReads.toNat
  counters : t.cntKeys.map (fun key => (counterKey.read key, (t.kv key).bind counterValue.read)) =
    (usedCounters s).map fun c => (some c.addr, some (c.value.toNat, (ageS now c).toNat))

end StateTokens

/-- The line arrives whole in one notification of at most 495 bytes, each key occurs
once, and the values tell what was printed. -/
def RoundTrips (line : List UInt8) (s : State) (sl : Slave.Snapshot) (now : UInt64) : Prop :=
  line.length ≤ 495 ∧ ∃ body, line = body ++ ascii "\n" ∧ 0x0A ∉ body ∧
    cmdState [] [line] = some body ∧ ((fieldsOf body).map Prod.fst).Nodup ∧
    (stateTokens body).Shows s sl now

/-! The printed values are those of the codecs. -/

theorem formatTempX10_print (x10 : Int16) (present : Bool) : formatTempX10 16 x10 present =
    temperature.print (if present then some x10.toInt else none) := by
  have short := length_formatTempX10 x10 present
  have few := tempWidth_le x10 present
  have text : formatTempX10 16 x10 present =
      (temperature.print (if present then some x10.toInt else none)).take 15 := by
    unfold formatTempX10
    cases present with
    | false => rfl
    | true =>
      change List.take 15 (if x10.toInt < 0 then _ else _) =
        List.take 15 (if x10.toInt < 0 then _ else _)
      congr 1
      split
      · have same : (-x10.toInt).toNat = x10.toInt.natAbs := by omega
        rw [same, List.append_assoc, List.append_assoc]
        rfl
      · have same : x10.toInt.toNat = x10.toInt.natAbs := by omega
        rw [same, List.append_assoc]
        rfl
  rw [text, List.length_take] at short
  rw [text, List.take_of_length_le (by omega)]

theorem printFlag_print (flag : Bool) : printFlag flag = unsigned.print flag.toNat := by
  cases flag <;> rfl

theorem queuedMode_print (mode : UInt16) :
    (if mode = 0xFFFF then ascii "none" else printDecimal mode.toNat) =
      queuedMode.print (if mode = 0xFFFF then none else some mode.toNat) := by
  split <;> rfl

theorem ackedMode_print (mode : UInt16) (uptime : UInt64) :
    (if mode = 0xFFFF then ascii "none"
      else printDecimal mode.toNat ++ ascii "@" ++ printDecimal uptime.toNat) =
      ackedMode.print (if mode = 0xFFFF then none else some (mode.toNat, uptime.toNat)) := by
  split
  · rfl
  · rw [List.append_assoc]
    rfl

theorem counterField_print (now : UInt64) (c : Counter) : counterField now c =
    (counterKey.print c.addr, counterValue.print (c.value.toNat, (ageS now c).toNat)) := by
  refine Prod.ext rfl ?_
  change _ ++ _ ++ _ ++ _ = _
  rw [List.append_assoc, List.append_assoc]
  rfl

theorem setpointSegment_print (sl : Slave.Snapshot) : setpointSegment sl =
    (ascii "SP_QUEUED", queuedSetpoint.print
      (if sl.pendingSetpoint = 0xFFFF then none else some sl.pendingSetpoint.toNat)) ::
      (if sl.pendingSetpoint = 0xFFFF then []
        else [(ascii "SP_REG", unsigned.print sl.regSetpointValue.toNat)]) ++
      [(ascii "SP_COIL12", unsigned.print sl.coilSetpointPending.toNat),
        (ascii "SP_READS", unsigned.print sl.setpointReads.toNat)] := by
  unfold setpointSegment
  rw [printFlag_print]
  split
  · rfl
  · rw [List.append_assoc]
    rfl

/-! The keys. -/

/-- The keys of a line without its counters, by whether a setpoint is queued. -/
def fixedKeys (queued : Bool) : List (List UInt8) :=
  (["MODE", "SET", "SET2", "T_SUP", "T_EXT", "T_OUT", "T_RET", "PCT_COOL", "PCT_HX", "PCT_HEAT",
    "PCT_FAN", "UNK1", "UNK2", "FC10", "FC06", "CRCERR", "LAST_MS", "MODE_QUEUED", "MODE_ACKED",
    "SLV_FC01", "SLV_FC03", "SLV_FC04", "SLV_FC65", "SLV_COIL0", "SP_QUEUED"] ++
    (if queued then ["SP_REG"] else []) ++ ["SP_COIL12", "SP_READS"]).map ascii

/-- The keys are distinct, and none is a counter's. -/
theorem fixedKeys_all :
    (fixedKeys true).Nodup ∧ ∀ key ∈ fixedKeys true, ¬ ascii "CNT[" <+: key := by
  -- the keys as byte literals
  simp only [fixedKeys, ascii, String.reduceToList, if_true, List.cons_append, List.nil_append,
    List.map_cons, List.map_nil, Char.reduceToNat, UInt8.reduceOfNat]
  decide +kernel

theorem fixedKeys_visible :
    ∀ key ∈ fixedKeys true, ∀ b ∈ key, 0x20 < b.toNat ∧ b.toNat ≠ 0x3D := by
  simp [fixedKeys, ascii]

theorem fixedKeys_sublist (queued : Bool) : (fixedKeys queued).Sublist (fixedKeys true) := by
  cases queued with
  | true => exact List.Sublist.refl _
  | false =>
    apply List.Sublist.map
    exact ((List.sublist_append_left ..).append_left _).append_right _

theorem fixedKeys_nodup (queued : Bool) : (fixedKeys queued).Nodup :=
  fixedKeys_all.1.sublist (fixedKeys_sublist queued)

theorem fixedKeys_apart {queued : Bool} {key : List UInt8} (member : key ∈ fixedKeys queued) :
    ¬ ascii "CNT[" <+: key :=
  fixedKeys_all.2 key ((fixedKeys_sublist queued).mem member)

theorem fixedKeys_clean {queued : Bool} {key : List UInt8} (member : key ∈ fixedKeys queued) :
    ∀ b ∈ key, isSpace b = false ∧ b ≠ 0x3D := by
  intro b inside
  obtain ⟨visible, other⟩ := fixedKeys_visible key ((fixedKeys_sublist queued).mem member) b inside
  refine ⟨isSpace_visible visible, ?_⟩
  rintro rfl
  exact other rfl

theorem counterKey_opens (addr : UInt16) : ascii "CNT[" <+: counterKey.print addr :=
  ⟨ascii "0x" ++ printHex4 addr ++ ascii "]", rfl⟩

theorem counterKey_clean (addr : UInt16) :
    ∀ b ∈ counterKey.print addr, isSpace b = false ∧ b ≠ 0x3D := by
  intro b member
  refine ⟨counterKey.solid addr b member, ?_⟩
  have digits : ∀ v < 16, hexDigit v ≠ 0x3D := by decide
  have opening : ∀ b ∈ ascii "CNT[0x", b ≠ 0x3D := by decide +kernel
  have closing : ∀ b ∈ ascii "]", b ≠ 0x3D := by decide +kernel
  rcases List.mem_append.mp member with front | last
  · rcases List.mem_append.mp front with first | hex
    · exact opening b first
    · obtain ⟨weight, _, rfl⟩ := List.mem_map.mp hex
      exact digits _ (Nat.mod_lt _ (by decide))
  · exact closing b last

theorem keys_stateFields (s : State) (sl : Slave.Snapshot) (now : UInt64) :
    (stateFields s sl now).map Prod.fst = fixedKeys (sl.pendingSetpoint ≠ 0xFFFF) ++
      (usedCounters s).map fun c => counterKey.print c.addr := by
  have counters : (usedCounters s).map (Prod.fst ∘ counterField now) =
      (usedCounters s).map fun c => counterKey.print c.addr := rfl
  rw [stateFields, List.map_append, List.map_map, counters]
  congr 1
  unfold slaveSegments
  rw [setpointSegment_print]
  by_cases none : sl.pendingSetpoint = 0xFFFF
  · rw [if_pos none, if_pos none, decide_eq_false (not_not_intro none)]
    rfl
  · rw [if_neg none, if_neg none, decide_eq_true none]
    rfl

theorem keys_nodup {s : State} (sl : Slave.Snapshot) (now : UInt64)
    (distinct : ((usedCounters s).map Counter.addr).Nodup) :
    ((stateFields s sl now).map Prod.fst).Nodup := by
  rw [keys_stateFields, List.nodup_append]
  refine ⟨fixedKeys_nodup _, ?_, ?_⟩
  · rw [show (fun c : Counter => counterKey.print c.addr) = counterKey.print ∘ Counter.addr from rfl,
      ← List.map_map]
    exact distinct.map counterKey.print_injective
  · intro key fixed other counter same
    obtain ⟨c, _, rfl⟩ := List.mem_map.mp counter
    exact fixedKeys_apart fixed (same ▸ counterKey_opens c.addr)

/-! The values. -/

theorem mainFields_solid (s : State) : ∀ f ∈ mainFields s, ∀ b ∈ f.2, isSpace b = false := by
  simp only [mainFields, formatTempX10_print, List.forall_mem_cons]
  exact ⟨unsigned.solid _, temperature.solid _, temperature.solid _, temperature.solid _,
    temperature.solid _, temperature.solid _, temperature.solid _, unsigned.solid _,
    unsigned.solid _, unsigned.solid _, unsigned.solid _, hexWord.solid _, hexWord.solid _,
    unsigned.solid _, unsigned.solid _, unsigned.solid _, unsigned.solid _, List.forall_mem_nil _⟩

theorem slaveSegments_solid (sl : Slave.Snapshot) :
    ∀ f ∈ (slaveSegments sl).flatten, ∀ b ∈ f.2, isSpace b = false := by
  have setpoint : ∀ f ∈ setpointSegment sl, ∀ b ∈ f.2, isSpace b = false := by
    rw [setpointSegment_print]
    split
    · simp only [List.cons_append, List.nil_append, List.forall_mem_cons]
      exact ⟨queuedSetpoint.solid _, unsigned.solid _, unsigned.solid _, List.forall_mem_nil _⟩
    · simp only [List.cons_append, List.nil_append, List.forall_mem_cons]
      exact ⟨queuedSetpoint.solid _, unsigned.solid _, unsigned.solid _, unsigned.solid _,
        List.forall_mem_nil _⟩
  simp only [slaveSegments, List.flatten_cons, List.flatten_nil, List.append_nil,
    List.cons_append, List.nil_append, List.forall_mem_cons, queuedMode_print, ackedMode_print,
    printFlag_print]
  exact ⟨queuedMode.solid _, ackedMode.solid _, unsigned.solid _, unsigned.solid _,
    unsigned.solid _, unsigned.solid _, unsigned.solid _, setpoint⟩

theorem stateFields_clean (s : State) (sl : Slave.Snapshot) (now : UInt64) :
    ∀ f ∈ stateFields s sl now, f.Clean := by
  intro f member
  constructor
  · have key : f.1 ∈ (stateFields s sl now).map Prod.fst := List.mem_map_of_mem member
    rw [keys_stateFields] at key
    rcases List.mem_append.mp key with fixed | counter
    · exact fixedKeys_clean fixed
    · obtain ⟨c, _, same⟩ := List.mem_map.mp counter
      rw [← same]
      exact counterKey_clean c.addr
  · rcases List.mem_append.mp member with front | counter
    · rcases List.mem_append.mp front with main | slave
      · exact mainFields_solid s f main
      · exact slaveSegments_solid sl f slave
    · obtain ⟨c, _, rfl⟩ := List.mem_map.mp counter
      rw [counterField_print]
      exact counterValue.solid _

/-- A printed value is read back. -/
theorem value_eq {α : Type*} {fields : List Field} (once : (fields.map Prod.fst).Nodup)
    (tokens : StateTokens) (kv : tokens.kv = table fields) {key : String} {c : TextCodec α} {a : α}
    (member : (ascii key, c.print a) ∈ fields) : tokens.value key c = some a := by
  rw [StateTokens.value, kv, table_eq once member]
  exact c.read_print a

theorem value_temperature {fields : List Field} (once : (fields.map Prod.fst).Nodup)
    (tokens : StateTokens) (kv : tokens.kv = table fields) {key : String} {x10 : Int16}
    (present : Bool) (member : (ascii key, formatTempX10 16 x10 present) ∈ fields) :
    tokens.value key temperature = some (if present then some x10.toInt else none) := by
  rw [formatTempX10_print] at member
  exact value_eq once tokens kv member

theorem cntKeys_eq (s : State) (sl : Slave.Snapshot) (now : UInt64) :
    ((stateFields s sl now).map Prod.fst).filter (fun key => ascii "CNT[" <+: key) =
      (usedCounters s).map fun c => counterKey.print c.addr := by
  rw [keys_stateFields, List.filter_append, List.filter_eq_nil_iff.mpr, List.nil_append,
    List.filter_eq_self]
  · intro key counter
    obtain ⟨c, _, rfl⟩ := List.mem_map.mp counter
    exact decide_eq_true (counterKey_opens c.addr)
  · intro key fixed opens
    exact fixedKeys_apart fixed (of_decide_eq_true opens)

/-- Each counter's key and its value are read back. -/
theorem counters_read {s : State} {sl : Slave.Snapshot} {now : UInt64}
    (once : ((stateFields s sl now).map Prod.fst).Nodup) :
    ((usedCounters s).map fun c => counterKey.print c.addr).map (fun key =>
      (counterKey.read key, (table (stateFields s sl now) key).bind counterValue.read)) =
        (usedCounters s).map fun c => (some c.addr, some (c.value.toNat, (ageS now c).toNat)) := by
  rw [List.map_map]
  apply List.map_congr_left
  intro c used
  have field : counterField now c ∈ stateFields s sl now :=
    List.mem_append_right _ (List.mem_map_of_mem used)
  rw [counterField_print] at field
  refine Prod.ext (counterKey.read_print c.addr) ?_
  dsimp only [Function.comp]
  rw [table_eq once field]
  exact counterValue.read_print _

theorem mem_of_main {s : State} (sl : Slave.Snapshot) (now : UInt64) (i : Nat) {f : Field}
    (here : (mainFields s)[i]? = some f) : f ∈ stateFields s sl now :=
  List.mem_append_left _ (List.mem_append_left _ (List.mem_of_getElem? here))

theorem mem_of_slave {sl : Slave.Snapshot} (s : State) (now : UInt64) (i : Nat) {f : Field}
    (here : (slaveSegments sl).flatten[i]? = some f) : f ∈ stateFields s sl now :=
  List.mem_append_left _ (List.mem_append_right _ (List.mem_of_getElem? here))

theorem mem_of_setpoint {sl : Slave.Snapshot} (s : State) (now : UInt64) {f : Field}
    (here : f ∈ setpointSegment sl) : f ∈ stateFields s sl now := by
  have segment : setpointSegment sl ∈ slaveSegments sl := by simp [slaveSegments]
  exact List.mem_append_left _ (List.mem_append_right _ (List.mem_flatten_of_mem segment here))

/-- The tokens of a line that holds every field show the state. -/
theorem stateTokens_shows {s : State} (sl : Slave.Snapshot) (now : UInt64)
    (distinct : ((usedCounters s).map Counter.addr).Nodup) :
    (stateTokens (joined (stateFields s sl now))).Shows s sl now := by
  have once := keys_nodup sl now distinct
  have parsed := fieldsOf_joined (stateFields_clean s sl now)
  have kv : (stateTokens (joined (stateFields s sl now))).kv = table (stateFields s sl now) := by
    rw [stateTokens, parsed]
  have cntKeys : (stateTokens (joined (stateFields s sl now))).cntKeys =
      (usedCounters s).map fun c => counterKey.print c.addr := by
    rw [stateTokens, parsed, cntKeys_eq]
  generalize stateTokens (joined (stateFields s sl now)) = t at kv cntKeys
  have main := @mem_of_main s sl now
  have slave := @mem_of_slave sl s now
  have queued := @mem_of_setpoint sl s now
  rw [setpointSegment_print] at queued
  exact
    { mode := value_eq once t kv (main 0 rfl)
      setpoint := value_temperature once t kv true (main 1 rfl)
      setpoint2 := value_temperature once t kv true (main 2 rfl)
      supplyAir := value_temperature once t kv true (main 3 rfl)
      extractAir := value_temperature once t kv (extractPresent s) (main 4 rfl)
      outdoorAir := value_temperature once t kv true (main 5 rfl)
      returnWater := value_temperature once t kv (returnPresent s) (main 6 rfl)
      cooling := value_eq once t kv (main 7 rfl)
      heatExchanger := value_eq once t kv (main 8 rfl)
      heating := value_eq once t kv (main 9 rfl)
      supplyFan := value_eq once t kv (main 10 rfl)
      unknown1 := value_eq once t kv (main 11 rfl)
      unknown2 := value_eq once t kv (main 12 rfl)
      fc10Frames := value_eq once t kv (main 13 rfl)
      fc06Frames := value_eq once t kv (main 14 rfl)
      crcFailures := value_eq once t kv (main 15 rfl)
      lastMs := value_eq once t kv (main 16 rfl)
      modeQueued := value_eq once t kv (slave 0
        (congrArg (fun v => some (ascii "MODE_QUEUED", v)) (queuedMode_print sl.pendingMode)))
      modeAcked := value_eq once t kv (slave 1
        (congrArg (fun v => some (ascii "MODE_ACKED", v)) (ackedMode_print _ _)))
      fc01 := value_eq once t kv (slave 2 rfl)
      fc03 := value_eq once t kv (slave 3 rfl)
      fc04 := value_eq once t kv (slave 4 rfl)
      fc65 := value_eq once t kv (slave 5 rfl)
      coil0 := value_eq once t kv (slave 6
        (congrArg (fun v => some (ascii "SLV_COIL0", v)) (printFlag_print sl.coil0Pending)))
      setpointQueued := value_eq once t kv
        (queued (List.mem_append_left _ (List.mem_cons_self ..)))
      setpointReg := fun some => value_eq once t kv (queued (List.mem_append_left _
        (List.mem_cons_of_mem _ (by rw [if_neg some]; exact List.mem_cons_self ..))))
      coil12 := value_eq once t kv
        (queued (List.mem_append_right _ (List.mem_cons_self ..)))
      reads := value_eq once t kv
        (queued (List.mem_append_right _ (List.mem_cons_of_mem _ (List.mem_cons_self ..))))
      counters := by rw [cntKeys, kv, counters_read once] }

/-! The line as it is sent. -/

theorem usedCounters_nodup {ws : List Write} {s : State} (faithful : FaithfulMap ws s.counters) :
    ((usedCounters s).map Counter.addr).Nodup := by
  refine List.pairwise_map.mpr (List.pairwise_filter.mpr ?_)
  rw [List.pairwise_iff_getElem]
  intro i j left right before first second same
  rw [Vector.length_toList] at left right
  have slots := faithful.distinct ⟨i, left⟩ ⟨j, right⟩ first second same
  exact absurd (congrArg Fin.val slots) (Nat.ne_of_lt before)

/-- A state with one slot for each address makes a line that round-trips exactly if
the line is short enough for one notification. -/
theorem roundTrips_iff {s : State} (sl : Slave.Snapshot) (now : UInt64)
    (distinct : ((usedCounters s).map Counter.addr).Nodup) :
    RoundTrips (formatStateLine 512 s sl now) s sl now ↔ lineWidth s sl now ≤ 495 := by
  have size := length_formatStateLine s sl now
  constructor
  · intro ⟨fits, _⟩
    omega
  · intro short
    have clean := stateFields_clean s sl now
    have line : formatStateLine 512 s sl now = joined (stateFields s sl now) ++ [0x0A] := by
      rw [formatStateLine_eq, if_pos (by omega)]
      rfl
    have absent : 0x0A ∉ joined (stateFields s sl now) := by
      intro newline
      rcases solid_joined clean _ newline with blank | solid
      · contradiction
      · contradiction
    refine ⟨by omega, joined (stateFields s sl now), line, absent, ?_, ?_, ?_⟩
    · rw [cmdState, List.nil_append, line, cutAt_append absent]
    · rw [fieldsOf_joined clean]
      exact keys_nodup sl now distinct
    · exact stateTokens_shows sl now distinct

section
variable [Zephyr]

/-- In every state that feeds of any bytes lead the mirror to, under uptimes that
never decrease, with any slave state and at any uptime. -/
theorem state_line_round_trips_iff {events : List (Uptime × FeedAct)} {x : Uptime × Listener}
    (run : Timed.Run FeedStep (Uptime.boot, listening) events x) (slave : Slave.State)
    (now : Uptime) :
    let s := x.2.traced.state
    let sl := Slave.flexitSlaveSnapshot slave
    RoundTrips (formatStateLine 512 s sl now.word) s sl now.word ↔
      lineWidth s sl now.word ≤ 495 := by
  have faithful : FaithfulMap (writesOf x.2.arrivals) x.2.traced.state.counters := by
    rw [(recorded_run run).2]
    exact table_faithful _
  exact roundTrips_iff _ _ (usedCounters_nodup faithful)

end

theorem slaveWidth_init : slaveWidth (Slave.flexitSlaveSnapshot Slave.flexitSlaveInit) = 127 := by
  decide +kernel

/-- Three writes of the panel at one minute of uptime. -/
def panelWrites : List Write := [⟨0x014F, 2, minute.word⟩, ⟨0x0150, 215, minute.word⟩,
  ⟨0x0151, 60, minute.word⟩]

/-- 12 seconds later. -/
def soonAfter : Uptime := ⟨72000, by decide⟩

/-- The line with three counters is read back. -/
theorem state_line_round_trips_iff_three : ∃ turns l,
    Timed.Run FeedStep (Uptime.boot, listening)
      ((minute, .feed (panelWrites.flatMap Write.frame)) :: List.replicate turns (minute, .turn))
      (minute, l) ∧
    let s := l.traced.state
    let sl := Slave.flexitSlaveSnapshot Slave.flexitSlaveInit
    usedCounters s = panelWrites.map Write.counter ∧
      RoundTrips (formatStateLine 512 s sl soonAfter.word) s sl soonAfter.word := by
  obtain ⟨turns, l, run, same⟩ := writes_run minute panelWrites (by decide) (by decide)
  refine ⟨turns, l, run, ?_⟩
  intro s sl
  have recorded := (recorded_run run).2
  rw [same] at recorded
  have used : usedCounters s = panelWrites.map Write.counter := by
    change l.traced.state.counters.toList.filter Counter.used = _
    rw [recorded]
    decide +kernel
  have main := mainWidth_le s
  have narrow : ∀ w ∈ panelWrites, counterWidth soonAfter.word w.counter ≤ 20 := by
    have aged : ∀ w ∈ panelWrites, w.counter.value.toNat < 10 ^ 3 ∧
        (ageS soonAfter.word w.counter).toNat < 10 ^ 2 := by decide +kernel
    intro w member
    have value := decimalWidth_le (aged w member).1
    have age := decimalWidth_le (aged w member).2
    unfold counterWidth
    omega
  have counters := List.sum_le_card_nsmul
    (panelWrites.map fun w => counterWidth soonAfter.word w.counter) 20 fun width member => by
      obtain ⟨w, inside, rfl⟩ := List.mem_map.mp member
      exact narrow w inside
  rw [List.length_map, Nat.nsmul_eq_mul] at counters
  have short : lineWidth s sl soonAfter.word ≤ 495 := by
    rw [lineWidth, used, slaveWidth_init, List.map_map]
    change (panelWrites.map (counterWidth soonAfter.word ∘ Write.counter)).sum ≤ 3 * 20 at counters
    omega
  exact ⟨used, (state_line_round_trips_iff run Slave.flexitSlaveInit soonAfter).mpr short⟩

/-- Eight writes of one value, at one minute of uptime. -/
def eightWrites : List Write :=
  [0x014F, 0x0150, 0x0151, 0x0152, 0x0153, 0x0154, 0x0155, 0x0156].map fun addr =>
    ⟨addr, 50000, minute.word⟩

/-- 100000 seconds later. -/
def nextDay : Uptime := ⟨100060000, by decide⟩

/-- Eight writes, and more than a day without others: even with all other numbers at
one digit the line does not fit into one notification. -/
theorem stale_counters_split_line : ∃ turns l,
    Timed.Run FeedStep (Uptime.boot, listening)
      ((minute, .feed (eightWrites.flatMap Write.frame)) :: List.replicate turns (minute, .turn))
      (minute, l) ∧
    let s := l.traced.state
    let sl := Slave.flexitSlaveSnapshot Slave.flexitSlaveInit
    495 < (formatStateLine 512 s sl nextDay.word).length ∧
      ¬ RoundTrips (formatStateLine 512 s sl nextDay.word) s sl nextDay.word := by
  obtain ⟨turns, l, run, same⟩ := writes_run minute eightWrites (by decide) (by decide)
  refine ⟨turns, l, run, ?_⟩
  intro s sl
  have recorded := (recorded_run run).2
  rw [same] at recorded
  have used : usedCounters s = eightWrites.map Write.counter := by
    change l.traced.state.counters.toList.filter Counter.used = _
    rw [recorded]
    decide +kernel
  have main := le_mainWidth s
  have wide : ∀ w ∈ eightWrites, 26 ≤ counterWidth nextDay.word w.counter := by
    have aged : ∀ w ∈ eightWrites, 10 ^ 4 ≤ w.counter.value.toNat ∧
        10 ^ 5 ≤ (ageS nextDay.word w.counter).toNat := by decide +kernel
    intro w member
    have value := le_decimalWidth (aged w member).1
    have age := le_decimalWidth (aged w member).2
    unfold counterWidth
    omega
  have counters := List.card_nsmul_le_sum
    (eightWrites.map fun w => counterWidth nextDay.word w.counter) 26 fun width member => by
      obtain ⟨w, inside, rfl⟩ := List.mem_map.mp member
      exact wide w inside
  rw [List.length_map, Nat.nsmul_eq_mul] at counters
  have long : 495 < lineWidth s sl nextDay.word := by
    rw [lineWidth, used, slaveWidth_init, List.map_map]
    change 8 * 26 ≤ (eightWrites.map (counterWidth nextDay.word ∘ Write.counter)).sum at counters
    omega
  refine ⟨?_, fun whole => ?_⟩
  · rw [length_formatStateLine]
    omega
  · have short := (state_line_round_trips_iff run Slave.flexitSlaveInit nextDay).mp whole
    exact absurd short (Nat.not_le.mpr long)

end FlexitCs60.Client
