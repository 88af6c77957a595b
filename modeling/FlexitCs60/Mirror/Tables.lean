import FlexitCs60.Check

/-! The mirrored panel state and the two frame decoders that write it. -/
namespace FlexitCs60.Mirror
open Wire

def fc10Len : Nat := 179
def fc06Len : Nat := 8
def tempSentinelMaxX10 : Int16 := -1000
abbrev counterSlots : Nat := 8

def sensorExtractAir : UInt8 := 0x01
def sensorReturnWater : UInt8 := 0x02
def alarmSupplySensor : UInt8 := 0x01
def alarmOutdoorSensor : UInt8 := 0x02
def alarmOverheat : UInt8 := 0x04
def alarmHeatExchanger : UInt8 := 0x08
def alarmFilter : UInt8 := 0x10

/-- One last-seen single-register write. -/
structure Counter where
  addr : UInt16
  value : UInt16
  atMs : UInt64
  used : Bool
  deriving DecidableEq, Repr

/-- `struct panel_mirror_state` -/
structure State where
  tempSetpointX10 : Int16
  mode : UInt16
  unknown1 : UInt16
  unknown2 : UInt16
  tempSetpoint2X10 : Int16
  tempSupplyAirX10 : Int16
  tempExtractAirX10 : Int16
  tempOutdoorAirX10 : Int16
  tempReturnWaterX10 : Int16
  pctCooling : UInt16
  pctHeatExchanger : UInt16
  pctHeating : UInt16
  pctSupplyFan : UInt16
  sensorsPresent : UInt8
  alarms : UInt8
  counters : Vector Counter counterSlots
  fc10Frames : UInt32
  fc06Frames : UInt32
  crcFailures : UInt32
  lastFc10UptimeMs : UInt64
  deriving DecidableEq

/-- The zero-initialised static. -/
def initial : State where
  tempSetpointX10 := 0
  mode := 0
  unknown1 := 0
  unknown2 := 0
  tempSetpoint2X10 := 0
  tempSupplyAirX10 := 0
  tempExtractAirX10 := 0
  tempOutdoorAirX10 := 0
  tempReturnWaterX10 := 0
  pctCooling := 0
  pctHeatExchanger := 0
  pctHeating := 0
  pctSupplyFan := 0
  sensorsPresent := 0
  alarms := 0
  counters := Vector.replicate counterSlots ⟨0, 0, 0, false⟩
  fc10Frames := 0
  fc06Frames := 0
  crcFailures := 0
  lastFc10UptimeMs := 0

/-- Byte offset of a holding register in the data region of a status block. -/
def fc10RegOff (reg : Nat) : Nat := (reg - 0x00BE) * 2

/-- The bits whose conditions hold, joined. -/
def bitmask (flags : List (Bool × UInt8)) : UInt8 :=
  flags.foldl (fun mask flag => if flag.1 then mask ||| flag.2 else mask) 0

/-- The fields a status block overwrites, from the data behind its header. -/
def mirrorFc10 (regs : List UInt8) (s : State) : State :=
  let word (offset : Nat) : UInt16 := getBe16 (regs.drop offset)
  let alarm (reg : Nat) : Bool := word (fc10RegOff reg) ≠ 0
  let extract := (word 12).toInt16
  let returnWater := (word 16).toInt16
  { s with
    tempSetpointX10 := (word 0).toInt16
    mode := word 2
    unknown1 := word 4
    unknown2 := word 6
    tempSetpoint2X10 := (word 8).toInt16
    tempSupplyAirX10 := (word 10).toInt16
    tempExtractAirX10 := extract
    tempOutdoorAirX10 := (word 14).toInt16
    tempReturnWaterX10 := returnWater
    pctCooling := word 18
    pctHeatExchanger := word 20
    pctHeating := word 22
    pctSupplyFan := word 24
    sensorsPresent := bitmask [(extract > tempSentinelMaxX10, sensorExtractAir),
      (returnWater > tempSentinelMaxX10, sensorReturnWater)]
    alarms := bitmask [(alarm 0x0104, alarmSupplySensor), (alarm 0x0106, alarmOutdoorSensor),
      (alarm 0x0108, alarmOverheat), (alarm 0x010B, alarmHeatExchanger),
      (alarm 0x010C, alarmFilter)]
    fc10Frames := s.fc10Frames + 1 }

/-- Locals of the slot search. -/
structure Search where
  slot : Option (Fin counterSlots)
  freeSlot : Option (Fin counterSlots)
  lruSlot : Fin counterSlots
  lruAt : UInt64

/-- The search loop over the remaining slots; a match breaks it. -/
def searchSlots (counters : Vector Counter counterSlots) (addr : UInt16) :
    List (Fin counterSlots) → Search → Search
  | [], r => r
  | i :: rest, r =>
    let c := counters[i]
    if c.used ∧ c.addr = addr then { r with slot := some i }
    else
      let r := if !c.used ∧ r.freeSlot = none then { r with freeSlot := some i } else r
      let r := if c.used ∧ c.atMs < r.lruAt then { r with lruAt := c.atMs, lruSlot := i } else r
      searchSlots counters addr rest r

/-- The existing slot, else the first free one, else the least recently written. -/
def chooseSlot (counters : Vector Counter counterSlots) (addr : UInt16) : Fin counterSlots :=
  let r := searchSlots counters addr (List.finRange counterSlots)
    ⟨none, none, 0, counters[(0 : Fin counterSlots)].atMs⟩
  match r.slot, r.freeSlot with
  | some slot, _ => slot
  | none, some free => free
  | none, none => r.lruSlot

variable [Zephyr]

def tryDecodeFc10 (uptime : UInt64) (frame : List UInt8) (s : State) : Bool × State :=
  if crcOk frame fc10Len then
    (true, { mirrorFc10 (frame.drop 7) s with lastFc10UptimeMs := uptime })
  else (false, s)

def tryDecodeFc06 (uptime : UInt64) (frame : List UInt8) (s : State) : Bool × State :=
  if crcOk frame fc06Len then
    let addr := getBe16 (frame.drop 2)
    let value := getBe16 (frame.drop 4)
    (true, { s with
      counters := s.counters.set (chooseSlot s.counters addr) ⟨addr, value, uptime, true⟩
      fc06Frames := s.fc06Frames + 1 })
  else (false, s)

def bumpCrcFailure (s : State) : State := { s with crcFailures := s.crcFailures + 1 }

/-- `panel_mirror_cs60_link_up` with the uptime it reads. -/
def cs60LinkUp (staleMs : UInt32) (uptime : UInt64) (s : State) : Bool :=
  s.lastFc10UptimeMs ≠ 0 ∧ uptime - s.lastFc10UptimeMs ≤ staleMs.toUInt64

end FlexitCs60.Mirror
