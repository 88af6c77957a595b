import FlexitCs60.Slave.Tables
import FlexitCs60.Wire.Ascii

/-! The BLE command dispatch `nus_received`, with the text parsing of its two
queueing commands. -/
namespace FlexitCs60.Ble
open Wire Slave

/-- What a command does besides changing the slave state, in order. -/
inductive Effect where
  | streamActive (active : Bool)
  /-- The line built by `format_state_line`. -/
  | stateLine
  /-- The line with the Zigbee join state. -/
  | netState
  | reply (text : List UInt8)
  | factoryReset
  | scheduleClearbond
  deriving DecidableEq, Repr

/-- `len >= sizeof(word) - 1 && memcmp(data, word, sizeof(word) - 1) == 0` -/
def startsWith (word : String) (data : List UInt8) : Bool :=
  data.take (ascii word).length = ascii word

/-- Argument of a command: what fits the 16-byte buffer behind the command word,
blanks skipped. Past its end the buffer reads as NUL. -/
def argument (skip : Nat) (data : List UInt8) : List UInt8 :=
  ((data.take 15).drop skip).dropWhile isBlank

/-- `atoi` of a string that starts with a digit; it saturates at `INT_MAX`. -/
def atoi (p : List UInt8) : Nat := min (decimal (p.takeWhile isDigit)) (2 ^ 31 - 1)

def badMode : Effect := .reply (ascii "mode: bad arg\n")
def badSetpoint : Effect := .reply (ascii "setpoint: bad arg\n")

def modeCommand (data : List UInt8) (s : Slave.State) : Slave.State × List Effect :=
  let p := argument 4 data
  if isDigit (p.getD 0 0) then
    let mode := atoi p
    let (err, s) := flexitSlaveQueueMode (UInt16.ofNat mode) s
    if err = 0 then
      (s, [.reply (ascii "mode: queued=" ++ printDecimal mode ++ ascii "\n")])
    else (s, [badMode])
  else (s, [badMode])

/-- The setpoint loops: whole degrees, then one optional decimal, in tenths. -/
def parseTenths (p : List UInt8) : Nat :=
  let whole := decimal (p.takeWhile isDigit)
  let p := p.dropWhile isDigit
  let tenths :=
    if p.getD 0 0 = 0x2E ∧ isDigit (p.getD 1 0) then digitValue (p.getD 1 0) else 0
  whole * 10 + tenths

def clampTenths (dc : Nat) : Nat := if dc < 100 then 100 else if dc > 300 then 300 else dc

def setpointReply (dc : Nat) : Effect :=
  .reply (ascii "setpoint: queued=" ++ printDecimal (dc / 10) ++ ascii "." ++
    printDecimal (dc % 10) ++ ascii " C\n")

def setpointCommand (data : List UInt8) (s : Slave.State) : Slave.State × List Effect :=
  let p := argument 8 data
  if isDigit (p.getD 0 0) then
    let dc := clampTenths (parseTenths p)
    ((flexitSlaveQueueSetpoint (UInt16.ofNat dc) s).2, [setpointReply dc])
  else (s, [badSetpoint])

def nusReceived (data : List UInt8) (s : Slave.State) : Slave.State × List Effect :=
  if startsWith "stream" data then (s, [.streamActive true])
  else if startsWith "state" data then (s, [.stateLine])
  else if startsWith "zbstate" data then (s, [.netState])
  else if startsWith "stop" data then (s, [.streamActive false])
  else if startsWith "zbreset" data then
    (s, [.reply (ascii "zbreset: leaving Zigbee network, clearing NVRAM, rebooting\n"),
      .factoryReset])
  else if startsWith "clearbond" data then
    (s, [.reply (ascii "clearbond: removing bond, disconnecting (re-pair on next connect)\n"),
      .scheduleClearbond])
  else if startsWith "mode" data then modeCommand data s
  else if startsWith "setpoint" data then setpointCommand data s
  else (s, [])

example : (nusReceived (ascii "setpoint 20.5") flexitSlaveInit).2 =
    [.reply (ascii "setpoint: queued=20.5 C\n")] := by decide +kernel

theorem clampTenths_bounds (dc : Nat) : 100 ≤ clampTenths dc ∧ clampTenths dc ≤ 300 := by
  unfold clampTenths
  split
  · decide
  · split <;> omega

/-- All a payload can do to the slave is queue a mode, or a setpoint in range. -/
theorem nusReceived_queues (data : List UInt8) (s : Slave.State) :
    (nusReceived data s).1 = s ∨
      (∃ mode, (nusReceived data s).1 = (flexitSlaveQueueMode mode s).2) ∨
      ∃ dc, (nusReceived data s).1 =
        (flexitSlaveQueueSetpoint (UInt16.ofNat (clampTenths dc)) s).2 := by
  have mode : (modeCommand data s).1 = s ∨
      ∃ mode, (modeCommand data s).1 = (flexitSlaveQueueMode mode s).2 := by
    unfold modeCommand
    dsimp only
    split
    · right
      refine ⟨UInt16.ofNat (atoi (argument 4 data)), ?_⟩
      split <;> rfl
    · exact .inl rfl
  have setpoint : (setpointCommand data s).1 = s ∨ ∃ dc, (setpointCommand data s).1 =
      (flexitSlaveQueueSetpoint (UInt16.ofNat (clampTenths dc)) s).2 := by
    unfold setpointCommand
    dsimp only
    split
    · exact .inr ⟨_, rfl⟩
    · exact .inl rfl
  unfold nusReceived
  iterate 6
    split
    · exact .inl rfl
  split
  · exact mode.imp_right .inl
  split
  · exact setpoint.imp_right .inr
  · exact .inl rfl

end FlexitCs60.Ble
