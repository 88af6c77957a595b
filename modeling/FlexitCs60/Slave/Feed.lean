import FlexitCs60.Slave.Requests
import FlexitCs60.Stream.Accumulator

/-! The slave's frame matcher and `flexit_slave_feed`. -/
namespace FlexitCs60.Slave
open Wire Framing

variable [Zephyr]

def fcReqLen : Nat := 8
abbrev accumSize : Nat := 64

/-- A frame that passed its check, with the response it was given. -/
structure Handled where
  frame : List UInt8
  reply : Option (List UInt8 × Int)
  deriving DecidableEq, Repr

/-- The static state, and the history of handled frames, oldest first. -/
structure Traced where
  state : State
  handled : List Handled

/-- What the outside answers: the uptime read and the transmission's fate while
the `n`-th handled frame is processed. -/
structure Env where
  uptime : Nat → UInt64
  tx : Nat → Transmission

def bumpCrcFailure (s : State) : State := { s with crcFailures := s.crcFailures + 1 }

/-- The arm shared by the four anchors: wait for eight bytes, check the CRC,
handle the frame or slip one byte. -/
def attempt (handle : List UInt8 → State → State × Option (List UInt8 × Int))
    (accum : List UInt8) (accumLen : Nat) (s : Traced) : Nat × Traced :=
  if accumLen < fcReqLen then (0, s)
  else
    let frame := accum.take fcReqLen
    if crcOk frame fcReqLen then
      let (state, reply) := handle frame s.state
      (fcReqLen, { state, handled := s.handled ++ [⟨frame, reply⟩] })
    else (1, { s with state := bumpCrcFailure s.state })

/-- Bytes consumed, zero if more are needed. -/
def tryDecodeAtFront (env : Env) (accum : List UInt8) (accumLen : Nat) (s : Traced) : Nat × Traced :=
  if accumLen < 2 then (0, s)
  else
    let a := accum.getD 0 0
    let b := accum.getD 1 0
    let tx := env.tx s.handled.length
    let uptime := env.uptime s.handled.length
    if a = slaveAddr ∧ b = 0x01 then attempt (handleFc01Request tx) accum accumLen s
    else if a = slaveAddr ∧ b = 0x03 then attempt (handleFc03Request tx) accum accumLen s
    else if a = slaveAddr ∧ b = 0x04 then attempt (handleFc04Request tx) accum accumLen s
    else if a = 0x00 ∧ b = 0x65 then
      attempt (fun frame s => (handleFc65Broadcast uptime frame s, none)) accum accumLen s
    else (1, s)

/-- `flexit_slave_feed`. -/
def flexitSlaveFeed (env : Env) (x : Accumulator UInt8 accumSize × Traced) (data : List UInt8) :
    Accumulator UInt8 accumSize × Traced :=
  Accumulator.feed (tryDecodeAtFront env) x data

/-- The state after `flexit_slave_init`; the bytes of the accumulator are
whatever they were. -/
def booted (cells : Vector UInt8 accumSize) : Accumulator UInt8 accumSize × Traced :=
  (⟨cells, 0⟩, ⟨flexitSlaveInit, []⟩)

end FlexitCs60.Slave
