import FlexitCs60.Mirror.Tables
import FlexitCs60.Stream.Accumulator

/-! The mirror's frame matcher and `panel_mirror_feed`. -/
namespace FlexitCs60.Mirror
open Wire Framing

variable [Zephyr]

abbrev accumSize : Nat := 256

/-- The static state, and the history of accepted frames, oldest first. -/
structure Traced where
  state : State
  accepted : List (List UInt8)

/-- The uptime read while the `n`-th accepted frame is decoded. -/
abbrev Clock := Nat → UInt64

/-- Keep what a decoder did to a frame, or count its failure and slip a byte. -/
def settle (decoder : List UInt8 → State → Bool × State) (len : Nat) (accum : List UInt8)
    (s : Traced) : Nat × Traced :=
  let frame := accum.take len
  let (ok, state) := decoder frame s.state
  if ok then (len, ⟨state, s.accepted ++ [frame]⟩)
  else (1, { s with state := bumpCrcFailure state })

/-- Bytes consumed, zero if not yet decidable. -/
def tryDecodeAtFront (clock : Clock) (accum : List UInt8) (accumLen : Nat) (s : Traced) :
    Nat × Traced :=
  let byte (i : Nat) : UInt8 := accum.getD i 0
  let uptime := clock s.accepted.length
  if accumLen < 2 then (0, s)
  else if byte 0 = 0x00 ∧ byte 1 = 0x10 then
    if accumLen < 7 then (0, s)
    else if byte 2 = 0x00 ∧ byte 3 = 0xBE ∧ byte 4 = 0x00 ∧ byte 5 = 0x55 ∧ byte 6 = 0xAA then
      if accumLen < fc10Len then (0, s)
      else settle (tryDecodeFc10 uptime) fc10Len accum s
    else (1, s)
  else if byte 0 = 0x00 ∧ byte 1 = 0x06 then
    if accumLen < fc06Len then (0, s)
    else settle (tryDecodeFc06 uptime) fc06Len accum s
  else (1, s)

/-- `panel_mirror_feed`. -/
def panelMirrorFeed (clock : Clock) (x : Accumulator UInt8 accumSize × Traced)
    (data : List UInt8) : Accumulator UInt8 accumSize × Traced :=
  Accumulator.feed (tryDecodeAtFront clock) x data

/-- The zeroed statics, with nothing seen yet. -/
def booted : Accumulator UInt8 accumSize × Traced :=
  (⟨Vector.replicate accumSize 0, 0⟩, ⟨initial, []⟩)

end FlexitCs60.Mirror
