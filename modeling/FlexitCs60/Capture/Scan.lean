import FlexitCs60.Capture.Frames
import FlexitCs60.Stream.Sweep
import Mathlib.Logic.Function.Basic

/-! The scan of `rs485-decode` over a capture. -/
namespace FlexitCs60.Capture
open Wire Framing

structure Fc03Trans where
  frame : Nat
  slave : Int
  reg : Int
  value : Int
  deriving DecidableEq, Repr

structure Fc06Trans where
  frame : Nat
  reg : UInt16
  value : Int
  deriving DecidableEq, Repr

structure CoilEvent where
  frame : Nat
  slave : UInt8
  set : List Nat
  deriving DecidableEq, Repr

structure SetpointTrans where
  frame : Nat
  setpoint : UInt16
  setpoint2 : UInt16
  deriving DecidableEq, Repr

structure Dump where
  frame : Nat
  fc : UInt8
  len : Nat
  bytes : List UInt8
  deriving DecidableEq, Repr

/-- What the scan accumulates. The lines it prints are kept as their arguments,
and `frames` is where the counted frames lie. -/
structure Report where
  total : Nat
  valid : Nat
  fcCount : UInt8 → Nat
  fc65s : List (UInt16 × UInt16)
  pendSlave : Int
  pendReg : Int
  fc03Trans : List Fc03Trans
  fc03Last : Int × Int → Int
  fc06Last : UInt16 → Option Int
  fc06Trans : List Fc06Trans
  coilEvents : List CoilEvent
  lastCoilSig : Option (UInt8 × List Nat)
  lastBE : Int
  lastC2 : Int
  beTimeline : List SetpointTrans
  windowDump : List Dump
  frames : List Piece

def Report.empty : Report where
  total := 0
  valid := 0
  fcCount _ := 0
  fc65s := []
  pendSlave := -1
  pendReg := -1
  fc03Trans := []
  fc03Last _ := 0
  fc06Last _ := none
  fc06Trans := []
  coilEvents := []
  lastCoilSig := none
  lastBE := -1
  lastC2 := -1
  beTimeline := []
  windowDump := []
  frames := []

/-- The coils of a bitmap that are up, among those numbered. -/
def setBits (bitmap : List UInt8) : List Nat → Option (List Nat)
  | [] => some []
  | bit :: later => do
    let byte ← bitmap[bit / 8]?
    let set ← setBits bitmap later
    return if byte &&& (1 <<< UInt8.ofNat (bit % 8)) ≠ 0 then bit :: set else set

namespace Report

def fc65 (f : List UInt8) (r : Report) : Option Report := do
  let reg ← be16 f 2
  let val ← be16 f 4
  return { r with fc65s := r.fc65s ++ [(reg, val)] }

def fc01 (f : List UInt8) (len : Nat) (r : Report) : Option Report :=
  if len > 8 then do
    let bc := (← f[2]?).toNat
    let bitmap ← slice f 3 (3 + bc)
    let set ← setBits bitmap (List.range (bc * 8))
    let slave ← f[0]?
    if set ≠ [] ∧ r.lastCoilSig ≠ some (slave, set) then
      return { r with
        coilEvents := r.coilEvents ++ [⟨r.valid, slave, set⟩]
        lastCoilSig := some (slave, set) }
    else return r
  else some r

def fc03 (f : List UInt8) (len : Nat) (r : Report) : Option Report :=
  if len = 8 then do
    let slave ← f[0]?
    let reg ← be16 f 2
    return { r with pendSlave := slave.toNat, pendReg := reg.toNat }
  else if len ≥ 7 ∧ r.pendReg ≥ 0 then do
    let bc ← f[2]?
    if bc.toNat ≥ 2 then
      let word ← be16 f 3
      let val : Int := word.toNat
      let key := (r.pendSlave, r.pendReg)
      if r.fc03Last key ≠ val ∨ r.fc03Trans.length = 0 then
        return { r with
          fc03Trans := r.fc03Trans ++ [⟨r.valid, r.pendSlave, r.pendReg, val⟩]
          fc03Last := Function.update r.fc03Last key val
          pendReg := -1 }
      else return { r with pendReg := -1 }
    else return { r with pendReg := -1 }
  else some r

def fc06 (f : List UInt8) (r : Report) : Option Report := do
  let reg ← be16 f 2
  let word ← be16 f 4
  let val : Int := word.toNat
  if r.fc06Last reg ≠ some val then
    return { r with
      fc06Trans := r.fc06Trans ++ [⟨r.valid, reg, val⟩]
      fc06Last := Function.update r.fc06Last reg (some val) }
  else return r

/-- A register of a status block, if the block reaches it. -/
def regAt (data : List UInt8) (addr : Nat) : Option (Option UInt16) :=
  let off := (addr - 0x00BE) * 2
  if off + 2 ≤ data.length then (be16 data off).map some else some none

def fc10 (f : List UInt8) (r : Report) : Option Report := do
  let slave ← f[0]?
  if slave = 0x00 then
    let start ← be16 f 2
    if start = 0x00BE then
      let data ← slice f 7 (f.length - 2)
      let be ← regAt data 0x00BE
      let c2 ← regAt data 0x00C2
      match be, c2 with
      | some be, some c2 =>
        if (be.toNat : Int) ≠ r.lastBE ∨ (c2.toNat : Int) ≠ r.lastC2 then
          return { r with
            beTimeline := r.beTimeline ++ [⟨r.valid, be, c2⟩]
            lastBE := be.toNat
            lastC2 := c2.toNat }
        else return r
      | _, _ => return r
    else return r
  else return r

/-- The branch of a function code. -/
def branch (fc : UInt8) (f : List UInt8) (len : Nat) (r : Report) : Option Report :=
  if fc = 0x65 then r.fc65 f
  else if fc = 0x01 then r.fc01 f len
  else if fc = 0x03 then r.fc03 f len
  else if fc = 0x06 then r.fc06 f
  else if fc = 0x10 then r.fc10 f
  else some r

/-- Dump the frame where its number is in the window of the command line. -/
def dump (window : Int × Int) (fc : UInt8) (f : List UInt8) (len : Nat) (r : Report) : Report :=
  if window.1 > 0 ∧ (r.valid : Int) ≥ window.1 ∧ (r.valid : Int) ≤ window.2 then
    { r with windowDump := r.windowDump ++ [⟨r.valid, fc, len, f⟩] }
  else r

def tally (i : Nat) (fc : UInt8) (len : Nat) (r : Report) : Report :=
  { r with
    total := r.total + 1
    valid := r.valid + 1
    fcCount := Function.update r.fcCount fc (r.fcCount fc + 1)
    frames := r.frames ++ [⟨i, len⟩] }

/-- Count a valid frame. -/
def count (window : Int × Int) (i : Nat) (f : List UInt8) (len : Nat) (r : Report) :
    Option Report := do
  let fc ← f[1]?
  let r ← (r.tally i fc len).branch fc f len
  return r.dump window fc f len

end Report

/-- The candidates of one position, in turn: the length counted, if any. -/
def tryLengths (window : Int × Int) (buf : List UInt8) (i : Nat) (r : Report) :
    List Nat → Option (Option (Nat × Report))
  | [] => some none
  | len :: rest =>
    if i + len > buf.length ∨ len < 4 then tryLengths window buf i r rest
    else do
      let f ← slice buf i (i + len)
      if ← crcOK f then return some (len, ← r.count window i f len)
      else tryLengths window buf i r rest

/-- One pass of the loop body: the next position. -/
def turn (window : Int × Int) (buf : List UInt8) (i : Nat) (r : Report) :
    Option (Nat × Report) := do
  let lengths ← candidateLengths buf i
  match ← tryLengths window buf i r lengths with
  | some (len, r) => return (i + len, r)
  | none => return (i + 1, r)

/-- The loop, for at most `fuel` passes; `none` also when they do not suffice. -/
def scan (window : Int × Int) (buf : List UInt8) : Nat → Nat → Report → Option Report
  | fuel, i, r =>
    if i + 3 < buf.length then
      match fuel with
      | 0 => none
      | fuel + 1 => do
        let (i, r) ← turn window buf i r
        scan window buf fuel i r
    else some r

end FlexitCs60.Capture
