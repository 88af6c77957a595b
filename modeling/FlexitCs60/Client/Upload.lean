import FlexitCs60.Client.Smp
import FlexitCs60.Client.Values
import FlexitCs60.Wire.Cbor
import FlexitCs60.Wire.Slice

/-! `imageUpload`, against a server that answers each request as it likes. -/
namespace FlexitCs60.Client
open Smp Wire Cbor

/-- The libraries the upload calls. -/
class Libraries where
  marshal : List (String × Item) → Option (List UInt8)
  sha256 : List UInt8 → List UInt8

export Libraries (marshal sha256)

def opWriteReq : UInt8 := 2
def groupImage : UInt16 := 1
def cmdImageUpload : UInt8 := 1

/-- What comes of one `call`: an error, a payload that does not decode, or a map. -/
inductive Answer where
  | callFailed
  | undecodable
  | response (rm : List (String × Value))

inductive UploadError where
  | encode
  | call (off : Nat)
  | decode
  | rc (rc : UInt64) (off : Nat)
  | stalled (off : Nat)
  deriving DecidableEq, Repr

inductive Status where
  | uploaded
  | failed (e : UploadError)
  /-- a slice expression out of range -/
  | panicked
  /-- still in the loop -/
  | unfinished
  deriving DecidableEq, Repr

structure Chunk where
  off : Nat
  data : List UInt8
  sha : Option (List UInt8)
  deriving DecidableEq, Repr

/-- The map of a request for an image of `len` bytes. -/
def Chunk.entries (len : Nat) (c : Chunk) : List (String × Item) :=
  [("image", .uint 0), ("len", .uint len), ("off", .uint c.off), ("data", .bytes c.data)] ++
    match c.sha with
    | some h => [("sha", .bytes h)]
    | none => []

/-- A chunk, and the frame that carried it. -/
structure Request where
  chunk : Chunk
  frame : List UInt8
  deriving DecidableEq, Repr

structure Upload where
  requests : List Request
  status : Status
  deriving DecidableEq, Repr

def chunkSize (mtu : Int) : Nat :=
  if mtu > 0 then
    let cs := mtu - 96
    if cs > 0 then cs.toNat else 128
  else 128

/-- `int(n)` of a `uint64`. -/
def goInt (n : UInt64) : Int := n.toInt64.toInt

/-- `rm[key].(uint64)` -/
def uintAt (key : String) (rm : List (String × Value)) : Option UInt64 :=
  match rm.lookup key with
  | some (.uint n) => some n
  | _ => none

/-- The next offset after a chunk `[off, stop)`, from the response. -/
def nextOff (off stop : Nat) (rm : List (String × Value)) : Except UploadError Nat :=
  let rcInt := (uintAt "rc" rm).getD 0
  if rcInt ≠ 0 then .error (.rc rcInt off)
  else
    match uintAt "off" rm with
    | some n => if goInt n ≤ off then .error (.stalled off) else .ok (goInt n).toNat
    | none => .ok stop

def answered (off stop : Nat) : Answer → Except UploadError Nat
  | .callFailed => .error (.call off)
  | .undecodable => .error .decode
  | .response rm => nextOff off stop rm

def uploadFrame (seq : UInt8) (payload : List UInt8) : List UInt8 :=
  encodeSmpHeader ⟨opWriteReq, 0, UInt16.ofNat payload.length, groupImage, seq, cmdImageUpload⟩ ++
    payload

variable [Libraries]

/-- The chunk of a pass at `off`. -/
def chunkAt (image : List UInt8) (off : Nat) (data : List UInt8) : Chunk :=
  ⟨off, data, if off = 0 then some (sha256 image) else none⟩

/-- The upload loop, for at most `fuel` passes; `answers n` is what the `n`-th call
comes to, and `seq` its sequence number. -/
def uploadLoop (image : List UInt8) (size : Nat) (answers : Nat → Answer) :
    Nat → Nat → Nat → UInt8 → Upload
  | fuel, n, off, seq =>
    if off < image.length then
      match fuel with
      | 0 => ⟨[], .unfinished⟩
      | fuel + 1 =>
        let stop := if off + size > image.length then image.length else off + size
        match slice image off stop with
        | none => ⟨[], .panicked⟩
        | some data =>
          let chunk := chunkAt image off data
          match marshal (chunk.entries image.length) with
          | none => ⟨[], .failed .encode⟩
          | some payload =>
            let request : Request := ⟨chunk, uploadFrame seq payload⟩
            match answered off stop (answers n) with
            | .error e => ⟨[request], .failed e⟩
            | .ok next =>
              let later := uploadLoop image size answers fuel (n + 1) next (seq + 1)
              ⟨request :: later.requests, later.status⟩
    else ⟨[], .uploaded⟩

def imageUpload (image : List UInt8) (mtu : Int) (answers : Nat → Answer) (seq : UInt8)
    (fuel : Nat) : Upload :=
  uploadLoop image (chunkSize mtu) answers fuel 0 0 seq

end FlexitCs60.Client
