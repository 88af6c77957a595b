import FlexitCs60.System.Labelled
import FlexitCs60.Wire.Bytes
import Mathlib.Logic.Function.Basic

/-! The client's SMP transport: one call at a time, with the device's response
fragments reaching `onNotify` whenever they like. -/
namespace FlexitCs60.Client.Smp
open Labelled Wire

structure SmpHeader where
  op : UInt8
  flags : UInt8
  len : UInt16
  group : UInt16
  seq : UInt8
  id : UInt8
  deriving DecidableEq, Repr

def encodeSmpHeader (h : SmpHeader) : List UInt8 :=
  [h.op, h.flags] ++ putBe16 h.len ++ putBe16 h.group ++ [h.seq, h.id]

def decodeSmpHeader (b : List UInt8) : Option SmpHeader :=
  if b.length < 8 then none
  else some {
    op := b.getD 0 0
    flags := b.getD 1 0
    len := getBe16 (b.drop 2)
    group := getBe16 (b.drop 4)
    seq := b.getD 6 0
    id := b.getD 7 0 }

@[simp] theorem length_encodeSmpHeader (h : SmpHeader) : (encodeSmpHeader h).length = 8 := rfl

/-- The header is read back from a frame, and from a fragment that covers it. -/
theorem decodeSmpHeader_take (h : SmpHeader) (body : List UInt8) {n : Nat} (covers : 8 ≤ n) :
    decodeSmpHeader ((encodeSmpHeader h ++ body).take n) = some h := by
  obtain ⟨rest, rfl⟩ := Nat.exists_eq_add_of_le covers
  have front : (encodeSmpHeader h ++ body).take (8 + rest) =
      encodeSmpHeader h ++ body.take rest := by
    rw [List.take_append, List.take_of_length_le (by simp)]
    simp
  have len : getBe16 ((encodeSmpHeader h ++ body.take rest).drop 2) = h.len :=
    getBe16_putBe16 h.len _
  have group : getBe16 ((encodeSmpHeader h ++ body.take rest).drop 4) = h.group :=
    getBe16_putBe16 h.group _
  rw [front, decodeSmpHeader, if_neg (by simp), len, group]
  rfl

/-- The response assembly of `smpTransport`, and its counter. -/
structure Transport where
  seq : UInt8
  respBuf : List UInt8
  respWant : Nat
  respCh : Option (List UInt8)
  deriving DecidableEq, Repr

def newSmpTransport : Transport := ⟨0, [], 0, none⟩

namespace Transport

/-- Append a fragment, and hand the buffer over once it is long enough. A channel
that is full keeps what it has. -/
def assemble (buf : List UInt8) (want : Nat) (t : Transport) : Transport :=
  let full := t.respBuf ++ buf
  if want ≤ full.length then
    { t with respBuf := [], respWant := 0, respCh := some (t.respCh.getD full) }
  else { t with respBuf := full, respWant := want }

def onNotify (buf : List UInt8) (t : Transport) : Transport :=
  if t.respBuf.length = 0 then
    match decodeSmpHeader buf with
    | none => t
    | some h => t.assemble buf (8 + h.len.toNat)
  else t.assemble buf t.respWant

end Transport

/-- What the device answers to one request, apart from the header fields it repeats. -/
structure Reply where
  op : UInt8
  flags : UInt8
  body : List UInt8
  short : body.length < 2 ^ 16

def Reply.header (reply : Reply) (request : SmpHeader) : SmpHeader where
  op := reply.op
  flags := reply.flags
  len := UInt16.ofNat reply.body.length
  group := request.group
  seq := request.seq
  id := request.id

/-- The response frame. -/
def Reply.frame (reply : Reply) (request : SmpHeader) : List UInt8 :=
  encodeSmpHeader (reply.header request) ++ reply.body

/-- A call, by its number, with the header of its request. -/
structure Call where
  number : Nat
  request : SmpHeader
  deriving DecidableEq, Repr

/-- The next step of `call`, which runs under `mu`. -/
inductive Caller where
  | idle
  | drain (call : Call)
  | write (call : Call)
  | wait (call : Call)
  deriving DecidableEq, Repr

/-- A call that came back: with a payload, or with an error. -/
structure Returned where
  call : Call
  payload : Option (List UInt8)
  deriving DecidableEq, Repr

structure State where
  transport : Transport
  caller : Caller
  calls : Nat
  /-- What of the response to each call has yet to reach `onNotify`. -/
  outstanding : Nat → List UInt8
  history : List Returned

def State.boot : State := ⟨newSmpTransport, .idle, 0, fun _ => [], []⟩

inductive Act where
  | call (op group id : UInt8) (payload : List UInt8)
  | drain
  | write
  | writeError
  | receive
  | timeout
  /-- The next `count` bytes of the response to a call, in one notification. -/
  | notify (number count : Nat)
  deriving DecidableEq, Repr

namespace State

/-- Take the next sequence number and build the request header. -/
def begin (op group id : UInt8) (payload : List UInt8) (s : State) : State :=
  let request : SmpHeader :=
    ⟨op, 0, UInt16.ofNat payload.length, group.toUInt16, s.transport.seq, id⟩
  { s with
    transport := { s.transport with seq := s.transport.seq + 1 }
    caller := .drain ⟨s.calls, request⟩
    calls := s.calls + 1 }

def drain (call : Call) (s : State) : State :=
  { s with transport := { s.transport with respCh := none }, caller := .write call }

/-- The request is out, and the device has its response to send. -/
def write (reply : Reply) (call : Call) (s : State) : State :=
  { s with
    caller := .wait call
    outstanding := Function.update s.outstanding call.number (reply.frame call.request) }

def leave (call : Call) (payload : Option (List UInt8)) (s : State) : State :=
  { s with caller := .idle, history := s.history ++ [⟨call, payload⟩] }

/-- Strip the header of what came through the channel. -/
def receive (call : Call) (resp : List UInt8) (s : State) : State :=
  { s with transport := { s.transport with respCh := none } }.leave call (some (resp.drop 8))

def notify (number count : Nat) (s : State) : State :=
  let rest := s.outstanding number
  { s with
    transport := s.transport.onNotify (rest.take count)
    outstanding := Function.update s.outstanding number (rest.drop count) }

end State

/-- The client and a device that answers the `n`-th call with `replies n`. -/
inductive Step (replies : Nat → Reply) (s : State) : Act → State → Prop where
  | call (op group id : UInt8) (payload : List UInt8) : s.caller = .idle →
      Step replies s (.call op group id payload) (s.begin op group id payload)
  | drain (call : Call) : s.caller = .drain call → Step replies s .drain (s.drain call)
  | write (call : Call) : s.caller = .write call →
      Step replies s .write (s.write (replies call.number) call)
  | writeError (call : Call) : s.caller = .write call →
      Step replies s .writeError (s.leave call none)
  | receive (call : Call) (resp : List UInt8) : s.caller = .wait call →
      s.transport.respCh = some resp → Step replies s .receive (s.receive call resp)
  | timeout (call : Call) : s.caller = .wait call → Step replies s .timeout (s.leave call none)
  | notify (number count : Nat) : 0 < count → count ≤ (s.outstanding number).length →
      Step replies s (.notify number count) (s.notify number count)

end FlexitCs60.Client.Smp
