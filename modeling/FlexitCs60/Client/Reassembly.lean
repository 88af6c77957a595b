import FlexitCs60.Client.Smp

/-! Response frames in fragments, put together again by `onNotify`. -/
namespace FlexitCs60.Client.Smp

/-- A response frame as the device cuts it up. -/
structure Delivery where
  header : SmpHeader
  body : List UInt8
  sized : header.len.toNat = body.length
  first : List UInt8
  rest : List (List UInt8)
  whole : first ++ rest.flatten = encodeSmpHeader header ++ body
  covers : 8 ≤ first.length
  nonempty : ∀ fragment ∈ rest, fragment ≠ []

namespace Delivery

def frame (d : Delivery) : List UInt8 := encodeSmpHeader d.header ++ d.body

def fragments (d : Delivery) : List (List UInt8) := d.first :: d.rest

/-- What each of its fragments should hand over: nothing, until the last. -/
def handedOver (d : Delivery) : List (Option (List UInt8)) :=
  List.replicate d.rest.length none ++ [some d.frame]

end Delivery

namespace Transport

/-- Deliver fragments, emptying the channel behind each: what each call handed over. -/
def notifyAll : Transport → List (List UInt8) → List (Option (List UInt8)) × Transport
  | t, [] => ([], t)
  | t, fragment :: later =>
    let t := t.onNotify fragment
    let (frames, last) := notifyAll { t with respCh := none } later
    (t.respCh :: frames, last)

theorem notifyAll_cons (t : Transport) (fragment : List UInt8) (later : List (List UInt8)) :
    notifyAll t (fragment :: later) =
      ((t.onNotify fragment).respCh ::
          (notifyAll { t.onNotify fragment with respCh := none } later).1,
        (notifyAll { t.onNotify fragment with respCh := none } later).2) := rfl

theorem notifyAll_append (t : Transport) (first second : List (List UInt8)) :
    notifyAll t (first ++ second) =
      ((notifyAll t first).1 ++ (notifyAll (notifyAll t first).2 second).1,
        (notifyAll (notifyAll t first).2 second).2) := by
  induction first generalizing t with
  | nil => rfl
  | cons fragment later ih =>
    rw [List.cons_append, notifyAll_cons, notifyAll_cons, ih]
    rfl

theorem assemble_short {t : Transport} {buf : List UInt8} {want : Nat}
    (short : (t.respBuf ++ buf).length < want) :
    t.assemble buf want = { t with respBuf := t.respBuf ++ buf, respWant := want } :=
  if_neg (Nat.not_le_of_lt short)

theorem assemble_full {t : Transport} (channel : t.respCh = none) (buf : List UInt8) :
    t.assemble buf (t.respBuf ++ buf).length =
      { t with respBuf := [], respWant := 0, respCh := some (t.respBuf ++ buf) } := by
  rw [assemble, if_pos (Nat.le_refl _), channel]
  rfl

theorem onNotify_first {t : Transport} (empty : t.respBuf = []) {buf : List UInt8} {h : SmpHeader}
    (read : decodeSmpHeader buf = some h) : t.onNotify buf = t.assemble buf (8 + h.len.toNat) := by
  rw [onNotify, empty, read]
  rfl

theorem onNotify_later {t : Transport} (begun : t.respBuf ≠ []) (buf : List UInt8) :
    t.onNotify buf = t.assemble buf t.respWant := by
  apply if_neg
  rw [List.length_eq_zero_iff]
  exact begun

/-- Once the wanted length is the frame's, the fragment that completes the frame hands
it over and none before it does. The induction is on the fragments still to come. -/
theorem notifyAll_rest {t : Transport} {frame fragment : List UInt8} {later : List (List UInt8)}
    (channel : t.respCh = none) (reads : t.onNotify fragment = t.assemble fragment frame.length)
    (parts : t.respBuf ++ fragment ++ later.flatten = frame) (filled : fragment ≠ [])
    (nonempty : ∀ next ∈ later, next ≠ []) :
    notifyAll t (fragment :: later) =
      (List.replicate later.length none ++ [some frame], { t with respBuf := [], respWant := 0 }) := by
  induction later generalizing t fragment with
  | nil =>
    have complete : t.respBuf ++ fragment = frame := by
      rw [← parts, List.flatten_nil, List.append_nil]
    have full := assemble_full channel fragment
    rw [complete] at full
    rw [notifyAll_cons, reads, full, notifyAll]
    cases t
    cases channel
    rfl
  | cons next later ih =>
    have pending : next ≠ [] := nonempty next List.mem_cons_self
    have joined : t.respBuf ++ fragment ++ next ++ later.flatten = frame := by
      rw [← parts, List.flatten_cons, List.append_assoc _ next]
    have short : (t.respBuf ++ fragment).length < frame.length := by
      have lengths := congrArg List.length joined
      have := List.length_pos_iff.mpr pending
      rw [List.length_append, List.length_append] at lengths
      omega
    have held : t.onNotify fragment =
        { t with respBuf := t.respBuf ++ fragment, respWant := frame.length } :=
      reads.trans (assemble_short short)
    have begun : t.respBuf ++ fragment ≠ [] := List.append_ne_nil_of_right_ne_nil _ filled
    have rest := ih (t := { t with respBuf := t.respBuf ++ fragment, respWant := frame.length })
      channel (onNotify_later begun next) joined pending
      fun other among => nonempty other (List.mem_cons_of_mem _ among)
    rw [notifyAll_cons, held]
    dsimp only
    rw [← channel, rest, channel]
    rfl

theorem notifyAll_delivery {t : Transport} (empty : t.respBuf = []) (channel : t.respCh = none)
    (d : Delivery) :
    notifyAll t d.fragments = (d.handedOver, { t with respBuf := [], respWant := 0 }) := by
  have opening : d.first = d.frame.take d.first.length := by
    rw [Delivery.frame, ← d.whole, List.take_left]
  have read : decodeSmpHeader d.first = some d.header := by
    rw [opening]
    exact decodeSmpHeader_take _ _ d.covers
  have total : d.frame.length = 8 + d.header.len.toNat := by
    rw [Delivery.frame, List.length_append, length_encodeSmpHeader, d.sized]
  have filled : d.first ≠ [] := by
    intro none
    have covers := d.covers
    rw [none, List.length_nil] at covers
    omega
  apply notifyAll_rest channel _ _ filled d.nonempty
  · rw [onNotify_first empty read, total]
  · rw [empty, List.nil_append, d.whole]
    rfl

end Transport

open Transport

/-- Any frames, each cut into any fragments, come out whole and in order, each from
the call that delivers its last fragment, and leave nothing behind. -/
theorem reassembly_lossless (deliveries : List Delivery) {t : Transport}
    (empty : t.respBuf = []) (channel : t.respCh = none) :
    (notifyAll t (deliveries.flatMap Delivery.fragments)).1 =
        deliveries.flatMap Delivery.handedOver ∧
      (notifyAll t (deliveries.flatMap Delivery.fragments)).2.respBuf = [] ∧
      (notifyAll t (deliveries.flatMap Delivery.fragments)).2.respCh = none := by
  induction deliveries generalizing t with
  | nil => exact ⟨rfl, empty, channel⟩
  | cons d later ih =>
    obtain ⟨frames, buffer, emptied⟩ :=
      ih (t := { t with respBuf := [], respWant := 0 }) rfl channel
    rw [List.flatMap_cons, notifyAll_append, notifyAll_delivery empty channel, List.flatMap_cons]
    exact ⟨congrArg (d.handedOver ++ ·) frames, buffer, emptied⟩

/-- A frame without a body in one fragment, then one whose last byte comes alone. -/
def emptyThenSplit : List Delivery :=
  [{ header := ⟨3, 0, 0, 1, 7, 0⟩
     body := []
     sized := rfl
     first := [3, 0, 0, 0, 0, 1, 7, 0]
     rest := []
     whole := rfl
     covers := by decide
     nonempty := by decide },
   { header := ⟨3, 0, 2, 1, 8, 0⟩
     body := [0xBF, 0xFF]
     sized := rfl
     first := [3, 0, 0, 2, 0, 1, 8, 0]
     rest := [[0xBF], [0xFF]]
     whole := rfl
     covers := by decide
     nonempty := by decide }]

theorem reassembly_lossless_split :
    (notifyAll newSmpTransport (emptyThenSplit.flatMap Delivery.fragments)).1 =
      [some [3, 0, 0, 0, 0, 1, 7, 0], none, none,
        some [3, 0, 0, 2, 0, 1, 8, 0, 0xBF, 0xFF]] :=
  (reassembly_lossless emptyThenSplit rfl rfl).1

end FlexitCs60.Client.Smp
