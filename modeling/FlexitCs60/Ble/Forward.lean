import FlexitCs60.Ble.Nus

/-! `ble_transport_forward_rs485`: how a slice of bus traffic is cut into notifications,
and which of it is lost when a send fails. -/
namespace FlexitCs60.Ble

/-- What the Bluetooth host says during one call: the negotiated MTU, and what
`bt_nus_send` returns for the notification that starts at an offset. -/
structure Host where
  attMtu : UInt16
  results : Nat → Int

def Host.chunkMax (host : Host) : UInt16 := if host.attMtu > 3 then host.attMtu - 3 else 20

/-- `(uint16_t)MIN(len - off, (size_t)chunk_max)` -/
def chunkAt (chunkMax : UInt16) (len off : Nat) : UInt16 := .ofNat (min (len - off) chunkMax.toNat)

/-- The notifications sent from an offset on. Each turn advances, so one of them for
each byte suffices. -/
def forwardLoop (host : Host) (data : List UInt8) : Nat → Nat → List (List UInt8)
  | 0, _ => []
  | fuel + 1, off =>
    if off < data.length then
      let chunk := (chunkAt host.chunkMax data.length off).toNat
      if host.results off ≠ 0 then []
      else (data.drop off).take chunk :: forwardLoop host data fuel (off + chunk)
    else []

def forwardRs485 (streamActive connected : Bool) (host : Host) (data : List UInt8) :
    List (List UInt8) :=
  if !streamActive || !connected || data.length = 0 then []
  else forwardLoop host data data.length 0

theorem chunkAt_toNat (chunkMax : UInt16) (len off : Nat) :
    (chunkAt chunkMax len off).toNat = min (len - off) chunkMax.toNat := by
  have bound := chunkMax.toNat_lt
  rw [chunkAt, UInt16.toNat_ofNat']
  omega

theorem Host.chunkMax_pos (host : Host) : 0 < host.chunkMax.toNat := by
  unfold chunkMax
  split
  · rename_i above
    have three : (3 : UInt16).toNat = 3 := rfl
    rw [gt_iff_lt, UInt16.lt_iff_toNat_lt] at above
    rw [UInt16.toNat_sub_of_le _ _ (UInt16.le_iff_toNat_le.mpr (Nat.le_of_lt above))]
    omega
  · decide

/-- A slice that was cut up: what the notifications carry, and why they stop. -/
structure Forwarded (host : Host) (data : List UInt8) (sent : List (List UInt8)) : Prop where
  pieces : ∀ piece ∈ sent, piece ≠ [] ∧ piece.length ≤ host.chunkMax.toNat
  opens : sent.flatten <+: data
  stops : sent.flatten = data ∨ host.results sent.flatten.length ≠ 0

theorem forwardLoop_pieces (host : Host) (data : List UInt8) (fuel off : Nat) :
    ∀ piece ∈ forwardLoop host data fuel off, piece ≠ [] ∧ piece.length ≤ host.chunkMax.toNat := by
  induction fuel generalizing off with
  | zero => exact List.forall_mem_nil _
  | succ fuel ih =>
    unfold forwardLoop
    split
    · rename_i more
      dsimp only
      split
      · exact List.forall_mem_nil _
      · refine List.forall_mem_cons.mpr ⟨?_, ih _⟩
        have some := host.chunkMax_pos
        have length : ((data.drop off).take (chunkAt host.chunkMax data.length off).toNat).length =
            min (data.length - off) host.chunkMax.toNat := by
          rw [chunkAt_toNat, List.length_take, List.length_drop]
          omega
        constructor
        · rw [← List.length_pos_iff, length]
          omega
        · rw [length]
          exact Nat.min_le_right ..
    · exact List.forall_mem_nil _

/-- The loop sends what follows the offset, up to the first send that fails. -/
theorem forwardLoop_rest (host : Host) (data : List UInt8) {fuel off : Nat}
    (enough : data.length ≤ off + fuel) (inside : off ≤ data.length) :
    ∃ stop ≤ data.length, off + (forwardLoop host data fuel off).flatten.length = stop ∧
      data.take off ++ (forwardLoop host data fuel off).flatten = data.take stop ∧
      (stop = data.length ∨ host.results stop ≠ 0) := by
  induction fuel generalizing off with
  | zero =>
    have last : off = data.length := by omega
    exact ⟨off, inside, rfl, List.append_nil _, .inl last⟩
  | succ fuel ih =>
    unfold forwardLoop
    split
    · rename_i more
      dsimp only
      split
      · rename_i failed
        exact ⟨off, inside, rfl, List.append_nil _, .inr failed⟩
      · have some := host.chunkMax_pos
        rw [chunkAt_toNat]
        obtain ⟨stop, before, length, text, why⟩ :=
          @ih (off + min (data.length - off) host.chunkMax.toNat) (by omega) (by omega)
        refine ⟨stop, before, ?_, ?_, why⟩
        · rw [List.flatten_cons, List.length_append, List.length_take, List.length_drop, ← length]
          omega
        · rw [List.flatten_cons, ← List.append_assoc, ← List.take_add]
          exact text
    · exact ⟨off, inside, rfl, List.append_nil _, .inl (by omega)⟩

theorem forwardRs485_forwarded (host : Host) (data : List UInt8) :
    Forwarded host data (forwardRs485 true true host data) := by
  unfold forwardRs485
  split
  · rename_i nothing
    have empty : data = [] := by simpa using nothing
    exact ⟨List.forall_mem_nil _, List.nil_prefix, .inl empty.symm⟩
  · obtain ⟨stop, before, length, text, why⟩ :=
      forwardLoop_rest host data (Nat.le_add_left data.length 0) (Nat.zero_le _)
    rw [Nat.zero_add] at length
    rw [List.take_zero, List.nil_append] at text
    refine ⟨forwardLoop_pieces host data _ _, text ▸ List.take_prefix .., ?_⟩
    rw [length]
    refine why.imp_left fun whole => ?_
    rw [text, whole, List.take_length]

/-- Without a stream or a central nothing is sent. -/
theorem forwardRs485_silent {streamActive connected : Bool}
    (off : (streamActive && connected) = false) (host : Host) (data : List UInt8) :
    forwardRs485 streamActive connected host data = [] := by
  apply if_pos
  cases streamActive with
  | false => rfl
  | true =>
    cases connected with
    | false => rfl
    | true => contradiction

theorem forwardRs485_prefix (streamActive connected : Bool) (host : Host) (data : List UInt8) :
    (forwardRs485 streamActive connected host data).flatten <+: data := by
  cases on : streamActive && connected with
  | false =>
    rw [forwardRs485_silent on]
    exact List.nil_prefix
  | true =>
    obtain ⟨rfl, rfl⟩ := Bool.and_eq_true_iff.mp on
    exact (forwardRs485_forwarded host data).opens

/-- With every send taken nothing is lost. -/
theorem forwardRs485_whole {host : Host} (taken : ∀ off, host.results off = 0) (data : List UInt8) :
    (forwardRs485 true true host data).flatten = data :=
  (forwardRs485_forwarded host data).stops.resolve_right (not_not_intro (taken _))

end FlexitCs60.Ble
