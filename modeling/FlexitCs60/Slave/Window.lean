import FlexitCs60.Slave.Selection

/-! What a master reads back from the slave's responses: exactly the window of
coils or registers it asked for, and silence for any other request. -/
namespace FlexitCs60.Slave
open Wire Framing

/-- Bit `k` of a payload as a master numbers them, low bit of the first byte
first. -/
def payloadBit (payload : List UInt8) (k : Nat) : Bool :=
  (payload.getD (k / 8) 0).toBitVec.getLsbD (k % 8)

/-- The coil at an address of any size; there are none behind the table. -/
def coilAt (coils : Coils) (k : Nat) : Bool :=
  if inside : k < coilCount then coils.test ⟨k, inside⟩ else false

theorem payloadBit_zeros (n k : Nat) : payloadBit (List.replicate n 0) k = false := by
  rw [payloadBit, List.getD_eq_getElem?_getD, List.getElem?_replicate]
  split <;> exact BitVec.getLsbD_zero

/-- Masking in the bit of an index sets that bit of the payload alone. -/
theorem payloadBit_modify (payload : List UInt8) (i k : Nat) :
    payloadBit (payload.modify (i / 8) (· ||| coilMask i)) k =
      (payloadBit payload k || decide (k = i ∧ i / 8 < payload.length)) := by
  simp only [payloadBit, List.getD_eq_getElem?_getD, List.getElem?_modify]
  by_cases same : i / 8 = k / 8
  · have low : k % 8 < 8 := Nat.mod_lt _ (by decide)
    rw [same]
    by_cases inside : k / 8 < payload.length
    · have bit : (i % 8 = k % 8) ↔ k = i := by omega
      simp [inside, Coils.mask_bit i low, bit]
    · simp [inside]
  · have other : k ≠ i := by
      rintro rfl
      exact same rfl
    simp [same, other]

theorem payloadBit_ite (raised : Bool) (payload : List UInt8) (i k : Nat) :
    payloadBit (if raised then payload.modify (i / 8) (· ||| coilMask i) else payload) k =
      (payloadBit payload k || (decide (k = i ∧ i / 8 < payload.length) && raised)) := by
  cases raised
  · simp
  · rw [if_pos rfl, payloadBit_modify, Bool.and_true]

theorem length_packCoils (coils : Coils) (start : UInt16) (remaining i : Nat)
    (payload : List UInt8) :
    (packCoils coils start remaining i payload).length = payload.length := by
  induction remaining generalizing i payload with
  | zero => rfl
  | succ remaining ih =>
    simp only [packCoils]
    split
    · rfl
    · rw [ih]
      split
      · exact List.length_modify ..
      · rfl

/-- The loop from index `i` on. It breaks at the first coil behind the table,
and all later ones are behind it too, so the index never wraps. -/
theorem payloadBit_packCoils (coils : Coils) (start : UInt16) (remaining i : Nat)
    (payload : List UInt8) (unwrapped : start.toNat + i < 2 ^ 16) (k : Nat) :
    payloadBit (packCoils coils start remaining i payload) k = (payloadBit payload k ||
      (decide (i ≤ k ∧ k < i + remaining ∧ k / 8 < payload.length) &&
        coilAt coils (start.toNat + k))) := by
  induction remaining generalizing i payload with
  | zero =>
    have empty : decide (i ≤ k ∧ k < i + 0 ∧ k / 8 < payload.length) = false :=
      decide_eq_false (by omega)
    rw [packCoils, empty, Bool.false_and, Bool.or_false]
  | succ remaining ih =>
    simp only [packCoils, Nat.mod_eq_of_lt unwrapped]
    split
    · rename_i past
      by_cases behind : i ≤ k
      · have none : ¬ start.toNat + k < coilCount := by omega
        simp [coilAt, none]
      · simp [behind]
    · rename_i inside
      have small : start.toNat + i < coilCount := Nat.lt_of_not_le inside
      have coil : coilAt coils (start.toNat + i) = coils.test ⟨start.toNat + i, small⟩ :=
        dif_pos small
      have length : (if coils.test ⟨start.toNat + i, small⟩ then
          payload.modify (i / 8) (· ||| coilMask i) else payload).length = payload.length := by
        split
        · exact List.length_modify ..
        · rfl
      have next : start.toNat + (i + 1) < 2 ^ 16 := by
        have : coilCount < 2 ^ 16 := by decide
        omega
      rw [ih (i + 1) _ next, payloadBit_ite, length, ← coil, Bool.or_assoc]
      congr 1
      by_cases same : k = i
      · subst same
        simp
      · have later : (i + 1 ≤ k ∧ k < i + 1 + remaining ∧ k / 8 < payload.length) ↔
            (i ≤ k ∧ k < i + (remaining + 1) ∧ k / 8 < payload.length) := by omega
        simp only [same, false_and, decide_false, Bool.false_and, Bool.false_or, later]

section
variable [Zephyr]

/-- A read request to the slave, check sum included. -/
def request (fc : UInt8) (start qty : UInt16) : List UInt8 :=
  stampCrc ([slaveAddr, fc] ++ putBe16 start ++ putBe16 qty)

/-- The requests that are answered, sums taken without wrap-around. -/
def Servable (fc : UInt8) (start qty : Nat) : Prop :=
  fc = 0x01 ∧ 1 ≤ qty ∧ qty ≤ 472 ∨ fc = 0x03 ∧ 1 ≤ qty ∧ qty ≤ 8 ∧ start + qty ≤ 16 ∨
    fc = 0x04 ∧ 1 ≤ qty ∧ qty ≤ 4 ∧ start + qty ≤ 4

/-- The payload, read as a master does, is the requested window. -/
structure ReadsWindow (fc : UInt8) (start qty : Nat) (s : State) (payload : List UInt8) : Prop where
  coils : fc = 0x01 → payload.length = (qty + 7) / 8 ∧ ∀ k < 8 * payload.length,
    payloadBit payload k = (decide (k < qty) && coilAt s.coils (start + k))
  holding : fc = 0x03 → payload.length = 2 * qty ∧
    ∀ k < qty, s.regs[start + k]? = some (getBe16 (payload.drop (2 * k)))
  input : fc = 0x04 → payload.length = 2 * qty ∧
    ∀ k < qty, inputRegs[start + k]? = some (getBe16 (payload.drop (2 * k)))

/-- A response of the right form that carries the requested window. -/
def Answers (fc : UInt8) (start qty : Nat) (s : State) (resp : List UInt8) : Prop :=
  ∃ bc payload, resp = stampCrc ([0x01, fc, bc] ++ payload) ∧ payload.length = bc.toNat ∧
    resp.length = bc.toNat + 5 ∧ resp.length ≤ 64 ∧ ReadsWindow fc start qty s payload

/-- The response frame around a payload that fits the buffer. -/
theorem answers_of_payload {fc : UInt8} {start qty : Nat} {s : State} {payload : List UInt8}
    {bc : Nat} (size : payload.length = bc) (small : bc ≤ 59)
    (window : ReadsWindow fc start qty s payload) :
    Answers fc start qty s (stampCrc ([slaveAddr, fc, UInt8.ofNat bc] ++ payload)) := by
  have count : (UInt8.ofNat bc).toNat = bc := by
    rw [UInt8.toNat_ofNat']
    omega
  have length : (stampCrc ([slaveAddr, fc, UInt8.ofNat bc] ++ payload)).length = bc + 5 := by
    rw [length_stampCrc, List.length_append, size]
    simp only [List.length_cons, List.length_nil]
    omega
  exact ⟨UInt8.ofNat bc, payload, rfl, by rw [count, size], by rw [length, count], by omega, window⟩

omit [Zephyr] in
theorem zero_iff (qty : UInt16) : qty = 0 ↔ qty.toNat = 0 := by
  rw [← UInt16.toNat_inj]
  rfl

omit [Zephyr] in
theorem tooLong_iff (bc : Nat) : respBufSize < 3 + bc + 2 ↔ 59 < bc := by
  rw [respBufSize]
  omega

omit [Zephyr] in
/-- A builder behind a refusal answers if it is not refused and then answers. -/
theorem isSome_unless {β : Type} {refused : Prop} [Decidable refused] {rest : Option β} :
    (if refused then none else rest).isSome ↔ ¬ refused ∧ rest.isSome := by
  split
  · simp [*]
  · simp [*]

theorem buildFc01Response_isSome (coils : Coils) (start qty : UInt16) :
    (buildFc01Response coils respBufSize start qty).isSome ↔ 1 ≤ qty.toNat ∧ qty.toNat ≤ 472 := by
  simp only [buildFc01Response, zero_iff, tooLong_iff, isSome_unless, Option.isSome_some, and_true]
  omega

theorem buildFc01Response_answers (s : State) (start qty : UInt16) :
    ∀ resp ∈ buildFc01Response s.coils respBufSize start qty,
      Answers 0x01 start.toNat qty.toNat s resp := by
  intro resp built
  have served := (buildFc01Response_isSome s.coils start qty).mp
    (Option.isSome_of_mem built)
  unfold buildFc01Response at built
  simp only [zero_iff, tooLong_iff] at built
  rw [if_neg (by omega), if_neg (by omega)] at built
  obtain rfl := Option.some.inj built
  have size : (packCoils s.coils start qty.toNat 0
      (List.replicate ((qty.toNat + 7) / 8) 0)).length = (qty.toNat + 7) / 8 := by
    rw [length_packCoils, List.length_replicate]
  refine answers_of_payload size (by omega) ⟨fun _ => ⟨size, fun k inside => ?_⟩, ?_, ?_⟩
  · rw [size] at inside
    have within : k / 8 < (qty.toNat + 7) / 8 := by omega
    rw [payloadBit_packCoils _ _ _ _ _ start.toNat_lt, payloadBit_zeros, List.length_replicate]
    simp only [Nat.zero_le, Nat.zero_add, within, and_true, true_and, Bool.false_or]
  · intro other
    exact absurd other (by decide)
  · intro other
    exact absurd other (by decide)

theorem buildRegsResponse_isSome (fc : UInt8) (limit : Nat) {size : Nat} (small : limit ≤ 29)
    (table : Vector UInt16 size) (addr qty : UInt16) :
    (buildRegsResponse fc limit table respBufSize addr qty).isSome ↔
      1 ≤ qty.toNat ∧ qty.toNat ≤ limit ∧ addr.toNat + qty.toNat ≤ size := by
  simp only [buildRegsResponse, zero_iff, tooLong_iff, isSome_unless, Option.isSome_some, and_true]
  omega

/-- A register response carries the window of its table. -/
theorem buildRegsResponse_reads (fc : UInt8) (limit : Nat) {size : Nat} (small : limit ≤ 29)
    (table : Vector UInt16 size) (addr qty : UInt16) :
    ∀ resp ∈ buildRegsResponse fc limit table respBufSize addr qty, ∃ payload : List UInt8,
      resp = stampCrc ([slaveAddr, fc, UInt8.ofNat (qty.toNat * 2)] ++ payload) ∧
      payload.length = qty.toNat * 2 ∧ qty.toNat * 2 ≤ 59 ∧
      ∀ k < qty.toNat, table[addr.toNat + k]? = some (getBe16 (payload.drop (2 * k))) := by
  intro resp built
  have served := (buildRegsResponse_isSome fc limit small table addr qty).mp (Option.isSome_of_mem built)
  unfold buildRegsResponse at built
  simp only [zero_iff, tooLong_iff] at built
  rw [if_neg (by omega), if_neg (by omega), if_neg (by omega)] at built
  obtain rfl := Option.some.inj built
  refine ⟨_, rfl, by simp, by omega, fun k inside => ?_⟩
  rw [getBe16_words _ inside, Vector.getElem?_eq_getElem (by omega), Option.getD_some]

/-- The response a read request is given. -/
def response (fc : UInt8) (start qty : UInt16) (s : State) : Option (List UInt8) :=
  if fc = 0x01 then buildFc01Response s.coils respBufSize start qty
  else if fc = 0x03 then buildFc03Response s.regs respBufSize start qty
  else buildFc04Response respBufSize start qty

theorem response_isSome {fc : UInt8} (known : fc ∈ [(0x01 : UInt8), 0x03, 0x04])
    (start qty : UInt16) (s : State) :
    (response fc start qty s).isSome ↔ Servable fc start.toNat qty.toNat := by
  simp only [List.mem_cons, List.not_mem_nil, or_false] at known
  rcases known with rfl | rfl | rfl
  · simpa [Servable, response] using buildFc01Response_isSome s.coils start qty
  · simpa [Servable, response, buildFc03Response, regCount] using
      buildRegsResponse_isSome 0x03 8 (by decide) s.regs start qty
  · simpa [Servable, response, buildFc04Response, inputRegCount] using
      buildRegsResponse_isSome 0x04 inputRegCount (by decide) inputRegs start qty

theorem response_answers {fc : UInt8} (known : fc ∈ [(0x01 : UInt8), 0x03, 0x04])
    (start qty : UInt16) (s : State) :
    ∀ resp ∈ response fc start qty s, Answers fc start.toNat qty.toNat s resp := by
  intro resp built
  simp only [List.mem_cons, List.not_mem_nil, or_false] at known
  rcases known with rfl | rfl | rfl
  · exact buildFc01Response_answers s start qty resp built
  · obtain ⟨payload, rfl, size, small, words⟩ :=
      buildRegsResponse_reads 0x03 8 (by decide) s.regs start qty resp built
    exact answers_of_payload size small
      ⟨fun h => absurd h (by decide), fun _ => ⟨by omega, words⟩, fun h => absurd h (by decide)⟩
  · obtain ⟨payload, rfl, size, small, words⟩ :=
      buildRegsResponse_reads 0x04 inputRegCount (by decide) inputRegs start qty resp
        built
    exact answers_of_payload size small
      ⟨fun h => absurd h (by decide), fun h => absurd h (by decide), fun _ => ⟨by omega, words⟩⟩

/-- The handlers read the request's own address and quantity. -/
theorem handleFrame_request {fc : UInt8} (known : fc ∈ [(0x01 : UInt8), 0x03, 0x04])
    (start qty : UInt16) (tx : Transmission) (uptime : UInt64) (s : State) :
    ∃ serviced, handleFrame tx uptime (request fc start qty) s =
      respond (response fc start qty s) serviced tx s := by
  have addr : getBe16 ((request fc start qty).drop 2) = start := getBe16_putBe16 start _
  have count : getBe16 ((request fc start qty).drop 4) = qty := getBe16_putBe16 qty _
  simp only [List.mem_cons, List.not_mem_nil, or_false] at known
  rcases known with rfl | rfl | rfl
  · refine ⟨fun s => { s with fc01Serviced := s.fc01Serviced + 1 }, ?_⟩
    change handleFc01Request tx (request 0x01 start qty) s = _
    rw [handleFc01Request, addr, count]
    rfl
  · refine ⟨serviceFc03 start qty, ?_⟩
    change handleFc03Request tx (request 0x03 start qty) s = _
    rw [handleFc03Request, addr, count]
    rfl
  · refine ⟨fun s => { s with fc04Serviced := s.fc04Serviced + 1 }, ?_⟩
    change handleFc04Request tx (request 0x04 start qty) s = _
    rw [handleFc04Request, addr, count]
    rfl

theorem request_valid {fc : UInt8} (known : fc ∈ [(0x01 : UInt8), 0x03, 0x04])
    (start qty : UInt16) : ValidWindow (request fc start qty) := by
  refine ⟨_, _, _, _, _, _, _, _, rfl, ?_, rfl⟩
  simp only [List.mem_cons, List.not_mem_nil, or_false] at known
  rcases known with rfl | rfl | rfl <;> decide

/-- A read request at the front of the accumulator is taken off it and handled. -/
theorem tryDecodeAtFront_request {fc : UInt8} (known : fc ∈ [(0x01 : UInt8), 0x03, 0x04])
    (start qty : UInt16) (env : Env) (rest : List UInt8) (s : Traced) :
    tryDecodeAtFront env (request fc start qty ++ rest) (request fc start qty ++ rest).length s =
      (8, accept env (request fc start qty) s) := by
  have front : (request fc start qty ++ rest).take 8 = request fc start qty := List.take_left' rfl
  have framed : verdict (request fc start qty ++ rest) = .frame 8 :=
    verdict_frame_iff.mpr (by rw [front]; exact request_valid known start qty)
  have taken : tryDecodeAtFront env (request fc start qty ++ rest) _ s = _ :=
    matcher_frame env s framed
  rw [front] at taken
  exact taken

/-- A read request is answered exactly when it is servable, with a response that
decodes to the window it asked for; otherwise nothing is sent or changed. -/
def DecodesBack (env : Env) (fc : UInt8) (start qty : UInt16) (rest : List UInt8)
    (s : Traced) : Prop :=
  let out := tryDecodeAtFront env (request fc start qty ++ rest)
    (request fc start qty ++ rest).length s
  out.1 = 8 ∧ ∃ reply, out.2.handled = s.handled ++ [⟨request fc start qty, reply⟩] ∧
    (reply.isSome ↔ Servable fc start.toNat qty.toNat) ∧
    (¬ Servable fc start.toNat qty.toNat → out.2.state = s.state) ∧
    ∀ resp err, reply = some (resp, err) → Answers fc start.toNat qty.toNat s.state resp

theorem response_decodes_back {fc : UInt8} (known : fc ∈ [(0x01 : UInt8), 0x03, 0x04])
    (start qty : UInt16) (env : Env) (rest : List UInt8) (s : Traced) :
    DecodesBack env fc start qty rest s := by
  obtain ⟨serviced, handled⟩ := handleFrame_request known start qty (env.tx s.handled.length)
    (env.uptime s.handled.length) s.state
  have served := response_isSome known start qty s.state
  have answers := response_answers known start qty s.state
  rw [DecodesBack, tryDecodeAtFront_request known]
  refine ⟨rfl, (respond (response fc start qty s.state) serviced (env.tx s.handled.length)
    s.state).2, by rw [accept, handled], ?_, ?_, ?_⟩
  · rw [← served]
    cases response fc start qty s.state <;> rfl
  · intro unservable
    simp only [accept, handled]
    cases built : response fc start qty s.state with
    | none => rfl
    | some resp => exact absurd (served.mp (by rw [built]; rfl)) unservable
  · intro resp err sent
    cases built : response fc start qty s.state with
    | none =>
      rw [built] at sent
      contradiction
    | some body =>
      rw [built] at sent
      simp only [respond, Option.some.injEq, Prod.mk.injEq] at sent
      obtain ⟨rfl, _⟩ := sent
      exact answers body built

end

/-- The coil poll of the boot state, sixteen coils from address 0 on. -/
theorem response_decodes_back_poll :
    DecodesBack ⟨fun _ => 0, fun _ => .ok⟩ 0x01 0x0000 0x0010 [] ⟨flexitSlaveInit, []⟩ :=
  response_decodes_back (by decide) _ _ _ _ _

end FlexitCs60.Slave
