import FlexitCs60.Ble.Nus

/-! Which mode a BLE command queues: of its argument the firmware sees what lies in the
first fifteen bytes, cut to sixteen bits. -/
namespace FlexitCs60.Ble
open Wire Slave

/-- The blanks behind the command word. -/
def modeBlanks (data : List UInt8) : Nat := ((data.drop 4).takeWhile isBlank).length

/-- The digits behind them, in the whole payload. -/
def modeDigits (data : List UInt8) : List UInt8 :=
  ((data.drop 4).dropWhile isBlank).takeWhile isDigit

/-- The value of those digits that lie in the first fifteen bytes. -/
def seenMode (data : List UInt8) : Nat := decimal ((modeDigits data).take (11 - modeBlanks data))

def modeReply (n : Nat) : Effect := .reply (ascii "mode: queued=" ++ printDecimal n ++ ascii "\n")

/-- The command queues the number that was sent, or refuses it and changes nothing. -/
def QueuesSent (data : List UInt8) (s : Slave.State) : Prop :=
  if modeDigits data = [] ∨ 3 < decimal (modeDigits data) then
    (nusReceived data s).1.coils = s.coils ∧ (nusReceived data s).1.regs = s.regs ∧
      (nusReceived data s).1.pendingMode = s.pendingMode ∧ (nusReceived data s).2 = [badMode]
  else
    (nusReceived data s).1 =
        (flexitSlaveQueueMode (UInt16.ofNat (decimal (modeDigits data))) s).2 ∧
      (nusReceived data s).2 = [modeReply (decimal (modeDigits data))]

/-- The payloads whose argument is read right. A zero needs one digit among the first
fifteen bytes, another mode all of them; a larger number must not look like a mode there. -/
def ArgumentSeen (data : List UInt8) : Prop :=
  modeDigits data = [] ∨
  decimal (modeDigits data) = 0 ∧ modeBlanks data ≤ 10 ∨
  (1 ≤ decimal (modeDigits data) ∧ decimal (modeDigits data) ≤ 3) ∧
    modeBlanks data + (modeDigits data).length ≤ 11 ∨
  3 < decimal (modeDigits data) ∧
    (11 ≤ modeBlanks data ∨ 2 ^ 31 - 1 ≤ seenMode data ∨ 3 < seenMode data % 2 ^ 16)

theorem takeWhile_take (p : UInt8 → Bool) (l : List UInt8) (n : Nat) :
    (l.take n).takeWhile p = (l.takeWhile p).take n := by
  induction l generalizing n with
  | nil => simp
  | cons x l ih =>
    cases n with
    | zero => rfl
    | succ n =>
      rw [List.take_succ_cons, List.takeWhile_cons, List.takeWhile_cons]
      split
      · rw [ih, List.take_succ_cons]
      · rfl

theorem dropWhile_take (p : UInt8 → Bool) (l : List UInt8) (n : Nat) :
    (l.take n).dropWhile p = (l.dropWhile p).take (n - (l.takeWhile p).length) := by
  induction l generalizing n with
  | nil => simp
  | cons x l ih =>
    cases n with
    | zero => simp
    | succ n =>
      rw [List.take_succ_cons, List.dropWhile_cons, List.dropWhile_cons, List.takeWhile_cons]
      split
      · rw [ih, List.length_cons, Nat.add_sub_add_right]
      · rfl

theorem argument_digits (data : List UInt8) :
    (argument 4 data).takeWhile isDigit = (modeDigits data).take (11 - modeBlanks data) := by
  rw [argument, List.drop_take, dropWhile_take, takeWhile_take]
  rfl

theorem isDigit_head (p : List UInt8) : isDigit (p.getD 0 0) = true ↔ p.takeWhile isDigit ≠ [] := by
  cases p with
  | nil => decide
  | cons b rest =>
    rw [List.takeWhile_cons]
    cases digit : isDigit b with
    | false => simp [digit]
    | true => simp [digit]

/-- `atoi` of what the firmware sees of the digits. -/
def parsedMode (data : List UInt8) : Nat := min (seenMode data) (2 ^ 31 - 1)

/-- The command does not queue: no digit is seen, or the sixteen bits are no mode. -/
def Refuses (data : List UInt8) : Prop :=
  (modeDigits data).take (11 - modeBlanks data) = [] ∨ 3 < parsedMode data % 2 ^ 16

theorem nusReceived_mode {data : List UInt8} (command : startsWith "mode" data = true)
    (s : Slave.State) : nusReceived data s = modeCommand data s := by
  have word : data.take 4 = [0x6D, 0x6F, 0x64, 0x65] := of_decide_eq_true command
  obtain ⟨rest, rfl⟩ : ∃ rest, data = 0x6D :: 0x6F :: 0x64 :: 0x65 :: rest :=
    ⟨data.drop 4, by rw [← List.take_append_drop 4 data, word]; rfl⟩
  rw [nusReceived]
  simp [startsWith, ascii]

theorem toNat_le_three {n : Nat} : (UInt16.ofNat n > 3) ↔ 3 < n % 2 ^ 16 := by
  rw [gt_iff_lt, UInt16.lt_iff_toNat_lt, UInt16.toNat_ofNat']
  rfl

theorem modeCommand_refuses {data : List UInt8} (refuses : Refuses data) (s : Slave.State) :
    modeCommand data s = (s, [badMode]) := by
  rw [modeCommand]
  by_cases digit : isDigit ((argument 4 data).getD 0 0) = true
  · have seen := (isDigit_head _).mp digit
    rw [argument_digits] at seen
    have large : UInt16.ofNat (atoi (argument 4 data)) > 3 := by
      rw [toNat_le_three, atoi, argument_digits]
      exact refuses.resolve_left seen
    rw [if_pos digit]
    simp only [flexitSlaveQueueMode, if_pos large]
    rfl
  · rw [if_neg digit]

theorem modeCommand_queues {data : List UInt8} (queues : ¬ Refuses data) (s : Slave.State) :
    modeCommand data s = ((flexitSlaveQueueMode (UInt16.ofNat (parsedMode data)) s).2,
      [modeReply (parsedMode data)]) := by
  obtain ⟨seen, small⟩ := not_or.mp queues
  have digit : isDigit ((argument 4 data).getD 0 0) = true := by
    rw [isDigit_head, argument_digits]
    exact seen
  have parsed : atoi (argument 4 data) = parsedMode data := by
    rw [atoi, argument_digits]
    rfl
  have fits : ¬ UInt16.ofNat (parsedMode data) > 3 := by
    rw [toNat_le_three]
    exact small
  rw [modeCommand, if_pos digit, parsed]
  simp only [flexitSlaveQueueMode, if_neg fits]
  rfl

theorem modeReply_ne_bad (n : Nat) : modeReply n ≠ badMode := by
  intro same
  have text := congrArg (List.take 7) (Effect.reply.inj same)
  rw [List.append_assoc, List.take_append_of_le_length (by decide)] at text
  revert text
  decide

theorem modeReply_inj {m n : Nat} (small : m ≤ 3) (bound : n ≤ 3) (same : modeReply m = modeReply n) :
    m = n := by
  have all : ∀ m ≤ 3, ∀ n ≤ 3, modeReply m = modeReply n → m = n := by decide
  exact all m small n bound same

/-- What is seen of the digits is worth no more than all of them. -/
theorem seenMode_split (data : List UInt8) : ∃ cut low,
    decimal (modeDigits data) = seenMode data * 10 ^ cut + low ∧
      cut = (modeDigits data).length - (11 - modeBlanks data) := by
  have halves := positional_append 10 digitValue
    ((modeDigits data).take (11 - modeBlanks data)) ((modeDigits data).drop (11 - modeBlanks data))
  rw [List.take_append_drop] at halves
  exact ⟨_, _, halves, List.length_drop⟩

theorem refuses_iff {data : List UInt8} (digits : modeDigits data ≠ []) :
    Refuses data ↔ 11 ≤ modeBlanks data ∨ 2 ^ 31 - 1 ≤ seenMode data ∨ 3 < seenMode data % 2 ^ 16 := by
  have hidden : (modeDigits data).take (11 - modeBlanks data) = [] ↔ 11 ≤ modeBlanks data := by
    rw [List.take_eq_nil_iff]
    constructor
    · rintro (none | none)
      · omega
      · exact absurd none digits
    · intro late
      exact .inl (by omega)
  rw [Refuses, hidden, parsedMode]
  omega

/-- A mode among the digits is seen as it is exactly when it is zero, or none of them
lies behind the first fifteen bytes. -/
theorem seenMode_eq_iff {data : List UInt8} (small : decimal (modeDigits data) ≤ 3) :
    seenMode data ≤ 3 ∧ (seenMode data = decimal (modeDigits data) ↔
      decimal (modeDigits data) = 0 ∨ (modeDigits data).length ≤ 11 - modeBlanks data) := by
  obtain ⟨cut, low, value, tail⟩ := seenMode_split data
  have positive : 1 ≤ 10 ^ cut := Nat.one_le_pow _ _ (by decide)
  have below : seenMode data * 1 ≤ seenMode data * 10 ^ cut := Nat.mul_le_mul_left _ positive
  refine ⟨by omega, ?_⟩
  constructor
  · intro same
    by_contra other
    have hidden : 10 ^ 1 ≤ 10 ^ cut := Nat.pow_le_pow_right (by decide) (by omega)
    have shifted : seenMode data * 10 ≤ seenMode data * 10 ^ cut := Nat.mul_le_mul_left _ hidden
    omega
  · rintro (zero | whole)
    · omega
    · rw [seenMode, List.take_of_length_le whole]

theorem queues_iff {data : List UInt8} (digits : modeDigits data ≠ [])
    (small : decimal (modeDigits data) ≤ 3) (s : Slave.State) :
    modeCommand data s = ((flexitSlaveQueueMode (UInt16.ofNat (decimal (modeDigits data))) s).2,
        [modeReply (decimal (modeDigits data))]) ↔
      modeBlanks data ≤ 10 ∧ seenMode data = decimal (modeDigits data) := by
  obtain ⟨seen, -⟩ := seenMode_eq_iff small
  have parsed : parsedMode data = seenMode data := Nat.min_eq_left (by omega)
  have refuses := refuses_iff digits
  by_cases late : 11 ≤ modeBlanks data
  · rw [modeCommand_refuses (refuses.mpr (.inl late))]
    constructor
    · intro same
      have replies := (List.cons.inj (Prod.ext_iff.mp same).2).1
      exact absurd replies.symm (modeReply_ne_bad _)
    · omega
  · rw [modeCommand_queues (by rw [refuses]; omega), parsed]
    constructor
    · intro same
      have replies := (List.cons.inj (Prod.ext_iff.mp same).2).1
      exact ⟨by omega, modeReply_inj seen small replies⟩
    · rintro ⟨-, same⟩
      rw [same]

/-- A mode command does what was sent if and only if its argument is read right. -/
theorem queuesSent_iff {data : List UInt8} (command : startsWith "mode" data = true)
    (s : Slave.State) : QueuesSent data s ↔ ArgumentSeen data := by
  rw [QueuesSent, ArgumentSeen, nusReceived_mode command]
  by_cases digits : modeDigits data = []
  · have refuses : Refuses data := .inl (by rw [digits, List.take_nil])
    simp [digits, modeCommand_refuses refuses]
  · simp only [digits, false_or]
    by_cases large : 3 < decimal (modeDigits data)
    · rw [if_pos large]
      by_cases refuses : Refuses data
      · rw [modeCommand_refuses refuses]
        exact iff_of_true ⟨rfl, rfl, rfl, rfl⟩
          (.inr (.inr ⟨large, (refuses_iff digits).mp refuses⟩))
      · rw [modeCommand_queues refuses]
        rw [refuses_iff digits] at refuses
        refine iff_of_false ?_ (by omega)
        rintro ⟨-, -, -, replies⟩
        exact modeReply_ne_bad _ (List.cons.inj replies).1
    · have small : decimal (modeDigits data) ≤ 3 := by omega
      obtain ⟨seen, whole⟩ := seenMode_eq_iff small
      have queues := queues_iff digits small s
      rw [whole, Prod.ext_iff] at queues
      have nonempty := List.length_pos_iff.mpr digits
      rw [if_neg large, queues]
      omega

/-- 65537 is mode 1 in sixteen bits. -/
theorem large_mode_queued : ¬ QueuesSent (ascii "mode 65537") flexitSlaveInit := by
  rw [QueuesSent, if_pos (.inr (by decide))]
  rintro ⟨-, -, -, replies⟩
  revert replies
  decide

theorem queuesSent_two : QueuesSent (ascii "mode 2") flexitSlaveInit :=
  (queuesSent_iff (by decide) flexitSlaveInit).mpr (.inr (.inr (.inl (by decide))))

end FlexitCs60.Ble
