import FlexitCs60.Ble.Nus
import FlexitCs60.Client.ParseFloat
import Mathlib.Data.List.TakeWhile
import Mathlib.Tactic.FieldSimp
import Mathlib.Tactic.Linarith

/-! The client validates a setpoint as a Go floating-point literal and sends its
text; the firmware reads at most six characters of it as plain decimal. -/
namespace FlexitCs60.Client
open Wire Slave Ble

/-- `cmdSetpoint` up to the write: the payload, if the argument is accepted. -/
def cmdSetpoint (spArg : List UInt8) : Option (List UInt8) :=
  match parseFloat spArg with
  | none => none
  | some v => if v.negative then none else some (ascii "setpoint " ++ spArg)

/-- The plain decimal number at the front of a text: digits, and a point with
the digits behind it if there is one. -/
def plainPrefix (text : List UInt8) : List UInt8 :=
  text.takeWhile isDigit ++
    match text.dropWhile isDigit with
    | 0x2E :: rest => 0x2E :: rest.takeWhile isDigit
    | _ => []

/-- Ten times a temperature, truncated and clamped to the unit's range. -/
def clampedTenths (v : ℚ) : ℤ := max 100 (min 300 ⌊v * 10⌋)

/-- The firmware refuses the payload, or queues the temperature `v`. -/
def Agrees (payload : List UInt8) (v : FloatValue) : Prop :=
  ∀ s, nusReceived payload s = (s, [badSetpoint]) ∨
    ∃ q, v = .finite q ∧ (nusReceived payload s).1 =
      (flexitSlaveQueueSetpoint (UInt16.ofNat (clampedTenths q).toNat) s).2

/-- The argument does not start with a digit, or the plain decimal number in its
first six characters is as good as the whole literal. -/
def Faithful (spArg : List UInt8) (v : FloatValue) : Prop :=
  isDigit (spArg.getD 0 0) = false ∨ ∃ q w, v = .finite q ∧
    parseFloat (plainPrefix (spArg.take 6)) = some (.finite w) ∧ clampedTenths w = clampedTenths q

/-! A plain decimal text is a literal of its positional value. -/

section
variable {whole fraction tail : List UInt8}

/-- Digits, then nothing, or a point and digits. -/
structure Plain (whole tail fraction : List UInt8) : Prop where
  nonempty : whole ≠ []
  digits : ∀ b ∈ whole ++ fraction, isDigit b = true
  tail : tail = [] ∧ fraction = [] ∨ tail = 0x2E :: fraction

/-- The characters of a plain text. -/
theorem Plain.chars (plain : Plain whole tail fraction) :
    ∀ b ∈ whole ++ tail, isDigit b = true ∨ b = 0x2E := by
  intro b member
  rcases List.mem_append.mp member with inWhole | inTail
  · exact .inl (plain.digits b (List.mem_append_left _ inWhole))
  · rcases plain.tail with ⟨rfl, rfl⟩ | rfl
    · contradiction
    · rcases List.mem_cons.mp inTail with rfl | inFraction
      · exact .inr rfl
      · exact .inl (plain.digits b (List.mem_append_right _ inFraction))

/-- None of them opens a prefix, a sign, an exponent or a separator. -/
theorem plain_char {b : UInt8} (char : isDigit b = true ∨ b = 0x2E) :
    lower b ≠ 0x62 ∧ lower b ≠ 0x6F ∧ lower b ≠ 0x78 ∧ b ≠ 0x2D ∧ b ≠ 0x2B ∧
      isUnderscore b = false ∧ isUpper b = false ∧ b ≠ 0x69 ∧ b ≠ 0x6E := by
  revert char
  revert b
  decide +kernel

theorem sign_plain {s : List UInt8} (chars : ∀ b ∈ s, isDigit b = true ∨ b = 0x2E) :
    sign s = (false, s) := by
  cases s with
  | nil => rfl
  | cons c rest =>
    obtain ⟨_, _, _, minus, plus, _⟩ := plain_char (chars c (List.mem_cons_self ..))
    rw [sign, if_neg minus, if_neg plus]

theorem special_plain {s : List UInt8} (chars : ∀ b ∈ s, isDigit b = true ∨ b = 0x2E) :
    special s = none := by
  have unchanged : (s.map fun c => if isUpper c then lower c else c) = s := by
    conv_rhs => rw [← List.map_id s]
    refine List.map_congr_left fun c member => ?_
    obtain ⟨_, _, _, _, _, _, upper, _⟩ := plain_char (chars c member)
    simp [upper]
  have differs : ∀ word : List UInt8, word.headD 0x69 = 0x69 ∨ word.headD 0x6E = 0x6E →
      word ≠ [] → s ≠ word := by
    rintro _ letter nonempty rfl
    cases s with
    | nil => exact nonempty rfl
    | cons c rest =>
      obtain ⟨_, _, _, _, _, _, _, i, n⟩ := plain_char (chars c (List.mem_cons_self ..))
      exact letter.elim i n
  simp only [special, unchanged, sign_plain chars]
  rw [if_neg, if_neg]
  · exact differs _ (.inr rfl) (by decide)
  · exact not_or.mpr ⟨differs _ (.inl rfl) (by decide), differs _ (.inl rfl) (by decide)⟩

theorem underscoreScan_plain {s : List UInt8} (chars : ∀ b ∈ s, isDigit b = true ∨ b = 0x2E)
    {saw : Saw} (fresh : saw ≠ .underscore) : underscoreScan false saw s = true := by
  induction s generalizing saw with
  | nil => simpa [underscoreScan] using fresh
  | cons c rest ih =>
    have later := fun b member => chars b (List.mem_cons_of_mem c member)
    obtain ⟨_, _, _, _, _, separator, _⟩ := plain_char (chars c (List.mem_cons_self ..))
    simp only [underscoreScan, Bool.false_and, Bool.or_false, separator, Bool.false_eq_true,
      if_false]
    split
    · exact ih later (by decide)
    · simp [fresh, ih later (show Saw.other ≠ .underscore by decide)]

/-- The character behind the first one is no base prefix. -/
theorem second_plain {s : List UInt8} (chars : ∀ b ∈ s, isDigit b = true ∨ b = 0x2E) :
    lower (s.getD 1 0) ≠ 0x62 ∧ lower (s.getD 1 0) ≠ 0x6F ∧ lower (s.getD 1 0) ≠ 0x78 := by
  match s with
  | [] | [_] => exact ⟨by simp [lower], by simp [lower], by simp [lower]⟩
  | c :: d :: rest =>
    obtain ⟨b, o, x, _⟩ := plain_char (chars d (by simp))
    exact ⟨b, o, x⟩

theorem underscoreOK_plain {s : List UInt8} (chars : ∀ b ∈ s, isDigit b = true ∨ b = 0x2E) :
    underscoreOK s = true := by
  obtain ⟨b, o, x⟩ := second_plain chars
  simp only [underscoreOK, sign_plain chars, b, o, x, or_false, and_false, if_false]
  exact underscoreScan_plain chars (by decide)

theorem takeWhile_digits {digits rest : List UInt8} {p : UInt8 → Bool}
    (valid : ∀ b ∈ digits, p b = true) (stops : ∀ b ∈ rest.head?, p b = false) :
    (digits ++ rest).takeWhile p = digits := by
  rw [List.takeWhile_append_of_pos valid]
  cases rest with
  | nil => simp
  | cons c later => simp [stops c rfl]

/-- The mantissa of a plain text takes all of it. -/
theorem mantissa_plain (plain : Plain whole tail fraction) :
    mantissa isDigit (whole ++ tail) = (whole, fraction, []) := by
  have inWhole : ∀ b ∈ whole, (isDigit b || isUnderscore b) = true := by
    intro b member
    simp [plain.digits b (List.mem_append_left _ member)]
  have inFraction : ∀ b ∈ fraction, (isDigit b || isUnderscore b) = true := by
    intro b member
    simp [plain.digits b (List.mem_append_right _ member)]
  have front : digitRun isDigit (whole ++ tail) = whole := by
    refine takeWhile_digits inWhole ?_
    rcases plain.tail with ⟨rfl, _⟩ | rfl
    · simp
    · intro b head
      obtain rfl := Option.some.inj head
      rfl
  have behind : digitRun isDigit fraction = fraction :=
    List.takeWhile_eq_self_iff.mpr inFraction
  simp only [mantissa, front, List.drop_left]
  rcases plain.tail with ⟨rfl, rfl⟩ | rfl
  · rfl
  · simp [behind]

theorem scale_zero (radix : Nat) (value : ℚ) : scale radix value 0 = value := by
  change value * radix ^ 0 = value
  rw [pow_zero, mul_one]

theorem parseFloat_plain (plain : Plain whole tail fraction)
    (small : (decimal (whole ++ fraction) : ℚ) < rangeLimit) :
    parseFloat (whole ++ tail) =
      some (.finite (decimal (whole ++ fraction) / 10 ^ fraction.length)) := by
  have chars := plain.chars
  have hex : isHex (whole ++ tail) = false := by
    refine decide_eq_false fun prefixed => ?_
    exact (second_plain chars).2.2 prefixed.2.2
  have every : (whole ++ fraction).filter isDigit = whole ++ fraction :=
    List.filter_eq_self.mpr plain.digits
  have behind : fraction.filter isDigit = fraction :=
    List.filter_eq_self.mpr fun b member => plain.digits b (List.mem_append_right _ member)
  have some : whole ++ fraction ≠ [] := by
    simp [plain.nonempty]
  have read : readFloat (whole ++ tail) =
      Option.some (decimal (whole ++ fraction) / 10 ^ fraction.length : ℚ) := by
    simp only [readFloat, sign_plain chars, hex, Bool.false_eq_true, if_false, Bool.false_and,
      Bool.or_false]
    rw [mantissa_plain plain]
    simp only [every, behind, if_neg some]
    rw [show exponent 0x65 false [] = Option.some (0, []) by rfl]
    simp only [underscoreOK_plain chars, ne_eq, not_true_eq_false, Bool.not_true,
      Bool.false_eq_true, or_self, if_false]
    rw [scale_zero]
    rfl
  have positive : (0 : ℚ) ≤ decimal (whole ++ fraction) / 10 ^ fraction.length := by positivity
  have inRange : ¬ rangeLimit ≤ |(decimal (whole ++ fraction) / 10 ^ fraction.length : ℚ)| := by
    rw [abs_of_nonneg positive, not_le]
    refine lt_of_le_of_lt (div_le_self (Nat.cast_nonneg _) ?_) small
    exact one_le_pow₀ (by norm_num)
  rw [parseFloat, special_plain chars, read]
  simp only [if_neg inRange]

/-- The first decimal of a fraction. -/
def firstTenth (fraction : List UInt8) : Nat :=
  match fraction with
  | [] => 0
  | f :: _ => digitValue f

/-- Truncation to tenths keeps the first decimal and drops the others. -/
theorem floor_plain (digits : ∀ b ∈ fraction, isDigit b = true) :
    ⌊(decimal (whole ++ fraction) / 10 ^ fraction.length : ℚ) * 10⌋ =
      ((decimal whole * 10 + firstTenth fraction : ℕ) : ℤ) := by
  cases fraction with
  | nil =>
    rw [List.append_nil, List.length_nil, pow_zero, div_one, firstTenth, Nat.add_zero,
      ← Int.floor_natCast (R := ℚ)]
    push_cast
    rfl
  | cons f rest =>
    have later := decimal_lt fun b member => digits b (List.mem_cons_of_mem f member)
    have joined : decimal (whole ++ f :: rest) =
        (decimal whole * 10 + digitValue f) * 10 ^ rest.length + decimal rest := by
      rw [List.append_cons, decimal, positional_append, positional_append]
      simp [positional, decimal]
    have power : (0 : ℚ) < 10 ^ rest.length := by positivity
    rw [Int.floor_eq_iff, joined, firstTenth, List.length_cons, pow_succ]
    have fits : (decimal rest : ℚ) < 10 ^ rest.length := by exact_mod_cast later
    have split : ((((decimal whole * 10 + digitValue f) * 10 ^ rest.length + decimal rest : ℕ) : ℚ) /
        (10 ^ rest.length * 10)) * 10 =
          ((decimal whole * 10 + digitValue f : ℕ) : ℚ) + decimal rest / 10 ^ rest.length := by
      push_cast
      field_simp
    rw [split]
    constructor
    · have : (0 : ℚ) ≤ decimal rest / 10 ^ rest.length := by positivity
      push_cast
      linarith
    · have : (decimal rest : ℚ) / 10 ^ rest.length < 1 := (div_lt_one power).mpr fits
      push_cast
      linarith

/-- The firmware's loops read the plain prefix of the text. -/
theorem parseTenths_plain {p : List UInt8} (digit : isDigit (p.getD 0 0) = true) :
    ∃ tail fraction, Plain (p.takeWhile isDigit) tail fraction ∧
      plainPrefix p = p.takeWhile isDigit ++ tail ∧
      parseTenths p = decimal (p.takeWhile isDigit) * 10 + firstTenth fraction ∧
      (p.takeWhile isDigit ++ fraction).length ≤ p.length := by
  have nonempty : p.takeWhile isDigit ≠ [] := by
    cases p with
    | nil => contradiction
    | cons c rest =>
      have head : isDigit c = true := digit
      simp [head]
  have front : ∀ b ∈ p.takeWhile isDigit, isDigit b = true := fun b member =>
    List.mem_takeWhile_imp member
  have parts : (p.takeWhile isDigit).length + (p.dropWhile isDigit).length = p.length := by
    rw [← List.length_append, List.takeWhile_append_dropWhile]
  simp only [plainPrefix, parseTenths]
  generalize p.takeWhile isDigit = whole at nonempty front parts
  generalize p.dropWhile isDigit = rest at parts
  cases rest with
  | nil => exact ⟨[], [], ⟨nonempty, by simpa using front, .inl ⟨rfl, rfl⟩⟩, rfl, rfl, by simpa using parts.le⟩
  | cons c later =>
    by_cases point : c = 0x2E
    · subst point
      refine ⟨_, later.takeWhile isDigit, ⟨nonempty, ?_, .inr rfl⟩, rfl, ?_, ?_⟩
      · intro b member
        rcases List.mem_append.mp member with inFront | behind
        · exact front b inFront
        · exact List.mem_takeWhile_imp behind
      · cases later with
        | nil => rfl
        | cons f more =>
          cases first : isDigit f with
          | true => simp [first, firstTenth]
          | false => simp [first, firstTenth]
      · have := (List.takeWhile_sublist isDigit (l := later)).length_le
        rw [List.length_cons] at parts
        rw [List.length_append]
        omega
    · refine ⟨[], [], ⟨nonempty, by simpa using front, .inl ⟨rfl, rfl⟩⟩, ?_, ?_, ?_⟩
      · split
        · rename_i same
          exact absurd (List.cons.inj same).1 point
        · rfl
      · simp [point, firstTenth]
      · rw [List.append_nil]
        omega

end

/-- A literal does not start with a blank. -/
theorem parseFloat_blank {c : UInt8} (blank : isBlank c = true) (rest : List UInt8) :
    parseFloat (c :: rest) = none := by
  have char : c ≠ 0x2D ∧ c ≠ 0x2B ∧ c ≠ 0x30 ∧ c ≠ 0x2E ∧ c ≠ 0x69 ∧ c ≠ 0x6E ∧
      isUpper c = false ∧ isDigit c = false ∧ isUnderscore c = false := by
    revert blank
    revert c
    decide +kernel
  obtain ⟨minus, plus, zero, point, i, n, upper, digit, separator⟩ := char
  have words : special (c :: rest) = none := by
    have inf : ∀ later, c :: later ≠ ascii "inf" := fun _ same => i (List.cons.inj same).1
    have infinity : ∀ later, c :: later ≠ ascii "infinity" := fun _ same => i (List.cons.inj same).1
    have nan : ∀ later, c :: later ≠ ascii "nan" := fun _ same => n (List.cons.inj same).1
    simp [special, sign, upper, minus, plus, inf, infinity, nan]
  have hex : isHex (c :: rest) = false := by
    refine decide_eq_false fun prefixed => zero prefixed.2.1
  have empty : mantissa isDigit (c :: rest) = ([], [], c :: rest) := by
    have front : digitRun isDigit (c :: rest) = [] := by
      simp [digitRun, digit, separator]
    simp only [mantissa, front, List.length_nil, List.drop_zero]
    split
    · rename_i same
      exact absurd (List.cons.inj same).1 point
    · rfl
  have read : readFloat (c :: rest) = none := by
    simp only [readFloat, sign, if_neg minus, if_neg plus, hex, Bool.false_eq_true, if_false,
      Bool.false_and, Bool.or_false]
    rw [empty]
    rfl
  rw [parseFloat, words, read]

/-- What the firmware does with an accepted argument. -/
theorem nusReceived_argument {spArg : List UInt8} (accepted : parseFloat spArg ≠ none) (s : State) :
    nusReceived (ascii "setpoint " ++ spArg) s =
      if isDigit (spArg.getD 0 0) then
        ((flexitSlaveQueueSetpoint (UInt16.ofNat (clampTenths (parseTenths (spArg.take 6)))) s).2,
          [setpointReply (clampTenths (parseTenths (spArg.take 6)))])
      else (s, [badSetpoint]) := by
  have unblank : isBlank (spArg.getD 0 0) = false := by
    cases spArg with
    | nil => rfl
    | cons c rest =>
      by_contra blank
      exact accepted (parseFloat_blank (Bool.eq_true_of_not_eq_false blank) rest)
  have text : argument 8 (ascii "setpoint " ++ spArg) = spArg.take 6 := by
    change (0x20 :: spArg.take 6).dropWhile isBlank = spArg.take 6
    cases spArg with
    | nil => rfl
    | cons c rest =>
      have head : isBlank c = false := unblank
      simp [head, show isBlank 0x20 = true from rfl]
  have head : (spArg.take 6).getD 0 0 = spArg.getD 0 0 := by
    cases spArg <;> rfl
  change setpointCommand (ascii "setpoint " ++ spArg) s = _
  rw [setpointCommand, text, head]

theorem setpointReply_ne (dc : Nat) : setpointReply dc ≠ badSetpoint := by
  intro same
  have bytes := Effect.reply.inj same
  have tenth := congrArg (fun text => text[10]?) bytes
  simp only [List.append_assoc] at tenth
  rw [List.getElem?_append_left (by decide)] at tenth
  exact absurd tenth (by decide)

theorem clampTenths_eq (n : Nat) : ((clampTenths n : ℕ) : ℤ) = max 100 (min 300 (n : ℤ)) := by
  unfold clampTenths
  split
  · omega
  · split <;> omega

theorem clampTenths_le (n : Nat) : clampTenths n ≤ 300 := by
  unfold clampTenths
  split
  · decide
  · split <;> omega

/-- What the firmware reads is the plain decimal number in front. -/
theorem plainPrefix_tenths {p : List UInt8} (digit : isDigit (p.getD 0 0) = true)
    (short : p.length ≤ 6) :
    ∃ w, parseFloat (plainPrefix p) = some (.finite w) ∧
      clampedTenths w = (clampTenths (parseTenths p) : ℕ) := by
  obtain ⟨tail, fraction, plain, text, tenths, length⟩ := parseTenths_plain digit
  have few : (p.takeWhile isDigit ++ fraction).length ≤ 6 := length.trans short
  have small : (decimal (p.takeWhile isDigit ++ fraction) : ℚ) < rangeLimit := by
    have bound := (decimal_lt plain.digits).trans_le (Nat.pow_le_pow_right (by decide) few)
    have cast : (decimal (p.takeWhile isDigit ++ fraction) : ℚ) < 10 ^ 6 := by
      exact_mod_cast bound
    exact cast.trans (by decide +kernel)
  have visible := parseFloat_plain plain small
  rw [← text] at visible
  refine ⟨_, visible, ?_⟩
  rw [clampedTenths, floor_plain fun b member => plain.digits b (List.mem_append_right _ member),
    clampTenths_eq, tenths]

/-- Queued words tell clamped temperatures apart. -/
theorem sameTenths {n : Nat} {q : ℚ}
    (same : UInt16.ofNat (clampTenths n) = UInt16.ofNat (clampedTenths q).toNat) :
    clampedTenths q = (clampTenths n : ℕ) := by
  have words := congrArg UInt16.toNat same
  have left := clampTenths_le n
  have lower : 100 ≤ clampedTenths q := le_max_left ..
  have upper : clampedTenths q ≤ 300 := max_le (by decide) (min_le_left ..)
  rw [UInt16.toNat_ofNat', UInt16.toNat_ofNat'] at words
  omega

/-- The client and the firmware agree exactly on the faithful arguments. -/
theorem setpoint_agrees_iff {spArg payload : List UInt8} {v : FloatValue}
    (parsed : parseFloat spArg = some v) (accepted : cmdSetpoint spArg = some payload) :
    Agrees payload v ↔ Faithful spArg v := by
  obtain rfl : payload = ascii "setpoint " ++ spArg := by
    rw [cmdSetpoint, parsed] at accepted
    dsimp only at accepted
    split at accepted
    · contradiction
    · exact (Option.some.inj accepted).symm
  have received := @nusReceived_argument spArg (by rw [parsed]; simp)
  cases digit : isDigit (spArg.getD 0 0) with
  | false =>
    refine iff_of_true (fun s => .inl ?_) (.inl digit)
    rw [received s, digit]
    rfl
  | true =>
    have head : isDigit ((spArg.take 6).getD 0 0) = true := by
      cases spArg with
      | nil => contradiction
      | cons c rest => exact digit
    obtain ⟨w, visible, clamped⟩ := plainPrefix_tenths head (List.length_take_le ..)
    constructor
    · intro agrees
      have out := received flexitSlaveInit
      rw [if_pos digit] at out
      rcases agrees flexitSlaveInit with refused | ⟨q, rfl, queued⟩
      · rw [out] at refused
        exact absurd (List.cons.inj (Prod.ext_iff.mp refused).2).1 (setpointReply_ne _)
      · rw [out] at queued
        have pending := congrArg State.pendingSetpoint queued
        refine .inr ⟨q, w, rfl, visible, ?_⟩
        rw [clamped, sameTenths pending]
    · rintro (other | ⟨q, w', rfl, same, equal⟩)
      · rw [digit] at other
        contradiction
      · intro s
        refine .inr ⟨q, rfl, ?_⟩
        rw [received s, if_pos digit]
        rw [visible] at same
        obtain rfl := FloatValue.finite.inj (Option.some.inj same)
        rw [← equal, clamped, Int.toNat_natCast]

/-- Twenty and a half degrees, as the usage text writes it. -/
theorem setpoint_agrees_plain : Agrees (ascii "setpoint 20.5") (.finite (41 / 2)) :=
  (@setpoint_agrees_iff (ascii "20.5") _ _ (by decide +kernel) (by decide +kernel)).mpr
    (.inr ⟨41 / 2, 41 / 2, rfl, by decide +kernel, rfl⟩)

/-- The client accepts `2e1` as twenty degrees; the firmware reads a two. -/
theorem exponent_queues_minimum :
    parseFloat (ascii "2e1") = some (.finite 20) ∧
      cmdSetpoint (ascii "2e1") = some (ascii "setpoint 2e1") ∧
      nusReceived (ascii "setpoint 2e1") flexitSlaveInit =
        ((flexitSlaveQueueSetpoint 100 flexitSlaveInit).2,
          [.reply (ascii "setpoint: queued=10.0 C\n")]) ∧
      ¬ Agrees (ascii "setpoint 2e1") (.finite 20) := by
  refine ⟨by decide +kernel, by decide +kernel, by decide +kernel, ?_⟩
  intro agrees
  rcases agrees flexitSlaveInit with refused | ⟨q, same, queued⟩
  · exact absurd refused (by decide +kernel)
  · obtain rfl := FloatValue.finite.inj same
    exact absurd queued (by decide +kernel)

end FlexitCs60.Client
