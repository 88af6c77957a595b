import FlexitCs60.Wire.Ascii
import Mathlib.Data.Rat.Floor

/-! `strconv.ParseFloat` with bit size 64, read as the exact value of the literal:
decimal and hexadecimal floating-point literals with underscores, infinities and
NaN, and a range error for what rounds to infinity. -/
namespace FlexitCs60.Client
open Wire

inductive FloatValue where
  | finite (value : ℚ)
  | inf (negative : Bool)
  | nan
  deriving DecidableEq

/-- `v < 0` -/
def FloatValue.negative : FloatValue → Bool
  | .finite value => value < 0
  | .inf negative => negative
  | .nan => false

/-- ASCII lower case of a letter. -/
def lower (b : UInt8) : UInt8 := b ||| 0x20

def isUpper (b : UInt8) : Bool := 0x41 ≤ b ∧ b ≤ 0x5A

def isHexLetter (b : UInt8) : Bool := 0x61 ≤ lower b ∧ lower b ≤ 0x66

def isUnderscore (b : UInt8) : Bool := b = 0x5F

/-- An optional sign in front of a literal. -/
def sign : List UInt8 → Bool × List UInt8
  | [] => (false, [])
  | c :: rest => if c = 0x2D then (true, rest) else if c = 0x2B then (false, rest) else (false, c :: rest)

/-- `special`: infinities and NaN, in any case. -/
def special (s : List UInt8) : Option FloatValue :=
  let folded := s.map fun c => if isUpper c then lower c else c
  let (negative, rest) := sign folded
  if rest = ascii "inf" ∨ rest = ascii "infinity" then some (.inf negative)
  else if folded = ascii "nan" then some .nan
  else none

/-- The last character `underscoreOK` saw. -/
inductive Saw where
  | start
  | digit
  | underscore
  | other
  deriving DecidableEq

/-- The loop of `underscoreOK`: an underscore stands between digits. -/
def underscoreScan (hex : Bool) : Saw → List UInt8 → Bool
  | saw, [] => saw ≠ .underscore
  | saw, c :: rest =>
    if isDigit c || hex && isHexLetter c then underscoreScan hex .digit rest
    else if isUnderscore c then saw = .digit && underscoreScan hex .underscore rest
    else saw ≠ .underscore && underscoreScan hex .other rest

/-- A base prefix counts as a digit. -/
def underscoreOK (s : List UInt8) : Bool :=
  let (_, s) := sign s
  let c := lower (s.getD 1 0)
  if s.getD 0 0 = 0x30 ∧ (c = 0x62 ∨ c = 0x6F ∨ c = 0x78) then
    underscoreScan (c = 0x78) .digit (s.drop 2)
  else underscoreScan false .start s

/-- A literal with `0x` in front and something behind it. -/
def isHex (s : List UInt8) : Bool := 2 < s.length ∧ s.getD 0 0 = 0x30 ∧ lower (s.getD 1 0) = 0x78

def hexValue (b : UInt8) : Nat := if isDigit b then digitValue b else (lower b).toNat - 0x61 + 10

/-- Digits and underscores from the front on. -/
def digitRun (digit : UInt8 → Bool) (s : List UInt8) : List UInt8 :=
  s.takeWhile fun c => digit c || isUnderscore c

/-- The digit runs before and behind an optional point, and what follows. -/
def mantissa (digit : UInt8 → Bool) (s : List UInt8) : List UInt8 × List UInt8 × List UInt8 :=
  let whole := digitRun digit s
  match s.drop whole.length with
  | 0x2E :: rest =>
    let fraction := digitRun digit rest
    (whole, fraction, rest.drop fraction.length)
  | rest => (whole, [], rest)

/-- The exponent behind `marker` and what follows, if the syntax is right. -/
def exponent (marker : UInt8) (required : Bool) (s : List UInt8) : Option (ℤ × List UInt8) :=
  if lower (s.getD 0 0) = marker then
    let (negative, rest) := sign (s.drop 1)
    if isDigit (rest.getD 0 0) then
      let run := digitRun isDigit rest
      let size : ℤ := decimal (run.filter isDigit)
      some (if negative then -size else size, rest.drop run.length)
    else none
  else if required then none
  else some (0, s)

def scale (radix : Nat) (value : ℚ) : ℤ → ℚ
  | .ofNat n => value * radix ^ n
  | .negSucc n => value / radix ^ (n + 1)

/-- `readFloat`, with the exact value of the literal. -/
def readFloat (s : List UInt8) : Option ℚ :=
  let (negative, body) := sign s
  let hex := isHex body
  let digit (c : UInt8) : Bool := isDigit c || hex && isHexLetter c
  let base : Nat := if hex then 16 else 10
  let (whole, fraction, rest) := mantissa digit (if hex then body.drop 2 else body)
  let digits := (whole ++ fraction).filter digit
  if digits = [] then none
  else
    match exponent (if hex then 0x70 else 0x65) hex rest with
    | none => none
    | some (e, rest) =>
      if rest ≠ [] ∨ !underscoreOK s then none
      else
        let value : ℚ := positional base (if hex then hexValue else digitValue) digits /
          base ^ (fraction.filter digit).length
        let value := scale (if hex then 2 else 10) value e
        some (if negative then -value else value)

/-- From here on a magnitude rounds to infinity. -/
def rangeLimit : ℚ := 2 ^ 1024 - 2 ^ 970

def parseFloat (s : List UInt8) : Option FloatValue :=
  match special s with
  | some value => some value
  | none =>
    match readFloat s with
    | none => none
    | some value => if rangeLimit ≤ |value| then none else some (.finite value)

example : parseFloat (ascii "0x1.8p+4") = some (.finite 24) := by decide +kernel

end FlexitCs60.Client
