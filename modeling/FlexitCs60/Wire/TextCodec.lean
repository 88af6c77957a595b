import FlexitCs60.Wire.Fields

/-! Values as text without blanks, each with the reader that undoes its printer. -/
namespace Wire

structure TextCodec (α : Type*) where
  print : α → List UInt8
  read : List UInt8 → Option α
  read_print : ∀ a, read (print a) = some a
  solid : ∀ a, ∀ b ∈ print a, isSpace b = false

theorem isSpace_digit {b : UInt8} (digit : isDigit b = true) : isSpace b = false := by
  have lower : 0x30 ≤ b ∧ b ≤ 0x39 := by simpa [isDigit] using digit
  have range : 0x30 ≤ b.toNat := lower.1
  exact isSpace_visible (by omega)

namespace TextCodec

variable {α β : Type*}

/-- Printing tells values apart. -/
theorem print_injective (c : TextCodec α) : Function.Injective c.print := by
  intro a b same
  apply Option.some.inj
  rw [← c.read_print a, same, c.read_print]

/-- `%u` and `%llu` -/
def unsigned : TextCodec Nat where
  print := printDecimal
  read text := if text ≠ [] ∧ ∀ b ∈ text, isDigit b = true then some (decimal text) else none
  read_print n := by
    rw [if_pos ⟨printDecimal_ne_nil n, isDigit_printDecimal n⟩, decimal_printDecimal]
  solid n b member := isSpace_digit (isDigit_printDecimal n b member)

/-- A value that is stored in another way. -/
def via (c : TextCodec β) (store : α → β) (load : β → α) (inverse : ∀ a, load (store a) = a) :
    TextCodec α where
  print a := c.print (store a)
  read text := (c.read text).map load
  read_print a := by rw [c.read_print, Option.map_some, inverse]
  solid a := c.solid (store a)

/-- Two values with a separator that the first one does not print. -/
def pair (sep : UInt8) (first : TextCodec α) (second : TextCodec β) (visible : isSpace sep = false)
    (absent : ∀ a, sep ∉ first.print a) : TextCodec (α × β) where
  print v := first.print v.1 ++ sep :: second.print v.2
  read text := (cutAt sep text).bind fun cut =>
    (first.read cut.1).bind fun a => (second.read cut.2).map (a, ·)
  read_print v := by
    simp only [cutAt_append (absent v.1), Option.bind_some, first.read_print, second.read_print,
      Option.map_some]
  solid v b member := by
    rcases List.mem_append.mp member with left | right
    · exact first.solid v.1 b left
    rcases List.mem_cons.mp right with rfl | right
    · exact visible
    · exact second.solid v.2 b right

/-- A value in front of fixed text. -/
def unit (c : TextCodec α) (mark : List UInt8) (visible : ∀ b ∈ mark, isSpace b = false) :
    TextCodec α where
  print a := c.print a ++ mark
  read text :=
    if mark <:+ text then c.read (text.take (text.length - mark.length)) else none
  read_print a := by
    rw [if_pos (List.suffix_append ..), List.length_append, Nat.add_sub_cancel, List.take_left,
      c.read_print]
  solid a b member := by
    rcases List.mem_append.mp member with left | right
    · exact c.solid a b left
    · exact visible b right

/-- Fixed text in front of a value. -/
def marked (mark : List UInt8) (c : TextCodec α) (visible : ∀ b ∈ mark, isSpace b = false) :
    TextCodec α where
  print a := mark ++ c.print a
  read text := if mark <+: text then c.read (text.drop mark.length) else none
  read_print a := by rw [if_pos (List.prefix_append ..), List.drop_left, c.read_print]
  solid a b member := by
    rcases List.mem_append.mp member with left | right
    · exact visible b left
    · exact c.solid a b right

/-- A value that may be missing, with a text that stands for that. -/
def orElse (c : TextCodec α) (missing : List UInt8) (visible : ∀ b ∈ missing, isSpace b = false)
    (apart : ∀ a, c.print a ≠ missing) : TextCodec (Option α) where
  print
    | some a => c.print a
    | none => missing
  read text := if text = missing then some none else (c.read text).map some
  read_print
    | some a => by rw [if_neg (apart a), c.read_print, Option.map_some]
    | none => if_pos rfl
  solid
    | some a => c.solid a
    | none => visible

/-- A number with its sign, from the codec of its absolute value. -/
def signed (c : TextCodec Nat) (apart : ∀ n, (c.print n).head? ≠ some 0x2D) : TextCodec Int where
  print x := if x < 0 then 0x2D :: c.print x.natAbs else c.print x.natAbs
  read text :=
    if text.head? = some 0x2D then (c.read (text.drop 1)).map fun n : Nat => -(n : Int)
    else (c.read text).map fun n : Nat => (n : Int)
  read_print x := by
    split
    · rw [List.head?_cons, if_pos rfl, List.drop_one, List.tail_cons, c.read_print, Option.map_some]
      congr 1
      omega
    · rw [if_neg (apart _), c.read_print, Option.map_some]
      congr 1
      omega
  solid x b member := by
    split at member
    · rcases List.mem_cons.mp member with rfl | rest
      · rfl
      · exact c.solid _ b rest
    · exact c.solid _ b member

theorem absent_unsigned {b : UInt8} (other : isDigit b = false) (n : Nat) :
    b ∉ unsigned.print n := by
  intro member
  rw [isDigit_printDecimal n b member] at other
  contradiction

/-- `%u.%u` of a number of tenths. -/
def tenths : TextCodec Nat :=
  (pair 0x2E unsigned unsigned rfl (absent_unsigned rfl)).via (fun n => (n / 10, n % 10))
    (fun v => v.1 * 10 + v.2) fun n => by
      dsimp only
      omega

theorem head_tenths (n : Nat) : ∃ b, (tenths.print n).head? = some b ∧ isDigit b = true := by
  obtain ⟨b, rest, digits⟩ := List.exists_cons_of_ne_nil (printDecimal_ne_nil (n / 10))
  refine ⟨b, ?_, isDigit_printDecimal (n / 10) b (digits ▸ List.mem_cons_self ..)⟩
  change (printDecimal (n / 10) ++ _).head? = some b
  rw [digits]
  rfl

/-- `%d.%d` with the sign in front. -/
def signedTenths : TextCodec Int := tenths.signed fun n minus => by
  obtain ⟨b, first, digit⟩ := head_tenths n
  obtain rfl := Option.some.inj (first.symm.trans minus)
  contradiction

end TextCodec

/-! `%04X` of a 16-bit word. -/

def hexDigit (v : Nat) : UInt8 := UInt8.ofNat (if v < 10 then 0x30 + v else 0x41 + (v - 10))

def hexValue (b : UInt8) : Nat := if b.toNat < 0x41 then b.toNat - 0x30 else b.toNat - 0x41 + 10

def printHex4 (word : UInt16) : List UInt8 :=
  [4096, 256, 16, 1].map fun weight => hexDigit (word.toNat / weight % 16)

theorem hexValue_hexDigit : ∀ v < 16, hexValue (hexDigit v) = v := by decide

theorem isSpace_hexDigit : ∀ v < 16, isSpace (hexDigit v) = false := by decide

theorem positional_printHex4 (word : UInt16) :
    positional 16 hexValue (printHex4 word) = word.toNat := by
  have range := word.toNat_lt
  have digit : ∀ n : Nat, hexValue (hexDigit (n % 16)) = n % 16 :=
    fun n => hexValue_hexDigit _ (Nat.mod_lt n (by decide))
  simp only [positional, printHex4, List.map_cons, List.map_nil, List.foldl_cons, List.foldl_nil,
    digit]
  omega

namespace TextCodec

def hex4 : TextCodec UInt16 where
  print := printHex4
  read text := if text.length = 4 then some (.ofNat (positional 16 hexValue text)) else none
  read_print word := by
    have four : (printHex4 word).length = 4 := rfl
    rw [if_pos four, positional_printHex4, UInt16.ofNat_toNat]
  solid word b member := by
    obtain ⟨weight, _, rfl⟩ := List.mem_map.mp member
    exact isSpace_hexDigit _ (Nat.mod_lt _ (by decide))

/-- `0x%04X` -/
def hexWord : TextCodec UInt16 := hex4.marked (ascii "0x") (by decide +kernel)

end TextCodec

end Wire
