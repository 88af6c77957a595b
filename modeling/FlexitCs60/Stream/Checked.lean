import FlexitCs60.Stream.Accumulator
import Mathlib.Data.List.DropRight

/-! The statements of a feed with the conditions they rest on. A sum or difference
of sizes that wraps, and a copy or move that leaves an array, have no result; the
decode loop has one only if it ends. -/
namespace Framing

variable {α σ : Type} {cap : Nat}

/-- `a + b` of two `size_t` values. -/
def sizeAdd? (a b : Nat) : Option Nat := if a + b < 2 ^ 32 then some (a + b) else none

/-- `a - b` of two `size_t` values. -/
def sizeSub? (a b : Nat) : Option Nat := if b ≤ a then some (a - b) else none

/-- `memcpy(cells + start, data + offset, count)` -/
def memcpy? (cells : Vector α cap) (start : Nat) (data : List α) (offset count : Nat) :
    Option (Vector α cap) :=
  if start + count ≤ cap ∧ offset + count ≤ data.length then
    some (memcpy cells start ((data.drop offset).take count))
  else none

/-- `memmove(cells, cells + start, count)` -/
def memmove? (cells : Vector α cap) (start count : Nat) : Option (Vector α cap) :=
  if start + count ≤ cap then some (memmove cells start count) else none

theorem sizeAdd?_eq {a b : Nat} (range : a + b < 2 ^ 32) : sizeAdd? a b = some (a + b) :=
  if_pos range

theorem sizeSub?_eq {a b : Nat} (ordered : b ≤ a) (range : a < 2 ^ 32) :
    sizeSub? a b = some (sizeSub a b) := by
  rw [sizeSub?, if_pos ordered, sizeSub_eq ordered range]

theorem memcpy?_eq (cells : Vector α cap) {start : Nat} {data : List α} {offset count : Nat}
    (room : start + count ≤ cap) (inside : offset + count = data.length) :
    memcpy? cells start data offset count = some (memcpy cells start (data.drop offset)) := by
  rw [memcpy?, if_pos ⟨room, inside.le⟩, List.take_of_length_le]
  rw [List.length_drop]
  omega

theorem memmove?_eq (cells : Vector α cap) {start count : Nat} (room : start + count ≤ cap) :
    memmove? cells start count = some (memmove cells start count) :=
  if_pos room

namespace Accumulator

/-- Drop the oldest elements until `len` more fit. -/
def makeRoom? (a : Accumulator α cap) (len : Nat) : Option (Accumulator α cap) := do
  let sum ← sizeAdd? a.len len
  if cap < sum then
    let drop ← sizeSub? sum cap
    let kept ← sizeSub? a.len drop
    return ⟨← memmove? a.cells drop kept, kept⟩
  else return a

/-- `fill`, as far as its statements are defined. -/
def fill? (a : Accumulator α cap) (data : List α) : Option (Accumulator α cap) := do
  if cap ≤ data.length then
    let offset ← sizeSub? data.length cap
    return ⟨← memcpy? a.cells 0 data offset cap, cap⟩
  else
    let a ← a.makeRoom? data.length
    let cells ← memcpy? a.cells a.len data 0 data.length
    return ⟨cells, ← sizeAdd? a.len data.length⟩

/-- `consume`, as far as its statements are defined. -/
def consume? (a : Accumulator α cap) (consumed : Nat) : Option (Accumulator α cap) := do
  let left ← sizeSub? a.len consumed
  let cells ← if consumed < a.len then memmove? a.cells consumed left else some a.cells
  return ⟨cells, left⟩

/-- A turn of the decode loop that goes on: what it takes, and the count before. -/
structure Turn where
  consumed : Nat
  len : Nat
  deriving DecidableEq, Repr

/-- The decode loop without fuel, with its turns. -/
inductive Loop (step : List α → Nat → σ → Nat × σ) :
    Accumulator α cap × σ → List Turn → Accumulator α cap × σ → Prop where
  | empty {a s} : a.len = 0 → Loop step (a, s) [] (a, s)
  | stop {a s s'} : a.len ≠ 0 → step a.cells.toList a.len s = (0, s') → Loop step (a, s) [] (a, s')
  | turn {a s consumed s' next turns y} : a.len ≠ 0 →
      step a.cells.toList a.len s = (consumed, s') → consumed ≠ 0 →
      a.consume? consumed = some next → Loop step (next, s') turns y →
      Loop step (a, s) (⟨consumed, a.len⟩ :: turns) y

theorem makeRoom?_eq {a : Accumulator α cap} (bounded : a.len ≤ cap) (range : 2 * cap ≤ 2 ^ 32)
    {len : Nat} (short : ¬ cap ≤ len) : a.makeRoom? len = some (a.makeRoom len) := by
  rw [makeRoom?, makeRoom, sizeAdd?_eq (by omega)]
  dsimp only [Option.bind_eq_bind, Option.bind_some]
  split
  · have drop := sizeSub_eq (show cap ≤ a.len + len by omega) (by omega)
    have kept := sizeSub_eq (show sizeSub (a.len + len) cap ≤ a.len by omega) (by omega)
    rw [sizeSub?_eq (by omega) (by omega), Option.bind_some, sizeSub?_eq (by omega) (by omega),
      Option.bind_some, memmove?_eq _ (by omega)]
    rfl
  · rfl

/-- Filling is defined whatever arrives, as long as its length is a `size_t`. -/
theorem fill?_eq {a : Accumulator α cap} (bounded : a.len ≤ cap) (range : 2 * cap ≤ 2 ^ 32)
    {data : List α} (size : data.length < 2 ^ 32) : a.fill? data = some (a.fill data) := by
  rw [fill?]
  by_cases big : cap ≤ data.length
  · have offset := sizeSub_eq big size
    rw [fill, if_pos big, if_pos big, sizeSub?_eq big size]
    dsimp only [Option.bind_eq_bind, Option.bind_some]
    rw [memcpy?_eq a.cells (by omega) (by omega)]
    rfl
  · have room := (makeRoom_contents bounded range big).1
    rw [fill_short a big, if_neg big, makeRoom?_eq bounded range big]
    dsimp only [Option.bind_eq_bind, Option.bind_some]
    rw [memcpy?_eq _ (by omega) (Nat.zero_add _), List.drop_zero, Option.bind_some,
      sizeAdd?_eq (by omega)]
    rfl

example : ((⟨#v[1, 2, 3, 0], 3⟩ : Accumulator Nat 4).fill? [4, 5]).map contents =
    some [2, 3, 4, 5] := by decide

/-- A count beyond the array would move from behind it. -/
example : ((⟨#v[1, 2, 3, 0], 5⟩ : Accumulator Nat 4).fill? [4]).map contents = none := by decide

theorem consume?_eq {a : Accumulator α cap} {consumed : Nat} (bounded : a.len ≤ cap)
    (range : cap < 2 ^ 32) (inside : consumed ≤ a.len) :
    a.consume? consumed = some (a.consume consumed) := by
  have left := sizeSub_eq inside (by omega)
  rw [consume?, consume, sizeSub?_eq inside (by omega)]
  dsimp only [Option.bind_eq_bind, Option.bind_some]
  split
  · rw [memmove?_eq _ (by omega)]
    rfl
  · rfl

theorem consume?_le {a b : Accumulator α cap} {consumed : Nat}
    (defined : a.consume? consumed = some b) : consumed ≤ a.len := by
  obtain ⟨_, left, _⟩ := Option.bind_eq_some_iff.mp defined
  unfold sizeSub? at left
  split at left
  · assumption
  · contradiction

namespace Loop
variable {step : List α → Nat → σ → Nat × σ}

/-- Every turn that goes on takes something, and no more than there is. -/
theorem turns_inside {x y : Accumulator α cap × σ} {turns : List Turn}
    (loop : Loop step x turns y) : ∀ turn ∈ turns, 1 ≤ turn.consumed ∧ turn.consumed ≤ turn.len := by
  induction loop with
  | empty none => exact List.forall_mem_nil _
  | stop some consumed => exact List.forall_mem_nil _
  | turn some consumed positive defined rest ih =>
    exact List.forall_mem_cons.mpr ⟨⟨Nat.one_le_iff_ne_zero.mpr positive, consume?_le defined⟩, ih⟩

/-- The start determines the turns and where they end. -/
theorem unique {x y z : Accumulator α cap × σ} {turns others : List Turn}
    (loop : Loop step x turns y) (other : Loop step x others z) : others = turns ∧ z = y := by
  induction loop generalizing others z with
  | empty none =>
    cases other with
    | empty => exact ⟨rfl, rfl⟩
    | stop some => exact absurd none some
    | turn some => exact absurd none some
  | stop some consumed =>
    cases other with
    | empty none => exact absurd none some
    | stop _ consumed' =>
      cases consumed.symm.trans consumed'
      exact ⟨rfl, rfl⟩
    | turn _ consumed' positive =>
      cases consumed.symm.trans consumed'
      exact absurd rfl positive
  | turn some consumed positive defined rest ih =>
    cases other with
    | empty none => exact absurd none some
    | stop _ consumed' =>
      cases consumed.symm.trans consumed'
      exact absurd rfl positive
    | turn _ consumed' _ defined' rest' =>
      cases consumed.symm.trans consumed'
      cases defined.symm.trans defined'
      obtain ⟨rfl, rfl⟩ := ih rest'
      exact ⟨rfl, rfl⟩

end Loop

variable {r : Rules α} {step : List α → Nat → σ → Nat × σ}

/-- A turn of fuel for each element is enough: the loop ends where `drain` does. -/
theorem loop_drain (isLocal : Local step) (follows : Follows r (onContents step))
    (range : cap < 2 ^ 32) {fuel : Nat} {a : Accumulator α cap} (bounded : a.len ≤ cap)
    (enough : a.len ≤ fuel) (s : σ) : ∃ turns, Loop step (a, s) turns (drain step fuel (a, s)) := by
  induction fuel generalizing a s with
  | zero => exact ⟨[], .empty (Nat.le_zero.mp enough)⟩
  | succ fuel ih =>
    rw [drain]
    split
    · exact ⟨[], .empty ‹_›⟩
    rename_i some
    obtain ⟨consumed, s', taken⟩ : ∃ consumed s', step a.cells.toList a.len s = (consumed, s') :=
      ⟨_, _, rfl⟩
    have inside : consumed ≤ a.len := by
      have width := follows.consumed a.contents s
      rw [← isLocal.contents bounded, taken] at width
      rw [← length_contents bounded]
      exact width.trans_le (r.width_le a.contents)
    simp only [taken]
    split
    · subst consumed
      exact ⟨[], .stop some taken⟩
    · have less := (consume_contents consumed bounded range inside).1
      obtain ⟨turns, loop⟩ := ih (a := a.consume consumed) (by omega) (by omega) s'
      exact ⟨_, .turn some taken ‹_› (consume?_eq bounded range inside) loop⟩

/-- A call on a chunk: the fill step is defined and keeps the newest elements, the loop
has one run, its turns take at least one element and no more than there are, and at most
`bound` elements are left. -/
def Safe (step : List α → Nat → σ → Nat × σ) (bound : Nat) (a : Accumulator α cap) (s : σ)
    (data : List α) (after : Accumulator α cap × σ) : Prop :=
  ∃ filled turns, a.fill? data = some filled ∧ filled.len = min cap (a.len + data.length) ∧
    filled.contents = (a.contents ++ data).rtake (min cap (a.len + data.length)) ∧
    Loop step (filled, s) turns after ∧
    (∀ others y, Loop step (filled, s) others y → others = turns ∧ y = after) ∧
    (∀ turn ∈ turns, 1 ≤ turn.consumed ∧ turn.consumed ≤ turn.len) ∧ after.1.len ≤ bound

/-- A call leaves a buffer that the rules wait on. -/
theorem feed_waits (isLocal : Local step) (follows : Follows r (onContents step))
    (range : 2 * cap ≤ 2 ^ 32) {a : Accumulator α cap} (bounded : a.len ≤ cap) (s : σ)
    {data : List α} (nonempty : data ≠ []) (size : data.length < 2 ^ 32) :
    (feed step (a, s) data).1.len ≤ cap ∧
      r.verdict (feed step (a, s) data).1.contents = .wait := by
  obtain ⟨within, same⟩ := feed_contents isLocal follows range bounded s data size
  obtain ⟨contents, -⟩ := Prod.ext_iff.mp same
  dsimp only at contents
  rw [Framing.feed, if_neg nonempty, follows.drainAll_residual] at contents
  exact ⟨within, contents ▸ Rules.residual_waits _⟩

theorem feed_safe (isLocal : Local step) (follows : Follows r (onContents step))
    (range : 2 * cap ≤ 2 ^ 32) {bound : Nat}
    (residual : ∀ buffer, r.verdict buffer = .wait → buffer.length ≤ bound)
    {a : Accumulator α cap} (bounded : a.len ≤ cap) (s : σ) {data : List α} (nonempty : data ≠ [])
    (size : data.length < 2 ^ 32) : Safe step bound a s data (feed step (a, s) data) := by
  obtain ⟨len, contents⟩ := fill_contents bounded range data size
  have within := fill_bounded bounded range data
  have nonzero : data.length ≠ 0 := by rwa [Ne, List.length_eq_zero_iff]
  obtain ⟨turns, loop⟩ := loop_drain isLocal follows (by omega) within le_rfl s
  have run : drain step (a.fill data).len (a.fill data, s) = feed step (a, s) data :=
    (if_neg nonzero).symm
  rw [run] at loop
  obtain ⟨kept, waits⟩ := feed_waits isLocal follows range bounded s nonempty size
  refine ⟨a.fill data, turns, fill?_eq bounded range size, len, ?_, loop, fun _ _ => loop.unique,
    loop.turns_inside, length_contents kept ▸ residual _ waits⟩
  have newest : (a.contents ++ data).length - min cap (a.len + data.length) =
      (a.contents ++ data).length - cap := by
    rw [List.length_append, length_contents bounded]
    omega
  rw [contents, List.rtake, newest]

end Accumulator
end Framing
