import FlexitCs60.Stream.Drain
import Mathlib.Data.Vector.Basic

/-! A fixed array with a fill count as the storage of a bounded buffer. The
operations are the C ones (`memcpy`, `memmove`, 32-bit `size_t` subtraction);
while the count is within the array they refine the list operations of
`Framing.feed`. -/
namespace Framing

variable {α σ : Type*} {cap : Nat}

structure Accumulator (α : Type*) (cap : Nat) where
  cells : Vector α cap
  len : Nat

/-- Subtraction of two `size_t` values. -/
def sizeSub (a b : Nat) : Nat := (a + 2 ^ 32 - b) % 2 ^ 32

theorem sizeSub_eq {a b : Nat} (ordered : b ≤ a) (range : a < 2 ^ 32) : sizeSub a b = a - b := by
  rw [sizeSub, show a + 2 ^ 32 - b = a - b + 2 ^ 32 by omega, Nat.add_mod_right,
    Nat.mod_eq_of_lt (by omega)]

/-- `memcpy(cells + start, data, len)` -/
def memcpy (cells : Vector α cap) (start : Nat) (data : List α) : Vector α cap :=
  Vector.ofFn fun i =>
    if start ≤ i.val then (data[i.val - start]?).getD cells[i] else cells[i]

/-- `memmove(cells, cells + start, count)` -/
def memmove (cells : Vector α cap) (start count : Nat) : Vector α cap :=
  Vector.ofFn fun i =>
    if i.val < count then (cells[start + i.val]?).getD cells[i] else cells[i]

theorem take_memcpy (cells : Vector α cap) (start : Nat) (data : List α)
    (room : start + data.length ≤ cap) :
    (memcpy cells start data).toList.take (start + data.length) =
      cells.toList.take start ++ data := by
  apply List.ext_getElem
  · simp
    omega
  · intro i left right
    simp only [List.length_take, Vector.length_toList] at left
    simp only [List.getElem_take, Vector.getElem_toList, memcpy, Vector.getElem_ofFn,
      Fin.getElem_fin]
    by_cases before : i < start
    · rw [if_neg (by omega), List.getElem_append_left (by simp; omega), List.getElem_take,
        Vector.getElem_toList]
    · rw [if_pos (by omega), List.getElem_append_right (by simp; omega)]
      have size : min start cap = start := by omega
      simp only [List.length_take, Vector.length_toList, size]
      rw [List.getElem?_eq_getElem (by omega), Option.getD_some]

theorem take_memmove (cells : Vector α cap) (start count : Nat) (room : start + count ≤ cap) :
    (memmove cells start count).toList.take count = (cells.toList.drop start).take count := by
  apply List.ext_getElem
  · simp
    omega
  · intro i left right
    simp only [List.length_take, Vector.length_toList] at left
    simp only [List.getElem_take, List.getElem_drop, Vector.getElem_toList, memmove,
      Vector.getElem_ofFn, Fin.getElem_fin]
    rw [if_pos (by omega), Vector.getElem?_eq_getElem (by omega), Option.getD_some]

namespace Accumulator

/-- The elements the count says are present. -/
def contents (a : Accumulator α cap) : List α := a.cells.toList.take a.len

theorem length_contents {a : Accumulator α cap} (bounded : a.len ≤ cap) :
    a.contents.length = a.len := by
  simp only [contents, List.length_take, Vector.length_toList]
  omega

/-- The fill step: keep the tail of an oversized chunk, otherwise drop the
oldest elements until the chunk fits, and append it. -/
def fill (a : Accumulator α cap) (data : List α) : Accumulator α cap :=
  if cap ≤ data.length then
    ⟨memcpy a.cells 0 (data.drop (sizeSub data.length cap)), cap⟩
  else
    let a :=
      if cap < a.len + data.length then
        let drop := sizeSub (a.len + data.length) cap
        ⟨memmove a.cells drop (sizeSub a.len drop), sizeSub a.len drop⟩
      else a
    ⟨memcpy a.cells a.len data, a.len + data.length⟩

/-- One turn of the loop body after a positive `consumed`. -/
def consume (a : Accumulator α cap) (consumed : Nat) : Accumulator α cap :=
  ⟨if consumed < a.len then memmove a.cells consumed (sizeSub a.len consumed) else a.cells,
    sizeSub a.len consumed⟩

/-- The decode loop over the array. `step` sees the whole array and the count. -/
def drain (step : List α → Nat → σ → Nat × σ) : Nat → Accumulator α cap × σ → Accumulator α cap × σ
  | 0, x => x
  | fuel + 1, (a, s) =>
    if a.len = 0 then (a, s)
    else
      let (consumed, s) := step a.cells.toList a.len s
      if consumed = 0 then (a, s) else drain step fuel (a.consume consumed, s)

/-- A feed call. The loop runs with one turn of fuel for every element. -/
def feed (step : List α → Nat → σ → Nat × σ) (x : Accumulator α cap × σ) (data : List α) :
    Accumulator α cap × σ :=
  if data.length = 0 then x
  else drain step (x.1.fill data).len (x.1.fill data, x.2)

/-- An invariant of the single steps is one of a feed, whatever is dropped. -/
theorem feed_induction {step : List α → Nat → σ → Nat × σ} {P : σ → Prop}
    (preserves : ∀ cells len s, P s → P (step cells len s).2) (a : Accumulator α cap) (s : σ)
    (data : List α) (initial : P s) : P (feed step (a, s) data).2 := by
  have loop : ∀ fuel (a : Accumulator α cap) s, P s → P (drain step fuel (a, s)).2 := by
    intro fuel
    induction fuel with
    | zero => exact fun _ _ initial => initial
    | succ fuel ih =>
      intro a s initial
      simp only [drain]
      split
      · exact initial
      · split
        · exact preserves _ _ _ initial
        · exact ih _ _ (preserves _ _ _ initial)
  unfold feed
  split
  · exact initial
  · exact loop _ _ _ initial

/-- A matcher that keeps further records feeds as the one without them does. -/
theorem feed_erase {τ : Type*} {step : List α → Nat → σ → Nat × σ}
    {recording : List α → Nat → τ → Nat × τ} {erase : τ → σ}
    (erases : ∀ cells len t, step cells len (erase t) =
      ((recording cells len t).1, erase (recording cells len t).2))
    (a : Accumulator α cap) (t : τ) (data : List α) :
    feed step (a, erase t) data =
      ((feed recording (a, t) data).1, erase (feed recording (a, t) data).2) := by
  have loop : ∀ fuel (a : Accumulator α cap) t, drain step fuel (a, erase t) =
      ((drain recording fuel (a, t)).1, erase (drain recording fuel (a, t)).2) := by
    intro fuel
    induction fuel with
    | zero => exact fun _ _ => rfl
    | succ fuel ih =>
      intro a t
      simp only [drain, erases]
      split
      · rfl
      · split
        · rfl
        · exact ih _ _
  unfold feed
  split
  · rfl
  · exact loop _ _ _

/-- The oldest elements dropped until `len` more fit. -/
def makeRoom (a : Accumulator α cap) (len : Nat) : Accumulator α cap :=
  if cap < a.len + len then
    let drop := sizeSub (a.len + len) cap
    ⟨memmove a.cells drop (sizeSub a.len drop), sizeSub a.len drop⟩
  else a

/-- A chunk shorter than the array goes behind what is kept. -/
theorem fill_short (a : Accumulator α cap) {data : List α} (short : ¬ cap ≤ data.length) :
    a.fill data = ⟨memcpy (a.makeRoom data.length).cells (a.makeRoom data.length).len data,
      (a.makeRoom data.length).len + data.length⟩ :=
  if_neg short

theorem makeRoom_contents {a : Accumulator α cap} (bounded : a.len ≤ cap)
    (range : 2 * cap ≤ 2 ^ 32) {len : Nat} (short : ¬ cap ≤ len) :
    (a.makeRoom len).len = min a.len (cap - len) ∧
      (a.makeRoom len).contents = a.contents.drop (a.len + len - cap) := by
  unfold makeRoom
  by_cases full : cap < a.len + len
  · have skip : sizeSub (a.len + len) cap = a.len + len - cap := sizeSub_eq (by omega) (by omega)
    have kept : sizeSub a.len (a.len + len - cap) = cap - len := by
      rw [sizeSub_eq (by omega) (by omega)]
      omega
    simp only [if_pos full, skip, kept]
    refine ⟨by omega, ?_⟩
    have rest : a.len - (a.len + len - cap) = cap - len := by omega
    simp only [contents]
    rw [take_memmove _ _ _ (by omega), List.drop_take, rest]
  · rw [if_neg full, Nat.sub_eq_zero_of_le (Nat.not_lt.mp full), List.drop_zero]
    exact ⟨by omega, rfl⟩

theorem fill_contents {a : Accumulator α cap} (bounded : a.len ≤ cap) (range : 2 * cap ≤ 2 ^ 32)
    (data : List α) (size : data.length < 2 ^ 32) :
    (a.fill data).len = min cap (a.len + data.length) ∧
      (a.fill data).contents =
        (a.contents ++ data).drop ((a.contents ++ data).length - cap) := by
  have length := length_contents bounded
  by_cases big : cap ≤ data.length
  · have tail : (data.drop (data.length - cap)).length = cap := by
      rw [List.length_drop]
      omega
    have copied := take_memcpy a.cells 0 (data.drop (data.length - cap)) (by omega)
    rw [tail, Nat.zero_add, List.take_zero, List.nil_append] at copied
    rw [fill, if_pos big, sizeSub_eq big size]
    refine ⟨by dsimp only; omega, ?_⟩
    have skipped : (a.contents ++ data).length - cap = a.contents.length + (data.length - cap) := by
      rw [List.length_append]
      omega
    rw [skipped, List.drop_append, List.drop_eq_nil_of_le (Nat.le_add_right _ _),
      List.nil_append, Nat.add_sub_cancel_left]
    exact copied
  · obtain ⟨len, kept⟩ := makeRoom_contents bounded range big
    rw [fill_short a big]
    refine ⟨by dsimp only; omega, ?_⟩
    rw [contents, take_memcpy _ _ _ (by omega), ← contents, kept, List.length_append, length,
      List.drop_append_of_le_length (by omega)]

/-- However much arrives, the count stays within the array. -/
theorem fill_bounded {a : Accumulator α cap} (bounded : a.len ≤ cap) (range : 2 * cap ≤ 2 ^ 32)
    (data : List α) : (a.fill data).len ≤ cap := by
  by_cases big : cap ≤ data.length
  · rw [fill, if_pos big]
  · rw [(fill_contents bounded range data (by omega)).1]
    exact min_le_left ..

theorem consume_contents {a : Accumulator α cap} (consumed : Nat) (bounded : a.len ≤ cap)
    (range : cap < 2 ^ 32) (inside : consumed ≤ a.len) :
    (a.consume consumed).len = a.len - consumed ∧
      (a.consume consumed).contents = a.contents.drop consumed := by
  have left : sizeSub a.len consumed = a.len - consumed := sizeSub_eq inside (by omega)
  refine ⟨left, ?_⟩
  simp only [consume, contents, left]
  split
  · rw [take_memmove _ _ _ (by omega), List.drop_take]
  · rw [show a.len - consumed = 0 by omega, List.take_zero, List.drop_take,
      show a.len - consumed = 0 by omega, List.take_zero]

/-- A step reads the array only below the count. -/
def Local (step : List α → Nat → σ → Nat × σ) : Prop :=
  ∀ cells len s, len ≤ cells.length → step cells len s = step (cells.take len) len s

/-- A step on the elements alone, with their number as the count. -/
def onContents (step : List α → Nat → σ → Nat × σ) (buffer : List α) (s : σ) : Nat × σ :=
  step buffer buffer.length s

/-- What such a step sees of a bounded array is its contents. -/
theorem Local.contents {step : List α → Nat → σ → Nat × σ} (isLocal : Local step)
    {a : Accumulator α cap} (bounded : a.len ≤ cap) (s : σ) :
    step a.cells.toList a.len s = onContents step a.contents s := by
  rw [isLocal _ _ _ (by rw [Vector.length_toList]; exact bounded), onContents,
    length_contents bounded]
  rfl

variable {r : Rules α} {step : List α → Nat → σ → Nat × σ}

theorem drain_contents (isLocal : Local step) (follows : Follows r (onContents step))
    (range : cap < 2 ^ 32) (fuel : Nat) {a : Accumulator α cap} (bounded : a.len ≤ cap) (s : σ) :
    (drain step fuel (a, s)).1.len ≤ a.len ∧
      ((drain step fuel (a, s)).1.contents, (drain step fuel (a, s)).2) =
        Framing.drain (onContents step) fuel a.contents s := by
  induction fuel generalizing a s with
  | zero => exact ⟨le_rfl, rfl⟩
  | succ fuel ih =>
    have size := length_contents bounded
    have reads := isLocal.contents bounded s
    have width := follows.consumed a.contents s
    have within := r.width_le a.contents
    simp only [drain, Framing.drain, reads]
    by_cases empty : a.len = 0
    · have nil : a.contents = [] := List.length_eq_zero_iff.mp (by omega)
      rw [if_pos empty, if_pos nil]
      exact ⟨le_rfl, rfl⟩
    · have some : a.contents ≠ [] := by
        intro nil
        rw [nil, List.length_nil] at size
        omega
      rw [if_neg empty, if_neg some]
      by_cases none : (onContents step a.contents s).1 = 0
      · rw [if_pos none, if_pos none]
        exact ⟨le_rfl, rfl⟩
      · rw [if_neg none, if_neg none]
        obtain ⟨len, contents⟩ := consume_contents (onContents step a.contents s).1 bounded range
          (by omega)
        obtain ⟨shorter, same⟩ := ih (a := a.consume (onContents step a.contents s).1)
          (by omega) (onContents step a.contents s).2
        rw [contents] at same
        exact ⟨by omega, same⟩

/-- A feed over the array is a feed over its contents, and keeps the count
within the array. -/
theorem feed_contents (isLocal : Local step) (follows : Follows r (onContents step))
    (range : 2 * cap ≤ 2 ^ 32) {a : Accumulator α cap} (bounded : a.len ≤ cap) (s : σ)
    (data : List α) (size : data.length < 2 ^ 32) :
    (feed step (a, s) data).1.len ≤ cap ∧
      ((feed step (a, s) data).1.contents, (feed step (a, s) data).2) =
        Framing.feed cap (onContents step) (a.contents, s) data := by
  unfold feed Framing.feed
  by_cases none : data = []
  · rw [if_pos none, if_pos (by rw [none]; rfl)]
    exact ⟨bounded, rfl⟩
  · have nonzero : data.length ≠ 0 := by rwa [Ne, List.length_eq_zero_iff]
    rw [if_neg none, if_neg nonzero]
    obtain ⟨len, filled⟩ := fill_contents bounded range data size
    have bounded : (a.fill data).len ≤ cap := by omega
    obtain ⟨shorter, same⟩ := drain_contents isLocal follows (by omega) (a.fill data).len bounded s
    refine ⟨shorter.trans bounded, ?_⟩
    rw [same, follows.drain_eq_drainAll (by rw [length_contents bounded]), filled]

theorem feeds_contents (isLocal : Local step) (follows : Follows r (onContents step))
    (chunks : List (List α)) (sizes : ∀ chunk ∈ chunks, chunk.length < 2 ^ 32)
    (range : 2 * cap ≤ 2 ^ 32) {a : Accumulator α cap} (bounded : a.len ≤ cap) (s : σ) :
    (chunks.foldl (feed step) (a, s)).1.len ≤ cap ∧
      ((chunks.foldl (feed step) (a, s)).1.contents, (chunks.foldl (feed step) (a, s)).2) =
        chunks.foldl (Framing.feed cap (onContents step)) (a.contents, s) := by
  induction chunks generalizing a s with
  | nil => exact ⟨bounded, rfl⟩
  | cons chunk rest ih =>
    have size := sizes chunk (by simp)
    obtain ⟨bounded, same⟩ := feed_contents isLocal follows range bounded s chunk size
    have := ih (fun c member => sizes c (by simp [member])) bounded (feed step (a, s) chunk).2
    rwa [same] at this

/-- Array feeds that drop nothing amount to one drain of the whole stream. -/
theorem feeds_eq_drainAll (isLocal : Local step) (follows : Follows r (onContents step))
    (chunks : List (List α)) (range : 2 * cap ≤ 2 ^ 32) {a : Accumulator α cap}
    (bounded : a.len ≤ cap) (s : σ) (waits : r.verdict a.contents = .wait)
    (fits : Fits r cap a.contents chunks) :
    (chunks.foldl (feed step) (a, s)).1.len ≤ cap ∧
      ((chunks.foldl (feed step) (a, s)).1.contents, (chunks.foldl (feed step) (a, s)).2) =
        drainAll (onContents step) (a.contents ++ chunks.flatten) s := by
  have sizes := fits.chunk_le
  obtain ⟨bounded, same⟩ := feeds_contents isLocal follows chunks
    (fun c member => by have := sizes c member; omega) range bounded s
  exact ⟨bounded, same.trans (follows.feeds_eq_drainAll chunks _ s waits fits)⟩

end Accumulator
end Framing
