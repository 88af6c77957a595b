import FlexitCs60.Cache.LeastRecent
import FlexitCs60.Mirror.Listener

/-! The table of single-register writes as a table of slots: what its search
chooses, and that it is faithful to the writes that were accepted. -/
namespace FlexitCs60.Mirror
open Wire Framing

/-- An accepted single-register write. -/
structure Write where
  addr : UInt16
  value : UInt16
  atMs : UInt64
  deriving DecidableEq, Repr

namespace Write

/-- The fields `try_decode_fc06` reads from a frame, and its uptime. -/
def ofFrame (uptime : UInt64) (frame : List UInt8) : Write :=
  ⟨getBe16 (frame.drop 2), getBe16 (frame.drop 4), uptime⟩

/-- The slot's contents. -/
def counter (w : Write) : Counter := ⟨w.addr, w.value, w.atMs, true⟩

def stamp (w : Write) : Nat := w.atMs.toNat

end Write

/-- What `try_decode_fc06` does to the table. -/
def record (counters : Vector Counter counterSlots) (w : Write) : Vector Counter counterSlots :=
  counters.set (chooseSlot counters w.addr) w.counter

/-- The table after these writes. -/
def table (ws : List Write) : Vector Counter counterSlots := ws.foldl record initial.counters

/-- The used slots. -/
def slots (counters : Vector Counter counterSlots) (i : Fin counterSlots) : Option Write :=
  let c := counters.get i
  if c.used then some ⟨c.addr, c.value, c.atMs⟩ else none

/-- The slot holds the address that is looked for. -/
def matching (counters : Vector Counter counterSlots) (addr : UInt16)
    (i : Fin counterSlots) : Bool :=
  (counters.get i).used ∧ (counters.get i).addr = addr

section
variable {counters : Vector Counter counterSlots} {addr : UInt16} {i : Fin counterSlots}

theorem slots_eq_none : slots counters i = none ↔ (counters.get i).used = false := by
  unfold slots
  cases used : (counters.get i).used <;> simp [used]

theorem slots_eq_some {w : Write} : slots counters i = some w ↔ counters.get i = w.counter := by
  unfold slots
  generalize counters.get i = c
  obtain ⟨addr, value, atMs, used⟩ := c
  obtain ⟨addr', value', atMs'⟩ := w
  cases used <;> simp [Write.counter]

theorem get_set (c : Counter) (j : Fin counterSlots) :
    (counters.set i.val c i.isLt).get j = if i = j then c else counters.get j := by
  have same : i.val = j.val ↔ i = j := Fin.val_inj
  refine (Vector.getElem_set i.isLt j.isLt).trans ?_
  simp only [same]
  rfl

theorem get_replicate (c : Counter) : (Vector.replicate counterSlots c).get i = c :=
  Vector.getElem_replicate i.isLt

theorem slots_set (w : Write) :
    slots (counters.set i.val w.counter i.isLt) = Function.update (slots counters) i (some w) := by
  funext j
  unfold slots
  rw [get_set]
  by_cases same : i = j
  · simp [same, Write.counter]
  · simp [same, Ne.symm same]

theorem absent_iff : Slots.Absent Write.addr (slots counters) addr ↔
    ∀ i, matching counters addr i = false := by
  refine forall_congr' fun i => ?_
  unfold slots matching
  cases used : (counters.get i).used <;> simp [used]

/-- What the search notes of a slot that does not match. -/
def visit (c : Counter) (i : Fin counterSlots) (r : Search) : Search :=
  let r := if !c.used ∧ r.freeSlot = none then { r with freeSlot := some i } else r
  if c.used ∧ c.atMs < r.lruAt then { r with lruAt := c.atMs, lruSlot := i } else r

theorem visit_slot (c : Counter) (r : Search) : (visit c i r).slot = r.slot := by
  unfold visit
  dsimp only
  split <;> split <;> rfl

theorem visit_free (c : Counter) (r : Search) :
    (visit c i r).freeSlot = r.freeSlot.or (if c.used then none else some i) := by
  unfold visit
  cases c.used with
  | false =>
    simp only [Bool.not_false, true_and, Bool.false_eq_true, false_and, if_false]
    cases free : r.freeSlot <;> simp [free]
  | true =>
    simp only [Bool.not_true, Bool.false_eq_true, false_and, if_false, true_and, if_true]
    rw [Option.or_none]
    split <;> rfl

theorem visit_used {c : Counter} (used : c.used = true) (r : Search) : visit c i r =
    if c.atMs < r.lruAt then { r with lruAt := c.atMs, lruSlot := i } else r := by
  simp only [visit, used, Bool.not_true, Bool.false_eq_true, false_and, if_false, true_and]

theorem searchSlots_cons (rest : List (Fin counterSlots)) (r : Search) :
    searchSlots counters addr (i :: rest) r =
      if matching counters addr i then { r with slot := some i }
      else searchSlots counters addr rest (visit (counters.get i) i r) := by
  simp only [matching, decide_eq_true_eq]
  rfl

theorem searchSlots_slot (l : List (Fin counterSlots)) {r : Search} (open' : r.slot = none) :
    (searchSlots counters addr l r).slot = l.find? (matching counters addr) := by
  induction l generalizing r with
  | nil => exact open'
  | cons i rest ih =>
    rw [searchSlots_cons, List.find?_cons]
    cases matching counters addr i with
    | true => rfl
    | false => exact ih ((visit_slot _ r).trans open')

/-- Without a match the first free slot is found. -/
theorem searchSlots_free {l : List (Fin counterSlots)} {r : Search}
    (absent : ∀ i ∈ l, matching counters addr i = false) :
    (searchSlots counters addr l r).freeSlot =
      r.freeSlot.or (l.find? fun i => !(counters.get i).used) := by
  induction l generalizing r with
  | nil => exact (Option.or_none ..).symm
  | cons i rest ih =>
    have others : ∀ j ∈ rest, matching counters addr j = false := fun j member =>
      absent j (List.mem_cons_of_mem i member)
    rw [searchSlots_cons, absent i List.mem_cons_self, if_neg Bool.false_ne_true, ih others,
      visit_free, List.find?_cons, Option.or_assoc]
    cases (counters.get i).used <;> rfl

/-- The slot found so far is the lowest of those seen with the least stamp. -/
def Oldest (counters : Vector Counter counterSlots) (seen : List (Fin counterSlots)) (r : Search) :
    Prop :=
  r.lruAt = (counters.get r.lruSlot).atMs ∧ ∀ j ∈ seen,
    r.lruAt ≤ (counters.get j).atMs ∧ (j < r.lruSlot → r.lruAt < (counters.get j).atMs)

theorem Oldest.visit {seen : List (Fin counterSlots)} {r : Search}
    (oldest : Oldest counters seen r) (used : (counters.get i).used = true)
    (behind : r.lruSlot ≤ i) : Oldest counters (seen ++ [i]) (visit (counters.get i) i r) := by
  obtain ⟨at', least⟩ := oldest
  rw [visit_used used]
  by_cases older : (counters.get i).atMs < r.lruAt
  · rw [if_pos older]
    refine ⟨rfl, fun j member => ?_⟩
    rcases List.mem_append.mp member with before | last
    · have later := UInt64.lt_of_lt_of_le older (least j before).1
      exact ⟨UInt64.le_of_lt later, fun _ => later⟩
    · cases List.mem_singleton.mp last
      exact ⟨UInt64.le_refl _, fun lower => absurd lower (lt_irrefl _)⟩
  · rw [if_neg older]
    refine ⟨at', fun j member => ?_⟩
    rcases List.mem_append.mp member with before | last
    · exact least j before
    · cases List.mem_singleton.mp last
      exact ⟨UInt64.not_lt.mp older, fun lower => absurd lower (not_lt.mpr behind)⟩

theorem visit_lruSlot_le {c : Counter} {r : Search} (used : c.used = true)
    (behind : r.lruSlot ≤ i) : (visit c i r).lruSlot ≤ i := by
  rw [visit_used used]
  split
  · exact le_refl i
  · exact behind

/-- Without a match, and with every slot used, the search ends at the oldest one. -/
theorem searchSlots_oldest {l seen : List (Fin counterSlots)} {r : Search}
    (used : ∀ i ∈ l, (counters.get i).used = true)
    (absent : ∀ i ∈ l, matching counters addr i = false)
    (ascending : l.Pairwise (· ≤ ·)) (behind : ∀ i ∈ l, r.lruSlot ≤ i)
    (oldest : Oldest counters seen r) :
    Oldest counters (seen ++ l) (searchSlots counters addr l r) := by
  induction l generalizing seen r with
  | nil => rwa [List.append_nil]
  | cons i rest ih =>
    obtain ⟨first, ascending⟩ := List.pairwise_cons.mp ascending
    have here := behind i List.mem_cons_self
    have inUse := used i List.mem_cons_self
    rw [searchSlots_cons, absent i List.mem_cons_self, if_neg Bool.false_ne_true, List.append_cons]
    apply ih
    · exact fun j member => used j (List.mem_cons_of_mem i member)
    · exact fun j member => absent j (List.mem_cons_of_mem i member)
    · exact ascending
    · exact fun j member => (visit_lruSlot_le inUse here).trans (first j member)
    · exact oldest.visit inUse here

theorem chooseSlot_chooses (counters : Vector Counter counterSlots) (addr : UInt16) :
    Slots.Chooses Write.addr (slots counters) addr (chooseSlot counters addr) := by
  unfold chooseSlot
  dsimp only
  rw [searchSlots_slot _ rfl]
  cases found : (List.finRange counterSlots).find? (matching counters addr) with
  | some i =>
    have matched : matching counters addr i = true := List.find?_some found
    have holds : (counters.get i).used = true ∧ (counters.get i).addr = addr :=
      of_decide_eq_true matched
    exact .held _ (if_pos holds.1) holds.2
  | none =>
    have absent : ∀ i, matching counters addr i = false := fun i =>
      Bool.eq_false_iff.mpr (List.find?_eq_none.mp found i (List.mem_finRange i))
    rw [searchSlots_free fun i _ => absent i, Option.none_or]
    cases free : (List.finRange counterSlots).find? fun i => !(counters.get i).used with
    | some i =>
      obtain ⟨unused, before, after, order, others⟩ := List.find?_eq_some_iff_append.mp free
      refine .free (absent_iff.mpr absent) (slots_eq_none.mpr (Bool.not_eq_true' _ |>.mp unused)) ?_
      intro j lower
      have place : j ∈ before ++ i :: after := order ▸ List.mem_finRange j
      have ascending : (before ++ i :: after).Pairwise (· < ·) :=
        order ▸ List.pairwise_lt_finRange counterSlots
      rw [ne_eq, slots_eq_none]
      rcases List.mem_append.mp place with front | back
      · simpa using others j front
      · rcases List.mem_cons.mp back with rfl | behind
        · exact absurd lower (lt_irrefl _)
        · have above := (List.pairwise_cons.mp (List.pairwise_append.mp ascending).2.1).1 j behind
          exact absurd above (lt_asymm lower)
    | none =>
      refine .evict ⟨absent_iff.mpr absent, fun i => ?_⟩
      have used := List.find?_eq_none.mp free i (List.mem_finRange i)
      rw [ne_eq, slots_eq_none]
      simpa using used

/-- The slot given up is the lowest of those with the least stamp. -/
theorem chooseSlot_least (evicts : Slots.Evicts Write.addr (slots counters) addr) :
    Slots.LeastStamp Write.stamp (slots counters) (chooseSlot counters addr) := by
  have absent : ∀ i, matching counters addr i = false := absent_iff.mp evicts.1
  have used : ∀ i : Fin counterSlots, (counters.get i).used = true := fun i =>
    (Bool.not_eq_false _).mp (mt slots_eq_none.mpr (evicts.2 i))
  have unmatched : (List.finRange counterSlots).find? (matching counters addr) = none :=
    List.find?_eq_none.mpr fun i _ => Bool.eq_false_iff.mp (absent i)
  have full : (List.finRange counterSlots).find? (fun i => !(counters.get i).used) = none := by
    refine List.find?_eq_none.mpr fun i _ => ?_
    rw [used i]
    decide
  have ascending : (List.finRange counterSlots).Pairwise (· ≤ ·) :=
    (List.pairwise_lt_finRange counterSlots).imp le_of_lt
  have oldest : Oldest counters ([] ++ List.finRange counterSlots)
      (searchSlots counters addr (List.finRange counterSlots)
        ⟨none, none, 0, (counters.get 0).atMs⟩) :=
    searchSlots_oldest (fun i _ => used i) (fun i _ => absent i) ascending
      (fun i _ => Fin.zero_le i) ⟨rfl, fun j member => absurd member List.not_mem_nil⟩
  have chosen : chooseSlot counters addr = (searchSlots counters addr (List.finRange counterSlots)
      ⟨none, none, 0, (counters.get 0).atMs⟩).lruSlot := by
    unfold chooseSlot
    dsimp only
    rw [searchSlots_slot _ rfl, unmatched, searchSlots_free fun i _ => absent i, full]
    rfl
  rw [chosen]
  obtain ⟨at', least⟩ := oldest
  intro a here j f there
  rw [slots_eq_some] at here there
  have seen := least j (List.mem_finRange j)
  rw [at', here, there] at seen
  exact ⟨UInt64.le_iff_toNat_le.mp seen.1, fun lower => UInt64.lt_iff_toNat_lt.mp (seen.2 lower)⟩

end

theorem table_concat (ws : List Write) (w : Write) :
    table (ws ++ [w]) = record (table ws) w := by
  rw [table, List.foldl_append]
  rfl

/-- The table fills its slots by address. -/
theorem table_fills : Slots.Fills Write.addr (fun ws => slots (table ws))
    (fun ws w => chooseSlot (table ws) w.addr) where
  empty := funext fun i => slots_eq_none.mpr (by
    rw [show table [] = Vector.replicate counterSlots ⟨0, 0, 0, false⟩ from rfl, get_replicate])
  write ws w := by rw [table_concat, record, slots_set]
  chooses ws w := chooseSlot_chooses (table ws) w.addr

/-- A table that is a faithful map of the writes. -/
structure FaithfulMap (ws : List Write) (counters : Vector Counter counterSlots) : Prop where
  distinct : ∀ i j : Fin counterSlots, (counters.get i).used = true → (counters.get j).used = true →
    (counters.get i).addr = (counters.get j).addr → i = j
  filled : ∀ i : Fin counterSlots, (counters.get i).used = true ↔
    i.val < min counterSlots (ws.map Write.addr).toFinset.card
  latest : ∀ i : Fin counterSlots, (counters.get i).used = true → ∃ before after,
    ws = before ++ ⟨(counters.get i).addr, (counters.get i).value, (counters.get i).atMs⟩ :: after ∧
      ∀ w ∈ after, w.addr ≠ (counters.get i).addr
  last : ∀ w, ws.getLast? = some w → ∃ i : Fin counterSlots, counters.get i = w.counter

theorem table_faithful (ws : List Write) : FaithfulMap ws (table ws) := by
  have holds := table_fills.holds ws
  have here : ∀ {i : Fin counterSlots}, ((table ws).get i).used = true →
      slots (table ws) i = some ⟨((table ws).get i).addr, ((table ws).get i).value,
        ((table ws).get i).atMs⟩ := fun used => if_pos used
  refine ⟨fun i j first second same => holds.distinct i j _ _ (here first) (here second) same,
    fun i => ?_, fun i used => (Recency.mem_recency _).mp (holds.latest i _ (here used)), ?_⟩
  · rw [← Recency.length_recentKeys, ← holds.used i, ne_eq, slots_eq_none, Bool.not_eq_false]
  · intro w last
    obtain ⟨before, rfl⟩ := List.getLast?_eq_some_iff.mp last
    refine ⟨chooseSlot (table before) w.addr, ?_⟩
    rw [table_concat, record, get_set, if_pos rfl]

/-- The accepted frames with the uptimes of their decoding. -/
def stamped (clock : Clock) (accepted : List (List UInt8)) : List (UInt64 × List UInt8) :=
  accepted.zipIdx.map fun frame => (clock frame.2, frame.1)

/-- The single-register writes among accepted frames, which the status blocks are not. -/
def writes (frames : List (UInt64 × List UInt8)) : List Write :=
  (frames.filter fun frame => !opensFc10 frame.2).map fun frame => .ofFrame frame.1 frame.2

theorem stamped_concat (clock : Clock) (accepted : List (List UInt8)) (frame : List UInt8) :
    stamped clock (accepted ++ [frame]) =
      stamped clock accepted ++ [(clock accepted.length, frame)] := by
  simp [stamped, List.zipIdx_append]

theorem writes_concat (frames : List (UInt64 × List UInt8)) (uptime : UInt64)
    (frame : List UInt8) : writes (frames ++ [(uptime, frame)]) =
      if opensFc10 frame then writes frames else writes frames ++ [.ofFrame uptime frame] := by
  unfold writes
  cases opened : opensFc10 frame <;> simp [opened]

variable [Zephyr]

/-- A decoded write is recorded, a status block leaves the table alone. -/
theorem counters_accept {clock : Clock} {frame : List UInt8} {s : Traced}
    {frames : List (UInt64 × List UInt8)}
    (valid : crcOk frame (if opensFc10 frame then fc10Len else fc06Len) = true)
    (recorded : s.state.counters = table (writes frames)) :
    (accept clock frame s).state.counters =
      table (writes (frames ++ [(clock s.accepted.length, frame)])) := by
  rw [writes_concat]
  cases fc10 : opensFc10 frame with
  | true =>
    rw [fc10, if_pos rfl] at valid
    simp only [accept, decodeFrame, fc10, if_true, tryDecodeFc10, valid]
    exact recorded
  | false =>
    rw [fc10, if_neg (by decide)] at valid
    simp only [accept, decodeFrame, fc10, Bool.false_eq_true, if_false, tryDecodeFc06, valid,
      if_true]
    rw [table_concat, ← recorded]
    rfl

/-- After any feeds the table is that of the writes accepted so far. -/
theorem counters_run (clock : Clock) (chunks : List (List UInt8)) :
    (run clock chunks).2.state.counters =
      table (writes (stamped clock (run clock chunks).2.accepted)) := by
  induction chunks using List.reverseRecOn with
  | nil => rfl
  | append_singleton chunks data ih =>
    rw [run, List.foldl_append]
    refine Accumulator.feed_induction
      (P := fun s : Traced => s.state.counters = table (writes (stamped clock s.accepted)))
      (fun cells len s recorded => ?_) _ _ data ih
    rcases (tryDecodeAtFront_cases clock cells len s).2 with same | failed | ⟨frame, valid, decoded⟩
    · rwa [same]
    · rw [failed]
      exact recorded
    · rw [decoded, counters_accept valid recorded, accept, stamped_concat]

/-- A single-register write changes at most one slot. -/
theorem tryDecodeFc06_slot (uptime : UInt64) (frame : List UInt8) (s : State) :
    ∃ i : Fin counterSlots, ∀ j ≠ i,
      (tryDecodeFc06 uptime frame s).2.counters.get j = s.counters.get j := by
  refine ⟨chooseSlot s.counters (getBe16 (frame.drop 2)), fun j apart => ?_⟩
  unfold tryDecodeFc06
  split
  · rw [get_set, if_neg (Ne.symm apart)]
  · rfl

/-- Whatever is fed, under any clock: the table is a faithful map of the writes,
between any two of them too. -/
theorem counters_faithful (clock : Clock) (chunks : List (List UInt8)) :
    FaithfulMap (writes (stamped clock (run clock chunks).2.accepted))
        (run clock chunks).2.state.counters ∧
      (∀ ws, FaithfulMap ws (table ws)) ∧
      ∀ uptime frame s, ∃ i : Fin counterSlots, ∀ j ≠ i,
        (tryDecodeFc06 uptime frame s).2.counters.get j = s.counters.get j := by
  refine ⟨?_, table_faithful, tryDecodeFc06_slot⟩
  rw [counters_run]
  exact table_faithful _

end FlexitCs60.Mirror
