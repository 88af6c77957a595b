import FlexitCs60.Capture.Split
import FlexitCs60.Wire.Bytes
import Mathlib.Data.Int.Notation
import Mathlib.Data.List.Induction

/-! What the report of `rs485-decode` says about the frames of a capture. -/
namespace FlexitCs60.Capture
open Wire Framing

/-- Entries that differ from the one before. -/
def changes {α : Type} [DecidableEq α] (l : List α) : List α :=
  l.foldl (fun out a => if out.getLast? = some a then out else out ++ [a]) []

theorem changes_concat {α : Type} [DecidableEq α] (l : List α) (a : α) : changes (l ++ [a]) =
    if (changes l).getLast? = some a then changes l else changes l ++ [a] := by
  rw [changes, List.foldl_append]
  rfl

theorem getLast?_changes {α : Type} [DecidableEq α] (l : List α) :
    (changes l).getLast? = l.getLast? := by
  induction l using List.reverseRecOn with
  | nil => rfl
  | append_singleton before a ih =>
    rw [changes_concat, List.getLast?_concat]
    split
    · assumption
    · exact List.getLast?_concat

/-- The register and the value of an FC65 or FC06 frame. -/
def wordsOf (fc : UInt8) (f : List UInt8) : Option (UInt16 × UInt16) :=
  if f[1]? = some fc then some (getBe16 (f.drop 2), getBe16 (f.drop 4)) else none

/-- The values that FC06 frames write to a register. -/
def valuesOf (reg : UInt16) (fs : List (List UInt8)) : List ℤ :=
  ((fs.filterMap (wordsOf 0x06)).filter (·.1 = reg)).map fun w => w.2.toNat

/-- The two setpoints of a status broadcast that reaches that far. -/
def statusOf (f : List UInt8) : Option (UInt16 × UInt16) :=
  if f[1]? = some 0x10 ∧ f[0]? = some 0x00 ∧ getBe16 (f.drop 2) = 0x00BE ∧ 19 ≤ f.length then
    some (getBe16 (f.drop 7), getBe16 (f.drop 15))
  else none

structure Told (fs : List (List UInt8)) (r : Report) : Prop where
  codes : ∀ fc, r.fcCount fc = fs.countP fun f => f[1]? = some fc
  acks : r.fc65s = fs.filterMap (wordsOf 0x65)
  lastWrite : ∀ reg, r.fc06Last reg = (valuesOf reg fs).getLast?
  writes : ∀ reg, (r.fc06Trans.filter (·.reg = reg)).map (·.value) = changes (valuesOf reg fs)
  lastStatus : (r.lastBE, r.lastC2) =
    ((fs.filterMap statusOf).getLast?.map fun s => ((s.1.toNat : ℤ), (s.2.toNat : ℤ))).getD (-1, -1)
  setpoints : r.beTimeline.map (fun t => (t.setpoint, t.setpoint2)) =
    changes (fs.filterMap statusOf)

theorem told_empty : Told [] .empty := by
  refine ⟨fun _ => rfl, rfl, fun _ => rfl, fun _ => rfl, rfl, rfl⟩

/-- The part of a report that `Told` is about. -/
def Report.told (r : Report) :=
  (r.fcCount, r.fc65s, r.fc06Last, r.fc06Trans, r.beTimeline, r.lastBE, r.lastC2)

theorem fc01_told {f : List UInt8} {len : Nat} {r r' : Report} (ran : r.fc01 f len = some r') :
    r'.told = r.told := by
  unfold Report.fc01 at ran
  split at ran
  · simp only [Option.bind_eq_bind, Option.bind_eq_some_iff] at ran
    obtain ⟨bc, _, bitmap, _, set, _, slave, _, ran⟩ := ran
    split at ran <;> exact Option.some.inj ran ▸ rfl
  · exact Option.some.inj ran ▸ rfl

theorem fc03_told {f : List UInt8} {len : Nat} {r r' : Report} (ran : r.fc03 f len = some r') :
    r'.told = r.told := by
  unfold Report.fc03 at ran
  split at ran
  · simp only [Option.bind_eq_bind, Option.bind_eq_some_iff] at ran
    obtain ⟨slave, _, reg, _, ran⟩ := ran
    exact Option.some.inj ran ▸ rfl
  · split at ran
    · simp only [Option.bind_eq_bind, Option.bind_eq_some_iff] at ran
      obtain ⟨bc, _, ran⟩ := ran
      split at ran
      · obtain ⟨word, _, ran⟩ := Option.bind_eq_some_iff.mp ran
        split at ran <;> exact Option.some.inj ran ▸ rfl
      · exact Option.some.inj ran ▸ rfl
    · exact Option.some.inj ran ▸ rfl

theorem dump_told (window : Int × Int) (fc : UInt8) (f : List UInt8) (len : Nat) (r : Report) :
    (r.dump window fc f len).told = r.told := by
  unfold Report.dump
  split <;> rfl

theorem be16_eq {b : List UInt8} {off : Nat} (inside : off + 1 < b.length) :
    be16 b off = some (getBe16 (b.drop off)) := by
  have hi := List.getElem?_eq_getElem (show off < b.length by omega)
  have lo := List.getElem?_eq_getElem inside
  rw [be16, getBe16, hi, lo]
  simp [List.getD_eq_getElem?_getD, hi, lo]

theorem Told.congr {fs : List (List UInt8)} {r r' : Report} (same : r'.told = r.told)
    (told : Told fs r) : Told fs r' := by
  obtain ⟨total, valid, fcCount, fc65s, pendSlave, pendReg, fc03Trans, fc03Last, fc06Last,
    fc06Trans, coilEvents, lastCoilSig, lastBE, lastC2, beTimeline, windowDump, frames⟩ := r'
  simp only [Report.told, Prod.mk.injEq] at same
  obtain ⟨rfl, rfl, rfl, rfl, rfl, rfl, rfl⟩ := same
  exact ⟨told.codes, told.acks, told.lastWrite, told.writes, told.lastStatus, told.setpoints⟩

section
variable {fs : List (List UInt8)} {f : List UInt8} {fc : UInt8} {r : Report}

theorem wordsOf_other (code : UInt8) (is : f[1]? = some fc) (other : fc ≠ code) :
    wordsOf code f = none := by
  rw [wordsOf, is, if_neg]
  simpa using other

theorem statusOf_other (is : f[1]? = some fc) (other : fc ≠ 0x10) : statusOf f = none := by
  rw [statusOf, is, if_neg]
  simp [other]

theorem filterMap_none {α : Type} {read : List UInt8 → Option α} (none : read f = none) :
    (fs ++ [f]).filterMap read = fs.filterMap read := by
  rw [List.filterMap_append, List.filterMap_cons_none none, List.filterMap_nil, List.append_nil]

theorem filterMap_some {α : Type} {read : List UInt8 → Option α} {a : α} (some : read f = some a) :
    (fs ++ [f]).filterMap read = fs.filterMap read ++ [a] := by
  rw [List.filterMap_append, List.filterMap_cons_some some, List.filterMap_nil]

theorem valuesOf_none (none : wordsOf 0x06 f = none) (reg : UInt16) :
    valuesOf reg (fs ++ [f]) = valuesOf reg fs := by
  rw [valuesOf, filterMap_none none]
  rfl

theorem valuesOf_some {at' val : UInt16} (some : wordsOf 0x06 f = some (at', val)) (reg : UInt16) :
    valuesOf reg (fs ++ [f]) = valuesOf reg fs ++ if at' = reg then [(val.toNat : ℤ)] else [] := by
  rw [valuesOf, filterMap_some some, List.filter_append, List.map_append]
  by_cases here : at' = reg <;> simp [valuesOf, here]

/-- The frames so far by function code, with one more. -/
theorem Told.tally (told : Told fs r) (is : f[1]? = some fc) (i len : Nat) (c : UInt8) :
    (r.tally i fc len).fcCount c = (fs ++ [f]).countP fun f => f[1]? = some c := by
  rw [List.countP_append, ← told.codes c, List.countP_singleton, is]
  by_cases same : c = fc
  · simp [Report.tally, same]
  · simp [Report.tally, same, Ne.symm same]

theorem Told.acks_none (told : Told fs r) (ack : wordsOf 0x65 f = none) :
    r.fc65s = (fs ++ [f]).filterMap (wordsOf 0x65) := by
  rw [filterMap_none ack]
  exact told.acks

theorem Told.values_none (told : Told fs r) (write : wordsOf 0x06 f = none) :
    (∀ reg, r.fc06Last reg = (valuesOf reg (fs ++ [f])).getLast?) ∧
      ∀ reg, (r.fc06Trans.filter (·.reg = reg)).map (·.value) =
        changes (valuesOf reg (fs ++ [f])) := by
  constructor
  · intro reg
    rw [valuesOf_none write]
    exact told.lastWrite reg
  · intro reg
    rw [valuesOf_none write]
    exact told.writes reg

theorem Told.statuses_none (told : Told fs r) (status : statusOf f = none) :
    (r.lastBE, r.lastC2) = (((fs ++ [f]).filterMap statusOf).getLast?.map fun s =>
        ((s.1.toNat : ℤ), (s.2.toNat : ℤ))).getD (-1, -1) ∧
      r.beTimeline.map (fun t => (t.setpoint, t.setpoint2)) =
        changes ((fs ++ [f]).filterMap statusOf) := by
  rw [filterMap_none status]
  exact ⟨told.lastStatus, told.setpoints⟩

/-- A frame with nothing to tell but its function code. -/
theorem Told.other (told : Told fs r) (is : f[1]? = some fc) (i len : Nat)
    (ack : wordsOf 0x65 f = none) (write : wordsOf 0x06 f = none) (status : statusOf f = none) :
    Told (fs ++ [f]) (r.tally i fc len) := by
  obtain ⟨lastWrite, writes⟩ := told.values_none write
  obtain ⟨lastStatus, setpoints⟩ := told.statuses_none status
  exact ⟨told.tally is i len, told.acks_none ack, lastWrite, writes, lastStatus, setpoints⟩

theorem Told.ack {r' : Report} (told : Told fs r) (is : f[1]? = some 0x65) (i len : Nat)
    (room : 6 ≤ f.length) (ran : (r.tally i 0x65 len).fc65 f = some r') : Told (fs ++ [f]) r' := by
  rw [Report.fc65, be16_eq (by omega), be16_eq (by omega)] at ran
  obtain rfl := Option.some.inj ran
  obtain ⟨lastWrite, writes⟩ := told.values_none (wordsOf_other 0x06 is (by decide))
  obtain ⟨lastStatus, setpoints⟩ := told.statuses_none (statusOf_other is (by decide))
  refine ⟨told.tally is i len, ?_, lastWrite, writes, lastStatus, setpoints⟩
  rw [filterMap_some (a := (getBe16 (f.drop 2), getBe16 (f.drop 4))) (if_pos is), ← told.acks]
  rfl

theorem Told.write {r' : Report} (told : Told fs r) (is : f[1]? = some 0x06) (i len : Nat)
    (room : 6 ≤ f.length) (ran : (r.tally i 0x06 len).fc06 f = some r') : Told (fs ++ [f]) r' := by
  have acks := told.acks_none (wordsOf_other 0x65 is (by decide))
  obtain ⟨lastStatus, setpoints⟩ := told.statuses_none (statusOf_other is (by decide))
  have words : wordsOf 0x06 f = some (getBe16 (f.drop 2), getBe16 (f.drop 4)) := if_pos is
  have values : ∀ reg, valuesOf reg (fs ++ [f]) = _ := valuesOf_some words
  revert values ran
  generalize reads : getBe16 (f.drop 2) = at'
  generalize value : getBe16 (f.drop 4) = val
  intro ran values
  rw [Report.fc06, be16_eq (by omega), be16_eq (by omega), reads, value] at ran
  simp only [Option.bind_eq_bind, Option.bind_some] at ran
  split at ran
  · rename_i changed
    obtain rfl := Option.some.inj ran
    refine ⟨told.tally is i len, acks, fun reg => ?_, fun reg => ?_, lastStatus, setpoints⟩
    · rw [values]
      by_cases here : reg = at'
      · subst here
        simp
      · rw [if_neg (Ne.symm here), List.append_nil, ← told.lastWrite reg]
        exact Function.update_of_ne here _ _
    · rw [values, List.filter_append, List.map_append]
      change (r.fc06Trans.filter _).map _ ++ _ = _
      rw [told.writes reg]
      by_cases here : at' = reg
      · subst here
        rw [if_pos rfl, changes_concat, if_neg]
        · simp
        · rw [getLast?_changes, ← told.lastWrite]
          exact changed
      · simp [here]
  · rename_i same
    obtain rfl := Option.some.inj ran
    have last : r.fc06Last at' = some (val.toNat : ℤ) := not_not.mp same
    refine ⟨told.tally is i len, acks, fun reg => ?_, fun reg => ?_, lastStatus, setpoints⟩
    · rw [values]
      by_cases here : at' = reg
      · subst here
        rw [if_pos rfl, List.getLast?_concat]
        exact last
      · rw [if_neg here, List.append_nil]
        exact told.lastWrite reg
    · rw [values]
      by_cases here : at' = reg
      · subst here
        rw [if_pos rfl, changes_concat, if_pos]
        · exact told.writes at'
        · rw [getLast?_changes, ← told.lastWrite]
          exact last
      · rw [if_neg here, List.append_nil]
        exact told.writes reg

theorem regAt_eq {data : List UInt8} {addr : Nat} : Report.regAt data addr =
    some (if (addr - 0x00BE) * 2 + 2 ≤ data.length then
      some (getBe16 (data.drop ((addr - 0x00BE) * 2))) else none) := by
  unfold Report.regAt
  dsimp only
  split
  · rw [be16_eq (by omega)]
    rfl
  · rfl

theorem getBe16_take {n : Nat} (two : 2 ≤ n) (p : List UInt8) : getBe16 (p.take n) = getBe16 p := by
  rw [getBe16, getBe16, getD_take (by omega), getD_take (by omega)]

/-- What the branch of a status frame looks at. -/
theorem fc10_eq (room : 9 ≤ f.length) (is : f[1]? = some 0x10) (r : Report) : r.fc10 f =
    some (match statusOf f with
      | some (be, c2) =>
        if ((be.toNat : ℤ), (c2.toNat : ℤ)) ≠ (r.lastBE, r.lastC2) then
          { r with
            beTimeline := r.beTimeline ++ [⟨r.valid, be, c2⟩]
            lastBE := be.toNat
            lastC2 := c2.toNat }
        else r
      | none => r) := by
  have slave := List.getElem?_eq_getElem (show 0 < f.length by omega)
  rw [Report.fc10, statusOf, is, slave]
  simp only [Option.bind_eq_bind, Option.bind_some, true_and]
  by_cases broadcast : f[0] = 0x00
  · rw [if_pos broadcast, be16_eq (by omega)]
    simp only [Option.bind_some]
    by_cases block : getBe16 (f.drop 2) = 0x00BE
    · rw [if_pos block, slice_eq (by omega) (by omega)]
      have size : ((f.drop 7).take (f.length - 2 - 7)).length = f.length - 9 := by
        rw [List.length_take, List.length_drop]
        omega
      simp only [Option.bind_some, regAt_eq, size]
      by_cases long : 19 ≤ f.length
      · rw [if_pos (by omega), if_pos (by omega), if_pos ⟨congrArg some broadcast, block, long⟩]
        have first : getBe16 (((f.drop 7).take (f.length - 2 - 7)).drop ((0x00BE - 0x00BE) * 2)) =
            getBe16 (f.drop 7) := getBe16_take (by omega) _
        have second : getBe16 (((f.drop 7).take (f.length - 2 - 7)).drop ((0x00C2 - 0x00BE) * 2)) =
            getBe16 (f.drop 15) := by
          rw [List.drop_take, List.drop_drop]
          exact getBe16_take (by omega) _
        rw [first, second]
        simp only [ne_eq, Prod.mk.injEq, not_and_or]
        split <;> rfl
      · rw [if_neg (show ¬ (0x00C2 - 0x00BE) * 2 + 2 ≤ f.length - 9 by omega),
          if_neg (fun all : some f[0] = some 0 ∧ getBe16 (f.drop 2) = 0x00BE ∧ 19 ≤ f.length =>
            long all.2.2)]
        cases (if (0x00BE - 0x00BE) * 2 + 2 ≤ f.length - 9 then _ else _ : Option UInt16) <;> rfl
    · simp [block]
  · simp [broadcast]

/-- `-1` stands for no status so far. -/
theorem Told.lastStatus_iff (told : Told fs r) (be c2 : UInt16) :
    ((be.toNat : ℤ), (c2.toNat : ℤ)) = (r.lastBE, r.lastC2) ↔
      (fs.filterMap statusOf).getLast? = some (be, c2) := by
  rw [told.lastStatus]
  constructor
  · intro shown
    cases last : (fs.filterMap statusOf).getLast? with
    | none =>
      rw [last] at shown
      have negative : (be.toNat : ℤ) = -1 := congrArg Prod.fst shown
      omega
    | some s =>
      rw [last] at shown
      have first : (be.toNat : ℤ) = s.1.toNat := congrArg Prod.fst shown
      have second : (c2.toNat : ℤ) = s.2.toNat := congrArg Prod.snd shown
      rw [Int.natCast_inj, UInt16.toNat_inj] at first second
      rw [first, second]
  · intro last
    rw [last]
    rfl

theorem Told.status {r' : Report} (told : Told fs r) (is : f[1]? = some 0x10) (i len : Nat)
    (room : 9 ≤ f.length) (ran : (r.tally i 0x10 len).fc10 f = some r') : Told (fs ++ [f]) r' := by
  have ack := wordsOf_other 0x65 is (by decide)
  have write := wordsOf_other 0x06 is (by decide)
  rw [fc10_eq room is] at ran
  obtain rfl := Option.some.inj ran
  cases status : statusOf f with
  | none => exact told.other is i len ack write status
  | some s =>
    obtain ⟨be, c2⟩ := s
    have acks := told.acks_none ack
    obtain ⟨lastWrite, writes⟩ := told.values_none write
    have statuses : (fs ++ [f]).filterMap statusOf = _ := filterMap_some status
    dsimp only
    split
    · rename_i changed
      have new := (told.lastStatus_iff be c2).not.mp changed
      refine ⟨told.tally is i len, acks, lastWrite, writes, ?_, ?_⟩
      · rw [statuses, List.getLast?_concat]
        rfl
      · rw [statuses, changes_concat, if_neg, List.map_append, ← told.setpoints]
        · rfl
        · rw [getLast?_changes]
          exact new
    · rename_i same
      have shown := not_not.mp same
      refine ⟨told.tally is i len, acks, lastWrite, writes, ?_, ?_⟩
      · rw [statuses, List.getLast?_concat]
        exact shown.symm
      · rw [statuses, changes_concat, if_pos, ← told.setpoints]
        · rfl
        · rw [getLast?_changes]
          exact (told.lastStatus_iff be c2).mp shown

/-- A counted frame is told of. -/
theorem Told.count {r' : Report} (told : Told fs r) (framed : Framed f) (window : Int × Int)
    (i : Nat) (counted : r.count window i f f.length = some r') : Told (fs ++ [f]) r' := by
  obtain ⟨lengths, found, own⟩ := framed.2
  obtain ⟨fc, is, origin⟩ := candidate_cases found own
  rw [Nat.zero_add] at is
  rw [Report.count, is] at counted
  simp only [Option.bind_eq_bind, Option.bind_some] at counted
  obtain ⟨ran, branch, dumped⟩ := Option.bind_eq_some_iff.mp counted
  obtain rfl := Option.some.inj dumped
  refine Told.congr (dump_told ..) ?_
  unfold Report.branch at branch
  split at branch
  · rename_i flexit
    subst flexit
    have eight : f.length = 8 := by simpa using origin
    exact told.ack is i f.length (by omega) branch
  split at branch
  · rename_i coils
    subst coils
    exact Told.congr (fc01_told branch) (told.other is i f.length (wordsOf_other _ is (by decide))
      (wordsOf_other _ is (by decide)) (statusOf_other is (by decide)))
  split at branch
  · rename_i reads
    subst reads
    exact Told.congr (fc03_told branch) (told.other is i f.length (wordsOf_other _ is (by decide))
      (wordsOf_other _ is (by decide)) (statusOf_other is (by decide)))
  split at branch
  · rename_i writes
    subst writes
    have eight : f.length = 8 := by simpa using origin
    exact told.write is i f.length (by omega) branch
  split at branch
  · rename_i status
    subst status
    have nine : 9 ≤ f.length := by
      obtain ⟨bc, _, length⟩ : ∃ bc, f[0 + 6]? = some bc ∧ f.length = bc.toNat + 9 := by
        simpa using origin
      omega
    exact told.status is i f.length nine branch
  · rename_i flexit _ _ writes status
    obtain rfl := Option.some.inj branch
    exact told.other is i f.length (wordsOf_other _ is flexit) (wordsOf_other _ is writes)
      (statusOf_other is status)

end

theorem readFrames_told (window : Int × Int) {fs : List (List UInt8)}
    (framed : ∀ f ∈ fs, Framed f) {before : List (List UInt8)} {i : Nat} {r r' : Report}
    (told : Told before r) (read : readFrames window i fs r = some r') :
    Told (before ++ fs) r' := by
  induction fs generalizing before i r with
  | nil =>
    rw [List.append_nil]
    exact Option.some.inj read ▸ told
  | cons f rest ih =>
    obtain ⟨first, others⟩ := List.forall_mem_cons.mp framed
    obtain ⟨r₁, counted, read⟩ := Option.bind_eq_some_iff.mp read
    rw [List.append_cons]
    exact ih others (told.count first window i counted) read

/-- A capture of frames, with less than a frame behind the last of them, is decoded into
these frames if and only if none of its read responses opens like a valid request, be it with
the first byte of what follows. -/
theorem capture_decoded_iff (window : Int × Int) {fs : List (List UInt8)}
    (framed : ∀ f ∈ fs, Framed f) {tail : List UInt8} (short : tail.length ≤ 3) {fuel : Nat}
    (enough : (fs.flatten ++ tail).length ≤ fuel) :
    (∃ report, scan window (fs.flatten ++ tail) fuel 0 .empty = some report ∧
      report.frames = pieces 0 fs ∧ Told fs report) ↔ Unambiguous tail fs := by
  constructor
  · rintro ⟨report, scanned, frames, _⟩
    exact unambiguous_of_frames window framed [] scanned frames
  · intro settled
    obtain ⟨report, read, frames⟩ := readFrames_frames window framed 0 .empty
    refine ⟨report, ?_, frames, readFrames_told window framed told_empty read⟩
    exact (scan_frames window short framed settled [] enough .empty).trans read

/-- No other length is tried before eight, so requests and writes are always settled. -/
theorem settled_eight {f : List UInt8} (framed : Framed f) (eight : f.length = 8)
    (later : List UInt8) : Settled f later := by
  intro lengths found len before
  obtain ⟨lengths', found', own⟩ := framed.2
  obtain rfl := Option.some.inj (found.symm.trans found')
  have first : lengths.takeWhile (· ≠ f.length) = [] := by
    obtain ⟨fc, code, ⟨reads, _⟩ | ⟨single, _⟩ | ⟨_, bc, _, nine⟩⟩ := candidate_cases found own
    · have size := List.getElem?_eq_getElem (show 0 + 2 < f.length by omega)
      rw [candidateLengths_read code reads size] at found
      obtain rfl := Option.some.inj found
      exact List.takeWhile_cons_of_neg (by simp [eight])
    · rw [candidateLengths_single code single] at found
      obtain rfl := Option.some.inj found
      exact List.takeWhile_cons_of_neg (by simp [eight])
    · omega
  rw [first] at before
  contradiction

/-- A setpoint write, the read of a register and its answer, which has two candidate
lengths. -/
def panelFrames : List (List UInt8) :=
  [[0x00, 0x06, 0x00, 0xBE, 0x00, 0xD7, 0xA8, 0x61],
    [0x02, 0x03, 0x00, 0x00, 0x00, 0x01, 0x84, 0x39],
    [0x02, 0x03, 0x02, 0x00, 0x03, 0xBC, 0x45]]

theorem capture_decoded_panel : ∃ report,
    scan (0, 0) (panelFrames.flatten ++ [0xFF]) 24 0 .empty = some report ∧
      report.frames = [⟨0, 8⟩, ⟨8, 8⟩, ⟨16, 7⟩] ∧ Told panelFrames report := by
  have checked : ∀ f ∈ panelFrames, crcOK f = some true := by decide +kernel
  have framed : ∀ f ∈ panelFrames, Framed f := by
    intro f member
    refine ⟨checked f member, ?_⟩
    simp only [panelFrames, List.mem_cons, List.not_mem_nil, or_false] at member
    rcases member with rfl | rfl | rfl
    · exact ⟨[8], rfl, by decide⟩
    · exact ⟨[8, 5], rfl, by decide⟩
    · exact ⟨[8, 7], rfl, by decide⟩
  obtain ⟨write, others⟩ := List.forall_mem_cons.mp framed
  obtain ⟨read, _⟩ := List.forall_mem_cons.mp others
  have answer : Settled [0x02, 0x03, 0x02, 0x00, 0x03, 0xBC, 0x45] [0xFF] := by
    intro lengths found len before
    obtain rfl := Option.some.inj (show some [8, 7] = some lengths from found)
    obtain rfl := List.mem_singleton.mp (show len ∈ [8] from before)
    rintro ⟨_, valid⟩
    exact absurd valid (by decide +kernel)
  have settled : Unambiguous [0xFF] panelFrames :=
    ⟨settled_eight write rfl _, settled_eight read rfl _, answer, trivial⟩
  exact (capture_decoded_iff (0, 0) framed (by decide) (by decide)).mpr settled

end FlexitCs60.Capture
