import FlexitCs60.Capture.Sound

/-! A capture that is one frame behind the other, and when the scan gets those frames
back. A read response is mistaken only if its first eight bytes pass for a request. -/
namespace FlexitCs60.Capture
open Wire Framing

/-- A frame with a valid check sum, of a length that is tried where it starts. -/
def Framed (f : List UInt8) : Prop :=
  crcOK f = some true ∧ ∃ lengths, candidateLengths f 0 = some lengths ∧ f.length ∈ lengths

/-- No length that is tried before that of the first frame is valid. -/
def Settled (f later : List UInt8) : Prop :=
  ∀ lengths, candidateLengths f 0 = some lengths →
    ∀ len ∈ lengths.takeWhile (· ≠ f.length), ¬ Valid (f ++ later) 0 len

def Unambiguous (tail : List UInt8) : List (List UInt8) → Prop
  | [] => True
  | f :: rest => Settled f (rest.flatten ++ tail) ∧ Unambiguous tail rest

/-- Where the frames lie. -/
def pieces : Nat → List (List UInt8) → List Piece
  | _, [] => []
  | i, f :: rest => ⟨i, f.length⟩ :: pieces (i + f.length) rest

/-- Frames read one by one, as they were sent. -/
def readFrames (window : Int × Int) : Nat → List (List UInt8) → Report → Option Report
  | _, [], r => some r
  | i, f :: rest, r => do
    let r ← r.count window i f f.length
    readFrames window (i + f.length) rest r

section
variable {buf : List UInt8} {i : Nat} {fc bc : UInt8}

theorem candidateLengths_read (code : buf[i + 1]? = some fc)
    (reads : fc = 0x01 ∨ fc = 0x02 ∨ fc = 0x03 ∨ fc = 0x04) (size : buf[i + 2]? = some bc) :
    candidateLengths buf i = some [8, bc.toNat + 5] := by
  obtain ⟨inside, byte⟩ := List.getElem?_eq_some_iff.mp size
  rw [candidateLengths, if_neg (by omega), code]
  simp [reads, inside, byte]

theorem candidateLengths_single (code : buf[i + 1]? = some fc)
    (single : fc = 0x05 ∨ fc = 0x06 ∨ fc = 0x65) : candidateLengths buf i = some [8] := by
  obtain ⟨inside, _⟩ := List.getElem?_eq_some_iff.mp code
  rw [candidateLengths, if_neg (by omega), code]
  rcases single with rfl | rfl | rfl <;> rfl

theorem candidateLengths_multiple (code : buf[i + 1]? = some fc)
    (multiple : fc = 0x0F ∨ fc = 0x10) (size : buf[i + 6]? = some bc) :
    candidateLengths buf i = some [bc.toNat + 9] := by
  obtain ⟨inside, _⟩ := List.getElem?_eq_some_iff.mp size
  have whole : i + 7 ≤ buf.length := by omega
  rw [candidateLengths, if_neg (by omega), code]
  rcases multiple with rfl | rfl <;> simp [whole, size]

end

theorem getElem?_behind {past f later : List UInt8} {k : Nat} (inside : k < f.length) :
    (past ++ (f ++ later))[past.length + k]? = f[k]? := by
  rw [List.getElem?_append_right (Nat.le_add_right ..), Nat.add_sub_cancel_left,
    List.getElem?_append_left inside]

/-- What lies around a frame does not change which lengths are tried for it. -/
theorem candidateLengths_behind (past later : List UInt8) {f : List UInt8} {lengths : List Nat}
    (found : candidateLengths f 0 = some lengths) (own : f.length ∈ lengths) :
    candidateLengths (past ++ (f ++ later)) past.length = some lengths := by
  rw [← found]
  obtain ⟨fc, code, ⟨reads, origin⟩ | ⟨single, eight⟩ | ⟨multiple, bc, size, nine⟩⟩ :=
    candidate_cases found own
  · have room : 2 < f.length := by
      rcases origin with eight | ⟨bc, _, five⟩
      · omega
      · omega
    have size := List.getElem?_eq_getElem room
    rw [candidateLengths_read (i := 0) code reads (by rwa [Nat.zero_add]),
      candidateLengths_read ((getElem?_behind (by omega)).trans code) reads
        ((getElem?_behind room).trans size)]
  · rw [candidateLengths_single code single,
      candidateLengths_single ((getElem?_behind (by omega)).trans code) single]
  · rw [candidateLengths_multiple code multiple size,
      candidateLengths_multiple ((getElem?_behind (by omega)).trans code) multiple
        ((getElem?_behind (by omega)).trans size)]

theorem valid_behind (past : List UInt8) {f later : List UInt8} {len : Nat} :
    Valid (past ++ (f ++ later)) past.length len ↔ Valid (f ++ later) 0 len := by
  unfold Valid
  rw [List.drop_left, List.drop_zero, List.length_append, Nat.zero_add,
    Nat.add_le_add_iff_left]

theorem Framed.valid {f : List UInt8} (framed : Framed f) (later : List UInt8) :
    Valid (f ++ later) 0 f.length := by
  constructor
  · rw [List.length_append]
    omega
  · rw [List.drop_zero, List.take_left]
    exact framed.1

section
variable (window : Int × Int) {buf : List UInt8} {i len own : Nat} {r : Report} {rest : List Nat}

theorem tryLengths_take (valid : Valid buf i len) :
    tryLengths window buf i r (len :: rest) =
      (r.count window i ((buf.drop i).take len) len).map fun r => some (len, r) := by
  have room := valid.room
  obtain ⟨inside, checked⟩ := valid
  rw [tryLengths, if_neg (by omega), slice_eq (Nat.le_add_right ..) inside,
    Nat.add_sub_cancel_left]
  simp only [Option.bind_eq_bind, Option.bind_some, checked, if_true]
  cases r.count window i ((buf.drop i).take len) len <;> rfl

theorem tryLengths_skip (invalid : ¬ Valid buf i len) :
    tryLengths window buf i r (len :: rest) = tryLengths window buf i r rest := by
  rw [tryLengths]
  by_cases small : i + len > buf.length ∨ len < 4
  · rw [if_pos small]
  · have inside : i + len ≤ buf.length := by omega
    obtain ⟨ok, check⟩ := crcOK_total ((buf.drop i).take len)
    rw [if_neg small, slice_eq (Nat.le_add_right ..) inside, Nat.add_sub_cancel_left]
    simp only [Option.bind_eq_bind, Option.bind_some, check]
    cases ok with
    | false => rfl
    | true => exact absurd ⟨inside, check⟩ invalid

/-- A valid length is taken if none before it is. -/
theorem tryLengths_first (valid : Valid buf i own) (among : own ∈ rest)
    (clear : ∀ len ∈ rest.takeWhile (· ≠ own), ¬ Valid buf i len) :
    tryLengths window buf i r rest =
      (r.count window i ((buf.drop i).take own) own).map fun r => some (own, r) := by
  induction rest with
  | nil => contradiction
  | cons len rest ih =>
    by_cases same : len = own
    · rw [same]
      exact tryLengths_take window valid
    · rw [List.takeWhile_cons_of_pos (by simpa using same)] at clear
      obtain ⟨invalid, clear⟩ := List.forall_mem_cons.mp clear
      rw [tryLengths_skip window invalid]
      exact ih (List.mem_of_ne_of_mem (Ne.symm same) among) clear

/-- And otherwise another is. -/
theorem tryLengths_before {lengths : List Nat} (found : candidateLengths buf i = some lengths)
    (among : rest ⊆ lengths) (early : ∃ len ∈ rest.takeWhile (· ≠ own), Valid buf i len) :
    ∃ len r', tryLengths window buf i r rest = some (some (len, r')) ∧ len ≠ own ∧
      r'.frames = r.frames ++ [⟨i, len⟩] := by
  induction rest with
  | nil =>
    obtain ⟨len, member, _⟩ := early
    contradiction
  | cons len rest ih =>
    obtain ⟨other, member, valid⟩ := early
    by_cases same : len = own
    · rw [List.takeWhile_cons_of_neg (by simpa using same)] at member
      contradiction
    · by_cases first : Valid buf i len
      · obtain ⟨r', counted, -, frames⟩ :=
          r.count_runs window found (among List.mem_cons_self) first.1
        rw [tryLengths_take window first, counted]
        exact ⟨len, r', rfl, same, frames⟩
      · rw [tryLengths_skip window first]
        rw [List.takeWhile_cons_of_pos (by simpa using same)] at member
        have later : other ∈ rest.takeWhile (· ≠ own) := by
          rcases List.mem_cons.mp member with rfl | later
          · exact absurd valid first
          · exact later
        exact ih (fun other member => among (List.mem_cons_of_mem _ member)) ⟨other, later, valid⟩

end

/-- A frame in the file is counted as it was sent, if nothing shorter is taken for it. -/
theorem turn_frame (window : Int × Int) {past f later : List UInt8} {r : Report}
    (framed : Framed f) (settled : Settled f later) :
    turn window (past ++ (f ++ later)) past.length r =
      (r.count window past.length f f.length).map fun r => (past.length + f.length, r) := by
  obtain ⟨lengths, found, own⟩ := framed.2
  have whole : ((past ++ (f ++ later)).drop past.length).take f.length = f := by
    rw [List.drop_left, List.take_left]
  have first := tryLengths_first window (r := r) ((valid_behind past).mpr (framed.valid later)) own
    fun len before valid => settled lengths found len before ((valid_behind past).mp valid)
  rw [whole] at first
  rw [turn, candidateLengths_behind _ _ found own]
  simp only [Option.bind_eq_bind, Option.bind_some, first]
  cases r.count window past.length f f.length <;> rfl

theorem Framed.length_ge {f : List UInt8} (framed : Framed f) : 4 ≤ f.length :=
  (framed.valid []).room

theorem Framed.count_runs (window : Int × Int) {f : List UInt8} (framed : Framed f) (i : Nat)
    (r : Report) : ∃ r', r.count window i f f.length = some r' ∧ r'.total = r.total + 1 ∧
      r'.frames = r.frames ++ [⟨i, f.length⟩] := by
  obtain ⟨lengths, found, own⟩ := framed.2
  have inside := (valid_behind (List.replicate i 0)).mpr (framed.valid [])
  have runs := r.count_runs window (candidateLengths_behind _ [] found own) own inside.1
  rwa [List.drop_left, List.take_left, List.length_replicate] at runs

/-- The scan of settled frames reads them one by one. -/
theorem scan_frames (window : Int × Int) {tail : List UInt8} (short : tail.length ≤ 3)
    {fs : List (List UInt8)} (framed : ∀ f ∈ fs, Framed f) (settled : Unambiguous tail fs)
    (past : List UInt8) {fuel : Nat} (enough : (fs.flatten ++ tail).length ≤ fuel) (r : Report) :
    scan window (past ++ (fs.flatten ++ tail)) fuel past.length r =
      readFrames window past.length fs r := by
  induction fs generalizing past fuel r with
  | nil =>
    unfold scan
    rw [if_neg]
    · rfl
    · rw [List.flatten_nil, List.nil_append, List.length_append]
      omega
  | cons f rest ih =>
    obtain ⟨first, others⟩ := List.forall_mem_cons.mp framed
    have room := first.length_ge
    rw [List.flatten_cons, List.append_assoc, List.length_append] at enough
    obtain ⟨fuel, rfl⟩ : ∃ more, fuel = more + 1 := ⟨fuel - 1, by omega⟩
    have more : past.length + 3 < (past ++ ((f :: rest).flatten ++ tail)).length := by
      rw [List.length_append, List.flatten_cons, List.append_assoc, List.length_append]
      omega
    rw [scan, if_pos more]
    dsimp only
    rw [List.flatten_cons, List.append_assoc, turn_frame window first settled.1, readFrames]
    cases r.count window past.length f f.length with
    | none => rfl
    | some r' =>
      have fits : (rest.flatten ++ tail).length ≤ fuel := by omega
      have next := ih others settled.2 (past ++ f) fits r'
      rw [List.append_assoc, List.length_append] at next
      exact next

/-- Whatever else happens, frames that were counted stay counted. -/
theorem turn_extends (window : Int × Int) (buf : List UInt8) (i : Nat) (r : Report) :
    ∃ i' r', turn window buf i r = some (i', r') ∧
      ((∃ len, i' = i + len ∧ 4 ≤ len ∧ r'.frames = r.frames ++ [⟨i, len⟩]) ∨
        i' = i + 1 ∧ r' = r) := by
  obtain ⟨lengths, found⟩ := candidateLengths_total buf i
  rcases tryLengths_tried window r found (List.Subset.refl lengths) with
    ⟨none, _⟩ | ⟨len, r', taken, _, valid, _, frames⟩
  · exact ⟨i + 1, r, by simp [turn, found, none], .inr ⟨rfl, rfl⟩⟩
  · exact ⟨i + len, r', by simp [turn, found, taken], .inl ⟨len, rfl, valid.room, frames⟩⟩

theorem scan_extends (window : Int × Int) {buf : List UInt8} {fuel i : Nat} {r r' : Report}
    (scanned : scan window buf fuel i r = some r') : r.frames <+: r'.frames := by
  induction fuel generalizing i r with
  | zero =>
    rw [scan] at scanned
    split at scanned
    · contradiction
    · exact Option.some.inj scanned ▸ List.prefix_refl _
  | succ fuel ih =>
    rw [scan] at scanned
    split at scanned
    · obtain ⟨i', next, turned, moved⟩ := turn_extends window buf i r
      simp only [Option.bind_eq_bind, turned, Option.bind_some] at scanned
      refine List.IsPrefix.trans ?_ (ih scanned)
      rcases moved with ⟨len, -, -, frames⟩ | ⟨-, same⟩
      · exact frames ▸ List.prefix_append ..
      · exact same ▸ List.prefix_refl _
    · exact Option.some.inj scanned ▸ List.prefix_refl _

/-- Frames the scan gets back were settled. -/
theorem unambiguous_of_frames (window : Int × Int) {tail : List UInt8}
    {fs : List (List UInt8)} (framed : ∀ f ∈ fs, Framed f) (past : List UInt8) {fuel : Nat}
    {r r' : Report}
    (scanned : scan window (past ++ (fs.flatten ++ tail)) fuel past.length r = some r')
    (same : r'.frames = r.frames ++ pieces past.length fs) : Unambiguous tail fs := by
  induction fs generalizing past fuel r with
  | nil => trivial
  | cons f rest ih =>
    obtain ⟨first, others⟩ := List.forall_mem_cons.mp framed
    obtain ⟨lengths, found, own⟩ := first.2
    have room := first.length_ge
    have more : past.length + 3 < (past ++ ((f :: rest).flatten ++ tail)).length := by
      rw [List.length_append, List.flatten_cons, List.append_assoc, List.length_append]
      omega
    unfold scan at scanned
    rw [if_pos more] at scanned
    cases fuel with
    | zero => contradiction
    | succ fuel =>
      dsimp only at scanned
      rw [List.flatten_cons, List.append_assoc] at scanned
      have settled : Settled f (rest.flatten ++ tail) := by
        intro lengths' found' len before valid
        obtain rfl := Option.some.inj (found.symm.trans found')
        obtain ⟨other, r₁, taken, apart, frames⟩ := tryLengths_before window (r := r)
          (candidateLengths_behind _ _ found own) (List.Subset.refl _)
          ⟨len, before, (valid_behind past).mpr valid⟩
        rw [turn, candidateLengths_behind _ _ found own] at scanned
        simp only [Option.bind_eq_bind, Option.bind_some, taken] at scanned
        have extends' := scan_extends window scanned
        rw [frames, same, List.prefix_append_right_inj] at extends'
        obtain ⟨later, equal⟩ := extends'
        injection equal with here _
        injection here with _ length
        exact apart length
      refine ⟨settled, ?_⟩
      obtain ⟨r₁, counted, -, frames⟩ := first.count_runs window past.length r
      rw [turn_frame window first settled, counted] at scanned
      apply ih others (past ++ f) (r := r₁)
      · rw [List.append_assoc, List.length_append]
        exact scanned
      · rw [same, frames, List.length_append, List.append_assoc]
        rfl

theorem readFrames_frames (window : Int × Int) {fs : List (List UInt8)}
    (framed : ∀ f ∈ fs, Framed f) (i : Nat) (r : Report) :
    ∃ r', readFrames window i fs r = some r' ∧ r'.frames = r.frames ++ pieces i fs := by
  induction fs generalizing i r with
  | nil => exact ⟨r, rfl, (List.append_nil _).symm⟩
  | cons f rest ih =>
    obtain ⟨first, others⟩ := List.forall_mem_cons.mp framed
    obtain ⟨r₁, counted, -, frames⟩ := first.count_runs window i r
    obtain ⟨r', read, frames'⟩ := ih others (i + f.length) r₁
    refine ⟨r', ?_, ?_⟩
    · rw [readFrames, counted]
      exact read
    · rw [frames', frames, List.append_assoc]
      rfl

end FlexitCs60.Capture
