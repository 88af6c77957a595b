import FlexitCs60.Capture.Scan

/-! The scan of a capture never leaves a slice, and what it counts is a sweep. -/
namespace FlexitCs60.Capture
open Wire Framing

/-- A branch runs through, and leaves alone what counts the frames. -/
def Runs (r : Report) (after : Option Report) : Prop :=
  ∃ r', after = some r' ∧ r'.total = r.total ∧ r'.frames = r.frames

theorem setBits_total (bitmap : List UInt8) {numbers : List Nat}
    (inside : ∀ bit ∈ numbers, bit < bitmap.length * 8) :
    ∃ set, setBits bitmap numbers = some set := by
  induction numbers with
  | nil => exact ⟨[], rfl⟩
  | cons bit later ih =>
    obtain ⟨set, rest⟩ := ih fun number among => inside number (List.mem_cons_of_mem _ among)
    have room := inside bit List.mem_cons_self
    have byte := List.getElem?_eq_getElem (show bit / 8 < bitmap.length by omega)
    rw [setBits, byte, rest]
    exact ⟨_, rfl⟩

namespace Report
variable {f : List UInt8} {len : Nat} (r : Report)

theorem fc65_runs (room : 6 ≤ f.length) : Runs r (r.fc65 f) := by
  obtain ⟨reg, first⟩ := be16_total (show 2 + 1 < f.length by omega)
  obtain ⟨val, second⟩ := be16_total (show 4 + 1 < f.length by omega)
  rw [fc65, first, second]
  exact ⟨_, rfl, rfl, rfl⟩

theorem fc06_runs (room : 6 ≤ f.length) : Runs r (r.fc06 f) := by
  obtain ⟨reg, first⟩ := be16_total (show 2 + 1 < f.length by omega)
  obtain ⟨val, second⟩ := be16_total (show 4 + 1 < f.length by omega)
  rw [fc06, first, second]
  simp only [Option.bind_eq_bind, Option.bind_some]
  split_ifs
  · exact ⟨_, rfl, rfl, rfl⟩
  · exact ⟨_, rfl, rfl, rfl⟩

theorem fc01_runs {bc : UInt8} (byte : f[2]? = some bc) (room : 3 + bc.toNat ≤ f.length) :
    Runs r (r.fc01 f len) := by
  have bitmap := slice_eq (b := f) (Nat.le_add_right 3 bc.toNat) room
  obtain ⟨set, raised⟩ : ∃ set, setBits _ (List.range (bc.toNat * 8)) = some set :=
    setBits_total ((f.drop 3).take (3 + bc.toNat - 3)) fun bit among => by
      rw [List.length_take, List.length_drop]
      have := List.mem_range.mp among
      omega
  have slave := List.getElem?_eq_getElem (show 0 < f.length by omega)
  rw [fc01]
  split_ifs
  · simp only [Option.bind_eq_bind, byte, Option.bind_some, bitmap, raised, slave]
    split_ifs
    · exact ⟨_, rfl, rfl, rfl⟩
    · exact ⟨_, rfl, rfl, rfl⟩
  · exact ⟨_, rfl, rfl, rfl⟩

theorem fc03_runs (room : 5 ≤ f.length) : Runs r (r.fc03 f len) := by
  have slave := List.getElem?_eq_getElem (show 0 < f.length by omega)
  have size := List.getElem?_eq_getElem (show 2 < f.length by omega)
  obtain ⟨reg, asked⟩ := be16_total (show 2 + 1 < f.length by omega)
  obtain ⟨word, answered⟩ := be16_total (show 3 + 1 < f.length by omega)
  rw [fc03]
  split_ifs
  · simp only [Option.bind_eq_bind, slave, Option.bind_some, asked]
    exact ⟨_, rfl, rfl, rfl⟩
  · simp only [Option.bind_eq_bind, size, Option.bind_some, answered]
    split_ifs
    all_goals exact ⟨_, rfl, rfl, rfl⟩
  · exact ⟨_, rfl, rfl, rfl⟩

theorem regAt_total (data : List UInt8) (addr : Nat) : ∃ word, regAt data addr = some word := by
  rw [regAt]
  split_ifs with inside
  · obtain ⟨word, read⟩ := be16_total
      (show (addr - 0x00BE) * 2 + 1 < data.length by omega)
    rw [read]
    exact ⟨_, rfl⟩
  · exact ⟨none, rfl⟩

theorem fc10_runs (room : 9 ≤ f.length) : Runs r (r.fc10 f) := by
  have slave := List.getElem?_eq_getElem (show 0 < f.length by omega)
  obtain ⟨reg, start⟩ := be16_total (show 2 + 1 < f.length by omega)
  have data := slice_eq (b := f) (show 7 ≤ f.length - 2 by omega) (by omega)
  obtain ⟨be, first⟩ := regAt_total ((f.drop 7).take (f.length - 2 - 7)) 0x00BE
  obtain ⟨c2, second⟩ := regAt_total ((f.drop 7).take (f.length - 2 - 7)) 0x00C2
  rw [fc10]
  simp only [Option.bind_eq_bind, slave, Option.bind_some, start, data, first, second]
  split_ifs
  · cases be <;> cases c2 <;> try exact ⟨_, rfl, rfl, rfl⟩
    dsimp only
    split_ifs
    all_goals exact ⟨_, rfl, rfl, rfl⟩
  all_goals exact ⟨_, rfl, rfl, rfl⟩

/-- The frame a candidate length cuts out is long enough for its branch. -/
theorem branch_runs {buf lengths} {i : Nat} {fc : UInt8}
    (found : candidateLengths buf i = some lengths) (candidate : len ∈ lengths)
    (inside : i + len ≤ buf.length) (code : buf[i + 1]? = some fc) :
    Runs r (r.branch fc ((buf.drop i).take len) len) := by
  have size := length_segment inside
  have room : 5 ≤ len := by
    obtain ⟨_, _, ⟨_, rfl | ⟨_, _, rfl⟩⟩ | ⟨_, rfl⟩ | ⟨_, _, _, rfl⟩⟩ :=
      candidate_cases found candidate
    all_goals omega
  obtain ⟨fc', code', origin⟩ := candidate_cases found candidate
  obtain rfl : fc = fc' := Option.some.inj (code.symm.trans code')
  rw [branch]
  split_ifs with flexit coils reads writes status
  · subst flexit
    obtain rfl : len = 8 := by simpa using origin
    exact fc65_runs r (by omega)
  · subst coils
    have origin : len = 8 ∨ ∃ bc, buf[i + 2]? = some bc ∧ len = bc.toNat + 5 := by
      simpa using origin
    rcases origin with rfl | ⟨bc, byte, rfl⟩
    · rw [fc01, if_neg (by omega)]
      exact ⟨r, rfl, rfl, rfl⟩
    · have size' : ((buf.drop i).take (bc.toNat + 5))[2]? = some bc := by
        rw [getElem?_segment (by omega), byte]
      exact fc01_runs r size' (by omega)
  · exact fc03_runs r (by omega)
  · subst writes
    obtain rfl : len = 8 := by simpa using origin
    exact fc06_runs r (by omega)
  · subst status
    obtain ⟨bc, byte, rfl⟩ : ∃ bc, buf[i + 6]? = some bc ∧ len = bc.toNat + 9 := by
      simpa using origin
    exact fc10_runs r (by omega)
  · exact ⟨r, rfl, rfl, rfl⟩

theorem count_runs (window : Int × Int) {buf lengths} {i : Nat}
    (found : candidateLengths buf i = some lengths) (candidate : len ∈ lengths)
    (inside : i + len ≤ buf.length) :
    ∃ r', r.count window i ((buf.drop i).take len) len = some r' ∧
      r'.total = r.total + 1 ∧ r'.frames = r.frames ++ [⟨i, len⟩] := by
  obtain ⟨fc, code, origin⟩ := candidate_cases found candidate
  have room : 1 < len := by
    rcases origin with ⟨_, rfl | ⟨_, _, rfl⟩⟩ | ⟨_, rfl⟩ | ⟨_, _, _, rfl⟩
    all_goals omega
  have first : ((buf.drop i).take len)[1]? = some fc := by
    rw [getElem?_segment room, code]
  obtain ⟨r', ran, total, frames⟩ := (r.tally i fc len).branch_runs found candidate inside code
  refine ⟨r'.dump window fc ((buf.drop i).take len) len, ?_, ?_, ?_⟩
  · rw [count, first]
    simp only [Option.bind_eq_bind, Option.bind_some, ran]
    rfl
  · rw [dump]
    split_ifs
    · exact total
    · exact total
  · rw [dump]
    split_ifs
    · exact frames
    · exact frames

end Report

/-- A piece of the file that passes the check. -/
def Valid (buf : List UInt8) (i len : Nat) : Prop :=
  i + len ≤ buf.length ∧ crcOK ((buf.drop i).take len) = some true

theorem Valid.room {buf : List UInt8} {i len : Nat} (valid : Valid buf i len) : 4 ≤ len := by
  obtain ⟨inside, checked⟩ := valid
  by_contra short
  rw [crcOK, if_pos (by rw [length_segment inside]; omega)] at checked
  simp at checked

/-- What trying some lengths at a position comes to: none is valid, or one is counted. -/
def Tried (buf : List UInt8) (i : Nat) (r : Report) (lengths : List Nat)
    (after : Option (Option (Nat × Report))) : Prop :=
  (after = some none ∧ ∀ len ∈ lengths, ¬ Valid buf i len) ∨
  ∃ len r', after = some (some (len, r')) ∧ len ∈ lengths ∧ Valid buf i len ∧
    r'.total = r.total + 1 ∧ r'.frames = r.frames ++ [⟨i, len⟩]

theorem Tried.skip {buf : List UInt8} {i len : Nat} {r : Report} {rest : List Nat}
    {after : Option (Option (Nat × Report))} (later : Tried buf i r rest after)
    (invalid : ¬ Valid buf i len) : Tried buf i r (len :: rest) after := by
  rcases later with ⟨none, clear⟩ | ⟨other, r', taken, mem, counted⟩
  · exact .inl ⟨none, by simpa using ⟨invalid, clear⟩⟩
  · exact .inr ⟨other, r', taken, List.mem_cons_of_mem _ mem, counted⟩

theorem tryLengths_tried (window : Int × Int) {buf lengths} {i : Nat} (r : Report)
    (found : candidateLengths buf i = some lengths) {rest : List Nat} (among : rest ⊆ lengths) :
    Tried buf i r rest (tryLengths window buf i r rest) := by
  induction rest with
  | nil => exact .inl ⟨rfl, by simp⟩
  | cons len rest ih =>
    have later := ih fun other mem => among (List.mem_cons_of_mem _ mem)
    by_cases small : i + len > buf.length ∨ len < 4
    · rw [tryLengths, if_pos small]
      refine later.skip fun valid => ?_
      have := valid.room
      have := valid.1
      omega
    · have inside : i + len ≤ buf.length := by omega
      have cut : slice buf i (i + len) = some ((buf.drop i).take len) := by
        rw [slice_eq (Nat.le_add_right i len) inside, Nat.add_sub_cancel_left]
      obtain ⟨ok, check⟩ := crcOK_total ((buf.drop i).take len)
      rw [tryLengths, if_neg small, cut]
      simp only [Option.bind_eq_bind, Option.bind_some, check]
      cases ok with
      | false =>
        refine later.skip fun valid => ?_
        simpa [check] using valid.2
      | true =>
        obtain ⟨r', counted, total, frames⟩ :=
          r.count_runs window found (among List.mem_cons_self) inside
        refine .inr ⟨len, r', ?_, List.mem_cons_self, ⟨inside, check⟩, total, frames⟩
        simp [counted]

/-- A frame the scan may count. -/
def Hit (buf : List UInt8) (i len : Nat) : Prop :=
  ∃ lengths, candidateLengths buf i = some lengths ∧ len ∈ lengths ∧ Valid buf i len

theorem turn_sweeps (window : Int × Int) {buf : List UInt8} {i : Nat} {r : Report}
    (swept : Sweep (Hit buf) i r.frames) (counts : r.total = r.frames.length) :
    ∃ i' r', turn window buf i r = some (i', r') ∧ i < i' ∧ Sweep (Hit buf) i' r'.frames ∧
      r'.total = r'.frames.length := by
  obtain ⟨lengths, found⟩ := candidateLengths_total buf i
  rcases tryLengths_tried window r found (List.Subset.refl lengths) with
    ⟨none, clear⟩ | ⟨len, r', taken, mem, valid, total, frames⟩
  · refine ⟨i + 1, r, by simp [turn, found, none], Nat.lt_succ_self i, swept.slip ?_, counts⟩
    rintro len ⟨lengths', found', mem, valid⟩
    obtain rfl := Option.some.inj (found.symm.trans found')
    exact clear len mem valid
  · have room := valid.room
    refine ⟨i + len, r', by simp [turn, found, taken], by omega, ?_, ?_⟩
    · rw [frames]
      exact swept.take ⟨lengths, found, mem, valid⟩ (by omega)
    · rw [total, frames, counts, List.length_append, List.length_singleton]

theorem scan_sweeps (window : Int × Int) {buf : List UInt8} {fuel i : Nat} {r : Report}
    (enough : buf.length ≤ i + fuel) (swept : Sweep (Hit buf) i r.frames)
    (counts : r.total = r.frames.length) :
    ∃ r', scan window buf fuel i r = some r' ∧ r'.total = r'.frames.length ∧
      ∃ stop, buf.length ≤ stop + 3 ∧ Sweep (Hit buf) stop r'.frames := by
  induction fuel generalizing i r with
  | zero =>
    refine ⟨r, ?_, counts, i, by omega, swept⟩
    rw [scan, if_neg (by omega)]
  | succ fuel ih =>
    rw [scan]
    split_ifs with more
    · obtain ⟨i', r', turned, advanced, swept', counts'⟩ := turn_sweeps window swept counts
      obtain ⟨last, scanned, done⟩ := ih (show buf.length ≤ i' + fuel by omega) swept' counts'
      refine ⟨last, ?_, done⟩
      simp [turned, scanned]
    · exact ⟨r, rfl, counts, i, by omega, swept⟩

/-- On every file the scan runs to its end without leaving a slice. The frames it
counts are valid pieces of candidate lengths, one behind the other, and a position
that none of them covers has no valid candidate. -/
theorem scan_sound (window : Int × Int) (buf : List UInt8) {fuel : Nat}
    (enough : buf.length ≤ fuel) :
    ∃ report, scan window buf fuel 0 Report.empty = some report ∧
      report.total = report.frames.length ∧
      (∀ piece ∈ report.frames, Hit buf piece.start piece.len) ∧
      (report.frames.Pairwise fun a b => a.start < b.start ∧ a.stop ≤ b.start) ∧
      ∀ i, (∀ piece ∈ report.frames, ¬ piece.Covers i) → ∀ len, ¬ Hit buf i len := by
  obtain ⟨report, scanned, counts, stop, ending, swept⟩ :=
    scan_sweeps window (i := 0) (r := Report.empty) (show buf.length ≤ 0 + fuel by omega) .start rfl
  refine ⟨report, scanned, counts, fun piece taken => (swept.sound taken).1, ?_, ?_⟩
  · refine swept.ordered.imp_of_mem ?_
    intro a b taken _ apart
    have nonempty := (swept.sound taken).2.1
    exact ⟨Nat.lt_of_lt_of_le (Nat.lt_add_of_pos_right nonempty) apart, apart⟩
  · intro i free len hit
    by_cases passed : i < stop
    · exact swept.maximal passed free len hit
    · obtain ⟨_, _, _, valid⟩ := hit
      have := valid.room
      have := valid.1
      omega

/-- A mode write behind two bytes of noise. -/
theorem scan_sound_noise :
    ∃ report, scan (0, 0) [0xFF, 0x01, 0x00, 0x06, 0x00, 0x00, 0x00, 0x02, 0x08, 0x1A] 10 0
        Report.empty = some report ∧ report.total = report.frames.length := by
  obtain ⟨report, scanned, counts, -⟩ := scan_sound (0, 0)
    [0xFF, 0x01, 0x00, 0x06, 0x00, 0x00, 0x00, 0x02, 0x08, 0x1A]
    (show 10 ≤ 10 by decide)
  exact ⟨report, scanned, counts⟩

end FlexitCs60.Capture
