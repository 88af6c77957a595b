import FlexitCs60.Client.Upload
import Mathlib.Data.List.Pairwise

/-! Every upload comes to an end, and one that succeeds has left no byte out that
the server did not skip itself. -/
namespace FlexitCs60.Client
open Wire

/-- The unsigned offset a response carries. -/
def Answer.offset : Answer → Option UInt64
  | .response rm => uintAt "off" rm
  | _ => none

/-- A nonzero unsigned return code. -/
def Answer.Refuses : Answer → Prop
  | .response rm => ∃ rc, uintAt "rc" rm = some rc ∧ rc ≠ 0
  | _ => False

/-- No further request follows such an answer to a chunk at `off`. -/
def Answer.Fatal (off : Nat) (a : Answer) : Prop :=
  a = .callFailed ∨ a = .undecodable ∨ a.Refuses ∨ ∃ n, a.offset = some n ∧ goInt n ≤ off

/-- A link longer than the reserve carries what is left of it. -/
theorem chunkSize_wide {mtu : Int} (wide : 96 < mtu) : (chunkSize mtu : Int) = mtu - 96 := by
  rw [chunkSize, if_pos (by omega), if_pos (by omega)]
  omega

theorem chunkSize_narrow {mtu : Int} (narrow : mtu ≤ 96) : chunkSize mtu = 128 := by
  unfold chunkSize
  dsimp only
  rw [if_neg (show ¬ mtu - 96 > 0 by omega), ite_self]

theorem chunkSize_pos (mtu : Int) : 0 < chunkSize mtu := by
  rcases Int.lt_or_le 96 mtu with wide | narrow
  · have reserved := chunkSize_wide wide
    omega
  · rw [chunkSize_narrow narrow]
    decide

theorem nextOff_ok {off stop next : Nat} {rm : List (String × Value)}
    (ok : nextOff off stop rm = .ok next) : ¬ (Answer.response rm).Refuses ∧
      ((Answer.response rm).offset = none ∧ next = stop ∨
        ∃ n, (Answer.response rm).offset = some n ∧ (off : Int) < goInt n ∧
          next = (goInt n).toNat) := by
  rw [nextOff] at ok
  by_cases refused : (uintAt "rc" rm).getD 0 ≠ 0
  · rw [if_pos refused] at ok
    simp at ok
  · rw [if_neg refused] at ok
    refine ⟨?_, ?_⟩
    · rintro ⟨rc, present, nonzero⟩
      rw [present] at refused
      exact refused nonzero
    · cases offset : uintAt "off" rm with
      | none =>
        rw [offset] at ok
        exact .inl ⟨offset, (Except.ok.inj ok).symm⟩
      | some n =>
        simp only [offset] at ok
        split_ifs at ok with behind
        exact .inr ⟨n, offset, by omega, (Except.ok.inj ok).symm⟩

/-- The loop goes on only behind an answer that is not fatal: to the end of the chunk, or
to the larger offset the server returned. -/
theorem answered_ok {off stop next : Nat} {a : Answer} (ok : answered off stop a = .ok next) :
    ¬ a.Fatal off ∧ (a.offset = none ∧ next = stop ∨
      ∃ n, a.offset = some n ∧ (off : Int) < goInt n ∧ next = (goInt n).toNat) := by
  cases a with
  | callFailed => simp [answered] at ok
  | undecodable => simp [answered] at ok
  | response rm =>
    obtain ⟨accepted, goes⟩ := nextOff_ok ok
    refine ⟨?_, goes⟩
    rintro (failed | garbled | refused | ⟨n, offset, behind⟩)
    · simp at failed
    · simp at garbled
    · exact accepted refused
    · rcases goes with ⟨none, -⟩ | ⟨m, same, ahead, -⟩
      · simp [none] at offset
      · obtain rfl : m = n := Option.some.inj (same.symm.trans offset)
        omega

/-- The end of the chunk at `off`. -/
def stopAt (image : List UInt8) (size off : Nat) : Nat := min (off + size) image.length

theorem length_take_stopAt {image : List UInt8} {off : Nat} (size : Nat)
    (inside : off < image.length) :
    ((image.drop off).take (stopAt image size off - off)).length = stopAt image size off - off := by
  have bound : stopAt image size off ≤ image.length := Nat.min_le_right _ _
  rw [List.length_take, List.length_drop]
  omega

section
variable [Libraries]

/-- A request for the chunk at `off`. -/
structure Request.At (image : List UInt8) (size off : Nat) (q : Request) : Prop where
  chunk : q.chunk = chunkAt image off ((image.drop off).take (stopAt image size off - off))
  frame : ∃ seq payload, marshal (q.chunk.entries image.length) = some payload ∧
    q.frame = uploadFrame seq payload

/-- The passes of the loop from an offset: it ends at once, ends on its request, or goes
on from a larger offset. -/
inductive Uploads (image : List UInt8) (size : Nat) (answers : Nat → Answer) :
    Nat → Nat → Upload → Prop where
  | done {n off : Nat} (passed : image.length ≤ off) :
      Uploads image size answers n off ⟨[], .uploaded⟩
  | unencoded {n off : Nat} (inside : off < image.length)
      (refused : ∃ c : Chunk, marshal (c.entries image.length) = none) :
      Uploads image size answers n off ⟨[], .failed .encode⟩
  | ends {n off : Nat} {q : Request} {e : UploadError} (inside : off < image.length)
      (sent : q.At image size off)
      (answer : answered off (stopAt image size off) (answers n) = .error e) :
      Uploads image size answers n off ⟨[q], .failed e⟩
  | goes {n off next : Nat} {q : Request} {later : Upload} (inside : off < image.length)
      (sent : q.At image size off)
      (answer : answered off (stopAt image size off) (answers n) = .ok next) (ahead : off < next)
      (rest : Uploads image size answers (n + 1) next later) :
      Uploads image size answers n off ⟨q :: later.requests, later.status⟩

variable {image : List UInt8} {size : Nat} {answers : Nat → Answer} {n off : Nat} {u : Upload}

theorem uploadLoop_uploads (positive : 0 < size) {fuel : Nat}
    (enough : image.length ≤ off + fuel) (seq : UInt8) :
    Uploads image size answers n off (uploadLoop image size answers fuel n off seq) := by
  induction fuel generalizing n off seq with
  | zero =>
    rw [uploadLoop, if_neg (by omega)]
    exact .done (by omega)
  | succ fuel ih =>
    by_cases more : off < image.length
    · have stop : (if off + size > image.length then image.length else off + size) =
          stopAt image size off := by
        unfold stopAt
        split_ifs
        all_goals omega
      have ordered : off < stopAt image size off := by
        unfold stopAt
        omega
      have inside : stopAt image size off ≤ image.length := Nat.min_le_right _ _
      rw [uploadLoop, if_pos more]
      simp only [stop, slice_eq ordered.le inside]
      cases encoded : marshal _ with
      | none => exact .unencoded more ⟨_, encoded⟩
      | some payload =>
        cases answer : answered off (stopAt image size off) (answers n) with
        | error e => exact .ends more ⟨rfl, seq, payload, encoded, rfl⟩ answer
        | ok next =>
          have ahead : off < next := by
            rcases (answered_ok answer).2 with ⟨-, rfl⟩ | ⟨m, -, beyond, rfl⟩
            · exact ordered
            · omega
          exact .goes more ⟨rfl, seq, payload, encoded, rfl⟩ answer ahead (ih (by omega) (seq + 1))
    · rw [uploadLoop, if_neg more]
      exact .done (by omega)

namespace Uploads

theorem ends_status (run : Uploads image size answers n off u) :
    u.status ≠ .panicked ∧ u.status ≠ .unfinished := by
  induction run with
  | done passed => simp
  | unencoded inside refused => simp
  | ends inside sent answer => simp
  | goes inside sent answer ahead rest ih => exact ih

theorem at_off {q : Request} (sent : q.At image size off) : q.chunk.off = off :=
  congrArg Chunk.off sent.chunk

/-- Every request is for the chunk at its offset, which lies ahead in the image. -/
theorem sent_at (run : Uploads image size answers n off u) {q : Request} (among : q ∈ u.requests) :
    off ≤ q.chunk.off ∧ q.chunk.off < image.length ∧ q.At image size q.chunk.off := by
  induction run with
  | done passed => simp at among
  | unencoded inside refused => simp at among
  | ends inside sent answer =>
    obtain rfl := List.mem_singleton.mp among
    rw [at_off sent]
    exact ⟨Nat.le_refl _, inside, sent⟩
  | goes inside sent answer ahead rest ih =>
    rcases List.mem_cons.mp among with rfl | behind
    · rw [at_off sent]
      exact ⟨Nat.le_refl _, inside, sent⟩
    · obtain ⟨reached, further⟩ := ih behind
      exact ⟨by omega, further⟩

theorem first_at (run : Uploads image size answers n off u) {q : Request}
    (first : u.requests.head? = some q) : q.chunk.off = off := by
  cases run with
  | done passed => simp at first
  | unencoded inside refused => simp at first
  | ends inside sent answer =>
    obtain rfl := Option.some.inj first
    exact at_off sent
  | goes inside sent answer ahead rest =>
    obtain rfl := Option.some.inj first
    exact at_off sent

/-- Behind the first request, the offsets lie further on. -/
theorem later_beyond (run : Uploads image size answers n off u) {i : Nat} {q : Request}
    (sent : u.requests[i + 1]? = some q) : off < q.chunk.off := by
  cases run with
  | done passed => simp at sent
  | unencoded inside refused => simp at sent
  | ends inside here answer => simp at sent
  | goes inside here answer ahead rest =>
    have reached := (rest.sent_at (List.mem_of_getElem? sent)).1
    omega

theorem increasing (run : Uploads image size answers n off u) :
    u.requests.Pairwise fun a b => a.chunk.off < b.chunk.off := by
  induction run with
  | done passed => exact List.Pairwise.nil
  | unencoded inside refused => exact List.Pairwise.nil
  | ends inside sent answer => exact List.pairwise_singleton _ _
  | goes inside sent answer ahead rest ih =>
    refine List.pairwise_cons.mpr ⟨fun later among => ?_, ih⟩
    have reached := (rest.sent_at among).1
    rw [at_off sent]
    omega

theorem length_le (run : Uploads image size answers n off u) :
    u.requests.length ≤ image.length - off := by
  induction run with
  | done passed => simp
  | unencoded inside refused => simp
  | ends inside sent answer =>
    rw [List.length_singleton]
    omega
  | goes inside sent answer ahead rest ih =>
    rw [List.length_cons]
    omega

/-- A fatal answer is the last one, and the upload fails on it. -/
theorem fatal_last (run : Uploads image size answers n off u) {i : Nat} {q : Request}
    (sent : u.requests[i]? = some q) (fatal : (answers (n + i)).Fatal q.chunk.off) :
    i + 1 = u.requests.length ∧ ∃ e, u.status = .failed e := by
  induction run generalizing i with
  | done passed => simp at sent
  | unencoded inside refused => simp at sent
  | @ends n off _ e inside here answer =>
    cases i with
    | zero => exact ⟨rfl, e, rfl⟩
    | succ i => simp at sent
  | @goes n off next _ later inside here answer ahead rest ih =>
    cases i with
    | zero =>
      obtain rfl := Option.some.inj sent
      rw [at_off here] at fatal
      exact absurd fatal (answered_ok answer).1
    | succ i =>
      have shifted : n + (i + 1) = n + 1 + i := by omega
      rw [shifted] at fatal
      obtain ⟨last, failed⟩ := ih sent fatal
      exact ⟨by rw [List.length_cons, last], failed⟩

/-- A byte inside a chunk that was sent, or below an offset that the server returned. -/
def Covered (answers : Nat → Answer) (n : Nat) (requests : List Request) (b : Nat) : Prop :=
  (∃ q ∈ requests, q.chunk.off ≤ b ∧ b < q.chunk.off + q.chunk.data.length) ∨
  ∃ i < requests.length, ∃ m, (answers (n + i)).offset = some m ∧ (b : Int) < goInt m

theorem covers (run : Uploads image size answers n off u) (uploaded : u.status = .uploaded)
    {b : Nat} (from_here : off ≤ b) (inside : b < image.length) :
    Covered answers n u.requests b := by
  induction run with
  | done passed => omega
  | unencoded within refused => simp at uploaded
  | ends within sent answer => simp at uploaded
  | @goes n off next q later within sent answer ahead rest ih =>
    by_cases reached : next ≤ b
    · rcases ih uploaded reached with ⟨other, among, bounds⟩ | ⟨i, counted, m, offset, below⟩
      · exact .inl ⟨other, List.mem_cons_of_mem _ among, bounds⟩
      · refine .inr ⟨i + 1, ?_, m, ?_, below⟩
        · rw [List.length_cons]
          omega
        · rw [show n + (i + 1) = n + 1 + i by omega, offset]
    · rcases (answered_ok answer).2 with ⟨-, rfl⟩ | ⟨m, offset, -, rfl⟩
      · have data : q.chunk.data.length = stopAt image size off - off := by
          rw [sent.chunk]
          exact length_take_stopAt size within
        refine .inl ⟨q, List.mem_cons_self, ?_⟩
        rw [at_off sent, data]
        omega
      · exact .inr ⟨0, Nat.succ_pos _, m, offset, by omega⟩

end Uploads

/-- With enough passes an upload returns, whatever the server answers: after at most one
request for each byte, each for the next piece of the image, each further on than the
last. It fails on the first fatal answer, and succeeds only when every byte was sent or
lies below an offset the server gave. -/
theorem upload_progress (image : List UInt8) (mtu : Int) (answers : Nat → Answer) (seq : UInt8)
    {fuel : Nat} (enough : image.length ≤ fuel) :
    ∃ requests status, imageUpload image mtu answers seq fuel = ⟨requests, status⟩ ∧
      (status = .uploaded ∨ ∃ e, status = .failed e) ∧
      requests.length ≤ image.length ∧
      (∀ q, requests.head? = some q → q.chunk.off = 0) ∧
      (requests.Pairwise fun a b => a.chunk.off < b.chunk.off) ∧
      (∀ (i : Nat) q, requests[i]? = some q →
        q.chunk.data = (image.drop q.chunk.off).take
          (min (q.chunk.off + chunkSize mtu) image.length - q.chunk.off) ∧
        q.chunk.data ≠ [] ∧
        q.chunk.sha = (if i = 0 then some (sha256 image) else none) ∧
        ((answers i).Fatal q.chunk.off → i + 1 = requests.length ∧ ∃ e, status = .failed e)) ∧
      (status = .uploaded → ∀ b < image.length, Uploads.Covered answers 0 requests b) := by
  have run : Uploads image (chunkSize mtu) answers 0 0 (imageUpload image mtu answers seq fuel) :=
    uploadLoop_uploads (chunkSize_pos mtu) (by omega) seq
  generalize imageUpload image mtu answers seq fuel = u at run
  obtain ⟨requests, status⟩ := u
  refine ⟨requests, status, rfl, ?_, run.length_le, fun q first => run.first_at first,
    run.increasing, ?_, fun uploaded b inside => run.covers uploaded (Nat.zero_le b) inside⟩
  · obtain ⟨safe, passed⟩ := run.ends_status
    cases status with
    | uploaded => exact .inl rfl
    | failed e => exact .inr ⟨e, rfl⟩
    | panicked => exact absurd rfl safe
    | unfinished => exact absurd rfl passed
  · intro i q sent
    obtain ⟨-, inside, here⟩ := run.sent_at (List.mem_of_getElem? sent)
    have data : q.chunk.data = (image.drop q.chunk.off).take
        (stopAt image (chunkSize mtu) q.chunk.off - q.chunk.off) := congrArg Chunk.data here.chunk
    have sha : q.chunk.sha = if q.chunk.off = 0 then some (sha256 image) else none :=
      congrArg Chunk.sha here.chunk
    refine ⟨data, ?_, ?_, ?_⟩
    · intro none
      have length := length_take_stopAt (chunkSize mtu) inside
      have positive := chunkSize_pos mtu
      rw [← data, none, List.length_nil, stopAt] at length
      omega
    · rw [sha]
      cases i with
      | zero => rw [run.first_at (by rw [List.head?_eq_getElem?, sent]), if_pos rfl]
      | succ i =>
        have beyond := run.later_beyond sent
        rw [if_neg (by omega), if_neg (Nat.succ_ne_zero i)]
    · intro fatal
      rw [← Nat.zero_add i] at fatal
      exact run.fatal_last sent fatal

end

/-- A server that skips a byte, in an upload of four. -/
def skipping : Nat → Answer
  | 0 => .response [("rc", .uint 0), ("off", .uint 2)]
  | _ => .response []

/-- The SHA-256 of the bytes 1, 2, 3, 4. -/
def digest1234 : List UInt8 :=
  [0x9F, 0x64, 0xA7, 0x47, 0xE1, 0xB9, 0x7F, 0x13, 0x1F, 0xAB, 0xB6, 0xB4, 0x47, 0x29, 0x6C, 0x9B,
    0x6F, 0x02, 0x01, 0xE7, 0x9F, 0xB3, 0xC5, 0x35, 0x6E, 0x6C, 0x77, 0xE8, 0x9B, 0x6A, 0x80, 0x6A]

/-- The libraries on that image, with the entries of a map in the order given. -/
abbrev sampleLibraries : Libraries := ⟨fun m => some (Cbor.encodeMap m), fun _ => digest1234⟩

theorem upload_progress_skipping : ∃ requests status,
    @imageUpload sampleLibraries [1, 2, 3, 4] 97 skipping 0 4 = ⟨requests, status⟩ ∧
      (status = .uploaded ∨ ∃ e, status = .failed e) ∧
      requests.length ≤ 4 ∧
      (∀ q, requests.head? = some q → q.chunk.off = 0) ∧
      (requests.Pairwise fun a b => a.chunk.off < b.chunk.off) ∧
      (∀ (i : Nat) q, requests[i]? = some q →
        q.chunk.data = ([1, 2, 3, 4].drop q.chunk.off).take
          (min (q.chunk.off + chunkSize 97) 4 - q.chunk.off) ∧
        q.chunk.data ≠ [] ∧
        q.chunk.sha = (if i = 0 then some digest1234 else none) ∧
        ((skipping i).Fatal q.chunk.off → i + 1 = requests.length ∧ ∃ e, status = .failed e)) ∧
      (status = .uploaded → ∀ b < 4, Uploads.Covered skipping 0 requests b) :=
  @upload_progress sampleLibraries [1, 2, 3, 4] 97 skipping 0 4 (by decide)

end FlexitCs60.Client
