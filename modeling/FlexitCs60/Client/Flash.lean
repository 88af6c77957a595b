import FlexitCs60.Client.Confirm
import FlexitCs60.Client.Coverage

/-! `cmdFlash` against the SMP server of the device: what is in slot 1 when the client asks
for a test boot, and when it resets the device. -/
namespace FlexitCs60.Client
open Wire

/-- What `cmdFlash` sends. -/
inductive Sent where
  | imageState
  | upload (len : Nat) (chunk : Chunk)
  | imageTest (hash : List UInt8)
  | osReset
  deriving DecidableEq, Repr

inductive FlashEnd where
  | listFailed
  | uploadFailed (status : Status)
  | hashFailed
  | testFailed
  | resetting
  deriving DecidableEq, Repr

structure Flash where
  sent : List Sent
  status : FlashEnd
  deriving DecidableEq, Repr

/-- The hash of the first entry of slot 1. -/
def imageSlot1Hash : Answer → Option (List UInt8)
  | .response m =>
    match parseImageSlots m with
    | .error _ => none
    | .ok slots => (slots.find? fun s => s.slot = 1).map ImageSlot.hash
  | _ => none

/-- `imageTest` returns no error. -/
def tested : Answer → Bool
  | .response rm => (uintAt "rc" rm).getD 0 = 0
  | _ => false

theorem tested_response {a : Answer} (granted : tested a = true) :
    ∃ rm, a = .response rm ∧ (uintAt "rc" rm).getD 0 = 0 := by
  unfold tested at granted
  split at granted
  · rename_i rm
    exact ⟨rm, rfl, of_decide_eq_true granted⟩
  · contradiction

section
variable [Libraries]

/-- `cmdFlash`; `answers n` is what its `n`-th call comes to. The upload takes no more
passes than the image has bytes. -/
def cmdFlash (image : List UInt8) (mtu : Int) (answers : Nat → Answer) : Flash :=
  match answers 0 with
  | .response _ =>
    let up := imageUpload image mtu (fun n => answers (n + 1)) 1 image.length
    let sent := .imageState :: up.requests.map fun q => .upload image.length q.chunk
    if up.status ≠ .uploaded then ⟨sent, .uploadFailed up.status⟩
    else
      let calls := up.requests.length + 1
      match imageSlot1Hash (answers calls) with
      | none => ⟨sent ++ [.imageState], .hashFailed⟩
      | some hash =>
        if tested (answers (calls + 1)) then
          ⟨sent ++ [.imageState, .imageTest hash, .osReset], .resetting⟩
        else ⟨sent ++ [.imageState, .imageTest hash], .testFailed⟩
  | _ => ⟨[.imageState], .listFailed⟩

end

/-! The device. -/

/-- The SMP server with the slots it writes. -/
structure Server (σ : Type*) where
  handle : σ → Sent → σ × Answer
  /-- What slot 1 has been written with. -/
  slot1 : σ → List UInt8
  /-- The `sha` that an upload in progress was started with. -/
  uploading : σ → Option (List UInt8)
  /-- The hash of the image that the next boot tries. -/
  pending : σ → Option (List UInt8)
  /-- The hash by which an image is listed. -/
  imageHash : List UInt8 → List UInt8

/-- What becomes of a request and of its response. -/
inductive Delivery where
  | answered
  | garbled
  | replyLost
  | requestLost

section
variable {σ : Type*}

/-- The state behind a chunk: the upload starts, resumes, goes on, or ignores it. -/
inductive Server.Takes (server : Server σ) (s t : σ) (c : Chunk) : Prop where
  | starts (first : c.off = 0) (fresh : server.slot1 t = c.data)
  | resumes (first : c.off = 0) (same : server.uploading s = c.sha)
      (kept : server.slot1 t = server.slot1 s)
  | continues (next : c.off = (server.slot1 s).length)
      (more : server.slot1 t = server.slot1 s ++ c.data)
  | ignores (later : c.off ≠ 0) (kept : server.slot1 t = server.slot1 s)

/-- What the client relies on: requests do what they say, a chunk that is accepted is
answered with how far the upload has come (0 where none is in progress), and slot 1 is listed
by its contents. -/
structure Server.Documented (server : Server σ) : Prop where
  accepted : ∀ s len c rm, (server.handle s (.upload len c)).2 = .response rm →
    (uintAt "rc" rm).getD 0 = 0 → server.Takes s (server.handle s (.upload len c)).1 c ∧
      ∃ n, uintAt "off" rm = some n ∧ (goInt n = 0 ∨
        goInt n = (server.slot1 (server.handle s (.upload len c)).1).length)
  listed : ∀ s m slots, (server.handle s .imageState).2 = .response m →
    parseImageSlots m = .ok slots → ∀ entry ∈ slots, entry.slot = 1 →
      entry.hash = server.imageHash (server.slot1 s)
  marked : ∀ s hash rm, (server.handle s (.imageTest hash)).2 = .response rm →
    (uintAt "rc" rm).getD 0 = 0 → server.pending (server.handle s (.imageTest hash)).1 = some hash
  kept : ∀ s, (server.handle s .imageState).1 = s
  spared : ∀ s hash, server.slot1 (server.handle s (.imageTest hash)).1 = server.slot1 s
  reset : ∀ s, server.slot1 (server.handle s .osReset).1 = server.slot1 s ∧
    server.pending (server.handle s .osReset).1 = server.pending s

def Server.call (server : Server σ) (s : σ) (request : Sent) : Delivery → σ × Answer
  | .answered => server.handle s request
  | .garbled => ((server.handle s request).1, .undecodable)
  | .replyLost => ((server.handle s request).1, .callFailed)
  | .requestLost => (s, .callFailed)

/-- The requests from the `n`-th on lead from one state of the device to another. -/
def Server.Serves (server : Server σ) (link : Nat → Delivery) (answers : Nat → Answer) :
    Nat → σ → List Sent → σ → Prop
  | _, s, [], t => s = t
  | n, s, request :: rest, t => ∃ u, server.call s request (link n) = (u, answers n) ∧
      server.Serves link answers (n + 1) u rest t

variable {server : Server σ} {link : Nat → Delivery} {answers : Nat → Answer}

theorem Server.serves_append {first second : List Sent} {n : Nat} {s t : σ} :
    server.Serves link answers n s (first ++ second) t ↔
      ∃ u, server.Serves link answers n s first u ∧
        server.Serves link answers (n + first.length) u second t := by
  induction first generalizing n s with
  | nil => simp [Server.Serves]
  | cons request rest ih =>
    have shift : n + (rest.length + 1) = n + 1 + rest.length := by omega
    simp only [List.cons_append, Server.Serves, List.length_cons, ih, shift]
    constructor
    · rintro ⟨u, call, v, front, back⟩
      exact ⟨v, ⟨u, call, front⟩, back⟩
    · rintro ⟨v, ⟨u, call, front⟩, back⟩
      exact ⟨u, call, v, front, back⟩

/-- A response that decodes comes from the server. -/
theorem Server.call_response {s t : σ} {request : Sent} {d : Delivery} {rm : List (String × Value)}
    (call : server.call s request d = (t, .response rm)) :
    t = (server.handle s request).1 ∧ (server.handle s request).2 = .response rm := by
  cases d with
  | answered =>
    rw [Server.call] at call
    rw [call]
    exact ⟨rfl, rfl⟩
  | garbled => simp [Server.call] at call
  | replyLost => simp [Server.call] at call
  | requestLost => simp [Server.call] at call

/-- The loop goes on only behind a response that refuses nothing. -/
theorem accepted_of_answered {off stop next : Nat} {a : Answer}
    (ok : answered off stop a = .ok next) : ∃ rm, a = .response rm ∧
      (uintAt "rc" rm).getD 0 = 0 ∧ ∀ n, uintAt "off" rm = some n → next = (goInt n).toNat := by
  obtain ⟨passed, goes⟩ := answered_ok ok
  cases a with
  | callFailed => exact absurd (.inl rfl) passed
  | undecodable => exact absurd (.inr (.inl rfl)) passed
  | response rm =>
    refine ⟨rm, rfl, ?_, fun n offset => ?_⟩
    · cases code : uintAt "rc" rm with
      | none => rfl
      | some rc =>
        by_contra refused
        exact passed (.inr (.inr (.inl ⟨rc, code, refused⟩)))
    · rcases goes with ⟨none, _⟩ | ⟨m, same, _, next⟩
      · rw [Answer.offset, offset] at none
        contradiction
      · rw [Answer.offset, offset] at same
        rw [next, Option.some.inj same]

variable [Libraries] {image : List UInt8} {size n off : Nat} {u : Upload}

/-- Slot 1 holds the image up to the offset of the next chunk; before the first chunk, so
does an upload in progress under the hash of the image. -/
structure Server.Reached (server : Server σ) (image : List UInt8) (off : Nat) (s : σ) : Prop where
  first : off = 0 → server.uploading s = some (sha256 image) → server.slot1 s <+: image
  later : 0 < off → server.slot1 s <+: image ∧ (server.slot1 s).length = off

theorem Server.Takes.prefix {s t : σ} {q : Request} (takes : server.Takes s t q.chunk)
    (reached : server.Reached image off s) (sent : q.At image size off) :
    server.slot1 t <+: image := by
  have data : q.chunk.data <+: image.drop off := by
    rw [sent.chunk]
    exact List.take_prefix ..
  have here := Uploads.at_off sent
  rcases Nat.eq_zero_or_pos off with rfl | later
  · cases takes with
    | starts _ fresh =>
      rw [fresh]
      exact data
    | resumes _ same kept =>
      rw [kept]
      exact reached.first rfl (by rw [same, sent.chunk]; rfl)
    | continues next more =>
      have empty : server.slot1 s = [] := List.eq_nil_of_length_eq_zero (next.symm.trans here)
      rw [more, empty]
      exact data
    | ignores first _ => exact absurd here first
  · obtain ⟨front, length⟩ := reached.later later
    cases takes with
    | starts first _ => omega
    | resumes first _ _ => omega
    | continues _ more =>
      have split : image.take off ++ image.drop off = image := List.take_append_drop ..
      rw [more, List.prefix_iff_eq_take.mp front, length]
      calc image.take off ++ q.chunk.data
          <+: image.take off ++ image.drop off := (List.prefix_append_right_inj _).mpr data
        _ = image := split
    | ignores _ kept =>
      rw [kept]
      exact front

/-- An upload that succeeds has written the whole image. -/
theorem upload_written (documented : server.Documented) (nonempty : image ≠ [])
    (run : Uploads image size (fun n => answers (n + 1)) n off u)
    (uploaded : u.status = .uploaded) {s t : σ} (reached : server.Reached image off s)
    (serves : server.Serves link answers (n + 1) s
      (u.requests.map fun q => .upload image.length q.chunk) t) :
    server.slot1 t = image := by
  induction run generalizing s with
  | done passed =>
    obtain rfl := serves
    have some := List.length_pos_iff.mpr nonempty
    obtain ⟨front, length⟩ := reached.later (by omega)
    exact front.eq_of_length_le (by omega)
  | unencoded inside refused => simp at uploaded
  | ends inside sent answer => simp at uploaded
  | @goes n off next q later inside sent answer ahead rest ih =>
    obtain ⟨v, call, serves⟩ := serves
    obtain ⟨rm, response, accepts, goes⟩ := accepted_of_answered answer
    rw [response] at call
    obtain ⟨rfl, handled⟩ := Server.call_response call
    obtain ⟨takes, m, offset, place⟩ := documented.accepted s _ q.chunk rm handled accepts
    have written := takes.prefix reached sent
    have next' := goes m offset
    -- the loop goes on from no offset 0
    have length := place.resolve_left fun none => by omega
    refine ih uploaded ⟨fun first => by omega, fun _ => ⟨written, ?_⟩⟩ serves
    rw [next', length, Int.toNat_natCast]

/-- The requests that lead to a boot of the new image. -/
def Sent.installs : Sent → Bool
  | .imageTest _ => true
  | .osReset => true
  | _ => false

/-- A flash that asks for a test boot: the image list, the upload, the image list again, the
request, and the reset if the request was granted. -/
theorem cmdFlash_cases (image : List UInt8) (mtu : Int) (answers : Nat → Answer) :
    (∀ a ∈ (cmdFlash image mtu answers).sent, a.installs = false) ∨
      ∃ up hash last, up = imageUpload image mtu (fun n => answers (n + 1)) 1 image.length ∧
        up.status = .uploaded ∧ imageSlot1Hash (answers (up.requests.length + 1)) = some hash ∧
        (cmdFlash image mtu answers).sent = .imageState :: (up.requests.map fun q =>
          Sent.upload image.length q.chunk) ++ .imageState :: .imageTest hash :: last ∧
        (last = [] ∨ last = [.osReset] ∧ tested (answers (up.requests.length + 2)) = true) := by
  have chunks : ∀ requests : List Request, ∀ a ∈ requests.map fun q =>
      Sent.upload image.length q.chunk,
      a.installs = false := by
    intro requests a member
    obtain ⟨q, _, rfl⟩ := List.mem_map.mp member
    rfl
  unfold cmdFlash
  split
  · dsimp only
    split
    · exact .inl (List.forall_mem_cons.mpr ⟨rfl, chunks _⟩)
    · rename_i uploaded
      have status := not_not.mp uploaded
      split
      · refine .inl (List.forall_mem_cons.mpr ⟨rfl, List.forall_mem_append.mpr ⟨chunks _, ?_⟩⟩)
        simp [Sent.installs]
      · rename_i hash listed
        split
        · rename_i granted
          exact .inr ⟨_, hash, [.osReset], rfl, status, listed, rfl, .inr ⟨rfl, granted⟩⟩
        · exact .inr ⟨_, hash, [], rfl, status, listed, rfl, .inl rfl⟩
  · exact .inl (by simp [Sent.installs])

omit [Libraries] in
theorem imageSlot1Hash_listed {a : Answer} {hash : List UInt8}
    (listed : imageSlot1Hash a = some hash) :
    ∃ m slots, a = .response m ∧ parseImageSlots m = .ok slots ∧
      ∃ entry ∈ slots, entry.slot = 1 ∧ entry.hash = hash := by
  cases a with
  | callFailed => contradiction
  | undecodable => contradiction
  | response m =>
    simp only [imageSlot1Hash] at listed
    split at listed
    · contradiction
    · rename_i slots parsed
      obtain ⟨entry, found, same⟩ := Option.map_eq_some_iff.mp listed
      exact ⟨m, slots, rfl, parsed, entry, List.mem_of_find?_eq_some found,
        by simpa using List.find?_some found, same⟩

omit [Libraries] in
/-- Reading the image list changes nothing, whatever gets lost. -/
theorem Server.call_imageState (documented : server.Documented) {s t : σ} {d : Delivery}
    {a : Answer} (call : server.call s .imageState d = (t, a)) : t = s := by
  have kept := documented.kept s
  cases d with
  | answered => exact (congrArg Prod.fst call).symm.trans kept
  | garbled => exact (congrArg Prod.fst call).symm.trans kept
  | replyLost => exact (congrArg Prod.fst call).symm.trans kept
  | requestLost => exact (congrArg Prod.fst call).symm

omit [Libraries] in
theorem Server.call_spares (documented : server.Documented) {s t : σ} {hash : List UInt8}
    {d : Delivery} {a : Answer} (call : server.call s (.imageTest hash) d = (t, a)) :
    server.slot1 t = server.slot1 s := by
  have spared := documented.spared s hash
  cases d with
  | answered => exact (congrArg (server.slot1 ·.1) call).symm.trans spared
  | garbled => exact (congrArg (server.slot1 ·.1) call).symm.trans spared
  | replyLost => exact (congrArg (server.slot1 ·.1) call).symm.trans spared
  | requestLost => exact (congrArg (server.slot1 ·.1) call).symm

omit [Libraries] in
theorem Server.call_reset (documented : server.Documented) {s t : σ} {d : Delivery} {a : Answer}
    (call : server.call s .osReset d = (t, a)) :
    server.slot1 t = server.slot1 s ∧ server.pending t = server.pending s := by
  obtain ⟨slot1, pending⟩ := documented.reset s
  obtain rfl := congrArg Prod.fst call
  cases d with
  | answered => exact ⟨slot1, pending⟩
  | garbled => exact ⟨slot1, pending⟩
  | replyLost => exact ⟨slot1, pending⟩
  | requestLost => exact ⟨rfl, rfl⟩

omit [Libraries] in
/-- The hash that is read of slot 1 is that of its image. -/
theorem Server.call_listed (documented : server.Documented) {s t : σ} {d : Delivery} {a : Answer}
    {hash : List UInt8} (call : server.call s .imageState d = (t, a))
    (listed : imageSlot1Hash a = some hash) : hash = server.imageHash (server.slot1 s) := by
  obtain ⟨m, slots, response, parsed, entry, among, one, own⟩ := imageSlot1Hash_listed listed
  rw [response] at call
  have handled := (Server.call_response call).2
  rw [← own]
  exact documented.listed _ _ _ handled parsed entry among one

omit [Libraries] in
/-- The image is to be booted next, once the test was granted. -/
theorem Server.call_tested (documented : server.Documented) {s t : σ} {d : Delivery} {a : Answer}
    {hash : List UInt8} (call : server.call s (.imageTest hash) d = (t, a))
    (granted : tested a = true) : server.pending t = some hash := by
  obtain ⟨rm, rfl, accepts⟩ := tested_response granted
  obtain ⟨rfl, handled⟩ := Server.call_response call
  exact documented.marked _ _ _ handled accepts

/-- What the client asks to be tested, and resets the device for, is the image it was given,
whatever gets lost on the link. -/
theorem flash_installs (documented : server.Documented) (nonempty : image ≠ []) (mtu : Int)
    {s t : σ} (resumable : server.uploading s = some (sha256 image) → server.slot1 s <+: image)
    (serves : server.Serves link answers 0 s (cmdFlash image mtu answers).sent t) :
    (∀ hash, Sent.imageTest hash ∈ (cmdFlash image mtu answers).sent →
        hash = server.imageHash image ∧ server.slot1 t = image) ∧
      (Sent.osReset ∈ (cmdFlash image mtu answers).sent →
        server.slot1 t = image ∧ server.pending t = some (server.imageHash image)) := by
  rcases cmdFlash_cases image mtu answers with
    none | ⟨up, hash, last, sent, uploaded, listed, shape, ends⟩
  · exact ⟨fun hash asked => absurd (none _ asked) (by simp [Sent.installs]),
      fun reset => absurd (none _ reset) (by simp [Sent.installs])⟩
  · rw [shape] at serves ⊢
    obtain ⟨v, ⟨s₁, first, upload⟩, s₂, list, s₃, test, behind⟩ := Server.serves_append.mp serves
    obtain rfl := Server.call_imageState documented first
    obtain rfl := Server.call_imageState documented list
    have loop : Uploads image (chunkSize mtu) (fun n => answers (n + 1)) 0 0 up := by
      rw [sent]
      exact uploadLoop_uploads (chunkSize_pos mtu) (by omega) 1
    have start : server.Reached image 0 s₁ :=
      ⟨fun _ => resumable, fun later => absurd later (Nat.lt_irrefl 0)⟩
    have written : server.slot1 s₂ = image :=
      upload_written documented nonempty loop uploaded start upload
    have place : 0 + (Sent.imageState :: up.requests.map fun q =>
        Sent.upload image.length q.chunk).length = up.requests.length + 1 := by simp
    rw [place] at list test behind
    have same : hash = server.imageHash image := by
      rw [← written]
      exact Server.call_listed documented list listed
    have spared := Server.call_spares documented test
    have asked : ∀ hash', Sent.imageTest hash' ∈ Sent.imageState ::
        (up.requests.map fun q => Sent.upload image.length q.chunk) ++
          .imageState :: .imageTest hash :: last →
        hash' = hash := by
      intro hash' member
      rcases ends with rfl | ⟨rfl, _⟩ <;> simpa using member
    rcases ends with rfl | ⟨rfl, granted⟩
    · obtain rfl := behind
      refine ⟨fun hash' member => ⟨(asked hash' member).trans same, spared.trans written⟩, ?_⟩
      intro reset
      simp at reset
    · obtain ⟨s₄, reset, rfl⟩ := behind
      obtain ⟨slot1, pending⟩ := Server.call_reset documented reset
      have whole := slot1.trans (spared.trans written)
      refine ⟨fun hash' member => ⟨(asked hash' member).trans same, whole⟩, fun _ => ⟨whole, ?_⟩⟩
      rw [pending, ← same]
      exact Server.call_tested documented test granted

end

/-! A server like MCUmgr's, and the rest of an upload that was broken off. -/

/-- What slot 1 has room for. -/
def slotSize : Nat := 0xE5000

def imageMagic : List UInt8 := [0x3D, 0xB8, 0xF3, 0x96]

/-- The hash of a signed image: the first entry behind its header and its body. -/
def bootHash (image : List UInt8) : Option (List UInt8) :=
  let header := (getLe16 (image.drop 8)).toNat
  let body := (getLe16 (image.drop 12)).toNat + (getLe16 (image.drop 14)).toNat * 2 ^ 16
  let tlvs := image.drop (header + body)
  if imageMagic <+: image ∧ [0x07, 0x69] <+: tlvs ∧ [0x10, 0x00, 0x20, 0x00] <+: tlvs.drop 4 ∧
      40 ≤ tlvs.length then some ((tlvs.drop 8).take 32)
  else none

/-- Slot 1 as far as it is written, the length and the `sha` of the upload in progress, and
the hash that the next boot tries. -/
structure Slots where
  slot1 : List UInt8
  fits : slot1.length ≤ slotSize
  upload : Option (Nat × Option (List UInt8))
  pending : Option (List UInt8)

namespace Slots

def expecting (off : Nat) : Answer := .response [("off", .uint (.ofNat off))]

def refusing (rc : UInt64) : Answer := .response [("rc", .uint rc)]

/-- The upload is over once slot 1 holds all of it. -/
def write (s : Slots) (len : Nat) (sha : Option (List UInt8)) (slot1 : List UInt8)
    (fits : slot1.length ≤ slotSize) : Slots × Answer :=
  ({ s with slot1, fits, upload := if slot1.length = len then none else some (len, sha) },
    expecting slot1.length)

/-- The first chunk holds the header of an image. It resumes an upload with its own `sha`. -/
def start (s : Slots) (len : Nat) (c : Chunk) : Slots × Answer :=
  if c.data.length < 32 ∨ ¬ imageMagic <+: c.data then (s, refusing 3)
  else if c.sha.isSome ∧ s.upload.bind Prod.snd = c.sha then (s, expecting s.slot1.length)
  else if s.pending.isSome then (s, refusing 6)
  else if fits : c.data.length ≤ len ∧ len ≤ slotSize then
    s.write len c.sha c.data (fits.1.trans fits.2)
  else (s, refusing 3)

/-- A later chunk, dropped where it is not the next one. -/
def append (s : Slots) (c : Chunk) : Slots × Answer :=
  match s.upload with
  | none => (s, expecting 0)
  | some (len, sha) =>
    if c.off ≠ s.slot1.length then (s, expecting s.slot1.length)
    else if fits : (s.slot1 ++ c.data).length ≤ len ∧ len ≤ slotSize then
      s.write len sha (s.slot1 ++ c.data) (fits.1.trans fits.2)
    else (s, refusing 3)

def entry (slot : UInt64) (hash : List UInt8) (active pending : Bool) : Value :=
  .textMap [("slot", .uint slot), ("hash", .bytes hash), ("active", .bool active),
    ("pending", .bool pending)]

/-- Slot 1 is listed once it holds an image with a hash. -/
def list (s : Slots) : Answer :=
  let second := (bootHash s.slot1).map fun hash => entry 1 hash false (s.pending = some hash)
  .response [("images", .list (entry 0 [0x5A] true false :: second.toList))]

def test (s : Slots) (hash : List UInt8) : Slots × Answer :=
  if bootHash s.slot1 = some hash then
    ({ s with pending := some hash }, { s with pending := some hash }.list)
  else (s, refusing 3)

end Slots

def mcumgr : Server Slots where
  handle s
    | .imageState => (s, s.list)
    | .upload len c => if c.off = 0 then s.start len c else s.append c
    | .imageTest hash => s.test hash
    | .osReset => ({ s with upload := none }, .response [])
  slot1 := Slots.slot1
  uploading s := s.upload.bind Prod.snd
  pending := Slots.pending
  imageHash image := (bootHash image).getD []

theorem goInt_ofNat {n : Nat} (small : n ≤ slotSize) : goInt (.ofNat n) = n := by
  change (BitVec.ofNat 64 n).toInt = n
  have bound : n ≤ 0xE5000 := small
  have value : (BitVec.ofNat 64 n).toNat = n := by
    rw [BitVec.toNat_ofNat]
    omega
  rw [BitVec.toInt_eq_toNat_of_lt (by omega), value]

namespace Slots

/-- An accepted chunk, with what its answer promises. -/
structure Accepted (s : Slots) (c : Chunk) (r : Slots × Answer) : Prop where
  takes : mcumgr.Takes s r.1 c
  answer : r.2 = expecting 0 ∨ r.2 = expecting r.1.slot1.length

theorem start_cases (s : Slots) (len : Nat) {c : Chunk} (first : c.off = 0) :
    Accepted s c (s.start len c) ∨ ∃ rc, rc ≠ 0 ∧ (s.start len c).2 = refusing rc := by
  unfold start
  split
  · exact .inr ⟨3, by decide, rfl⟩
  split
  · rename_i same
    exact .inl ⟨.resumes first same.2 rfl, .inr rfl⟩
  split
  · exact .inr ⟨6, by decide, rfl⟩
  split
  · exact .inl ⟨.starts first rfl, .inr rfl⟩
  · exact .inr ⟨3, by decide, rfl⟩

theorem append_cases (s : Slots) {c : Chunk} (later : c.off ≠ 0) :
    Accepted s c (s.append c) ∨ ∃ rc, rc ≠ 0 ∧ (s.append c).2 = refusing rc := by
  unfold append
  split
  · exact .inl ⟨.ignores later rfl, .inl rfl⟩
  split
  · exact .inl ⟨.ignores later rfl, .inr rfl⟩
  · rename_i next
    split
    · exact .inl ⟨.continues (not_not.mp next) rfl, .inr rfl⟩
    · exact .inr ⟨3, by decide, rfl⟩

end Slots

theorem mcumgr_documented : mcumgr.Documented where
  accepted s len c rm response accepts := by
    have settled : Slots.Accepted s c (mcumgr.handle s (.upload len c)) ∨
        ∃ rc, rc ≠ 0 ∧ (mcumgr.handle s (.upload len c)).2 = Slots.refusing rc := by
      by_cases first : c.off = 0
      · simpa only [mcumgr, if_pos first] using s.start_cases len first
      · simpa only [mcumgr, if_neg first] using s.append_cases first
    rcases settled with ⟨takes, answer⟩ | ⟨rc, nonzero, answer⟩
    · refine ⟨takes, ?_⟩
      rcases answer with none | here
      · rw [none] at response
        obtain rfl := Answer.response.inj response
        exact ⟨_, rfl, .inl (goInt_ofNat (Nat.zero_le _))⟩
      · rw [here] at response
        obtain rfl := Answer.response.inj response
        exact ⟨_, rfl, .inr (goInt_ofNat (Slots.fits _))⟩
    · rw [answer] at response
      obtain rfl := Answer.response.inj response
      exact absurd accepts nonzero
  listed s m slots response parsed entry among one := by
    obtain rfl := Answer.response.inj response
    change entry.hash = (bootHash s.slot1).getD []
    cases hash : bootHash s.slot1 with
    | none =>
      rw [hash] at parsed
      obtain rfl := Except.ok.inj parsed
      rw [List.mem_singleton.mp among] at one
      exact absurd one (by decide)
    | some hash =>
      rw [hash] at parsed
      obtain rfl := Except.ok.inj parsed
      rcases List.mem_cons.mp among with rfl | later
      · exact absurd one (by decide)
      · rw [List.mem_singleton.mp later]
        rfl
  marked s hash rm response accepts := by
    by_cases known : bootHash s.slot1 = some hash
    · simp only [mcumgr, Slots.test, if_pos known]
    · simp only [mcumgr, Slots.test, if_neg known] at response
      obtain rfl := Answer.response.inj response
      exact absurd accepts (by decide)
  kept s := rfl
  spared s hash := by
    by_cases known : bootHash s.slot1 = some hash
    · simp only [mcumgr, Slots.test, if_pos known]
    · simp only [mcumgr, Slots.test, if_neg known]
  reset s := ⟨rfl, rfl⟩

section
variable {σ : Type*} {server : Server σ} {answers : Nat → Answer}

/-- What the server makes of requests of which none gets lost. -/
def Server.behind (server : Server σ) : σ → List Sent → σ
  | s, [] => s
  | s, request :: rest => server.behind (server.handle s request).1 rest

def Server.replies (server : Server σ) : σ → List Sent → List Answer
  | _, [] => []
  | s, request :: rest =>
    (server.handle s request).2 :: server.replies (server.handle s request).1 rest

theorem Server.serves_replies {requests : List Sent} {n : Nat} {s : σ}
    (own : ∀ k a, (server.replies s requests)[k]? = some a → answers (n + k) = a) :
    server.Serves (fun _ => .answered) answers n s requests (server.behind s requests) := by
  induction requests generalizing n s with
  | nil => rfl
  | cons request rest ih =>
    have first : answers n = (server.handle s request).2 := own 0 _ rfl
    refine ⟨(server.handle s request).1, ?_, ih fun k a at_k => ?_⟩
    · rw [first]
      rfl
    · rw [Nat.add_assoc, Nat.add_comm 1 k]
      exact own (k + 1) a at_k

end

/-- The SHA-256 of the header and the body of a signed application of four bytes. -/
def signedHash : List UInt8 :=
  [0xF0, 0x04, 0x00, 0x19, 0x1C, 0xCF, 0x19, 0x66, 0x48, 0xBA, 0x46, 0x44, 0x5D, 0x93, 0x95, 0xDD,
    0xA7, 0xC4, 0x4F, 0x1D, 0x40, 0xAC, 0xF2, 0x10, 0xC2, 0xF0, 0x3C, 0x50, 0xC7, 0xCC, 0x05, 0xFE]

/-- A signed application of four bytes. -/
def signedApp : List UInt8 :=
  imageMagic ++ [0, 0, 0, 0, 0x20, 0, 0, 0, 4, 0, 0, 0, 0, 0, 0, 0, 1, 0, 0, 0, 0, 0, 0, 0,
    0, 0, 0, 0] ++ [1, 2, 3, 4] ++ [0x07, 0x69, 0x28, 0x00, 0x10, 0x00, 0x20, 0x00] ++ signedHash

/-- The SHA-256 of the application. -/
def signedSha : List UInt8 :=
  [0x73, 0x52, 0x25, 0xD5, 0x92, 0x3E, 0xFE, 0x4E, 0x46, 0x97, 0x55, 0x20, 0xCC, 0x93, 0x98, 0x3F,
    0x07, 0x24, 0xC5, 0x19, 0xFD, 0xB3, 0x76, 0x26, 0x48, 0xBE, 0x85, 0x0C, 0xED, 0x53, 0xA2, 0x39]

abbrev signedLibraries : Libraries := ⟨fun m => some (Cbor.encodeMap m), fun _ => signedSha⟩

/-- An upload of the application that stopped behind its header. -/
def brokenOff : Slots where
  slot1 := signedApp.take 32
  fits := by decide
  upload := some (76, some signedSha)
  pending := none

/-- The upload resumes at byte 32, and its last chunk is the rest of the hash. -/
def signedRequests : List Sent :=
  [.imageState, .upload 76 ⟨0, signedApp.take 40, some signedSha⟩,
    .upload 76 ⟨32, (signedApp.drop 32).take 40, none⟩, .upload 76 ⟨72, signedApp.drop 72, none⟩,
    .imageState, .imageTest signedHash, .osReset]

def signedAnswers (n : Nat) : Answer := (mcumgr.replies brokenOff signedRequests).getD n .callFailed

theorem flash_installs_resumed : (mcumgr.behind brokenOff signedRequests).slot1 = signedApp ∧
    (mcumgr.behind brokenOff signedRequests).pending = some signedHash := by
  have sent : (@cmdFlash signedLibraries signedApp 136 signedAnswers).sent = signedRequests := by
    decide +kernel
  have serves : mcumgr.Serves (fun _ => .answered) signedAnswers 0 brokenOff
      (@cmdFlash signedLibraries signedApp 136 signedAnswers).sent
      (mcumgr.behind brokenOff signedRequests) := by
    rw [sent]
    refine Server.serves_replies fun k a at_k => ?_
    rw [Nat.zero_add, signedAnswers, List.getD_eq_getElem?_getD, at_k, Option.getD_some]
  have resumable : mcumgr.uploading brokenOff = some signedSha →
      mcumgr.slot1 brokenOff <+: signedApp := fun _ => List.take_prefix ..
  obtain ⟨_, installs⟩ := @flash_installs _ _ _ _ signedLibraries _ mcumgr_documented
    (by decide) 136 _ _ resumable serves
  obtain ⟨whole, next⟩ := installs (by rw [sent]; decide)
  exact ⟨whole, next⟩

end FlexitCs60.Client
