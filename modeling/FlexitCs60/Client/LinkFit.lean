import FlexitCs60.Client.Coverage

/-! How long an upload frame is, and when every one of them fits a link of the
negotiated size. -/
namespace FlexitCs60.Client
open Wire Smp Cbor

/-- The length of the frame that carries `count` bytes at `off` of an image of `len`. -/
def frameSize (len off count : Nat) : Nat :=
  29 + headSize len + headSize off + headSize count + count + if off = 0 then 38 else 0

theorem length_encodeEntry (key : String) (value : Item) :
    (encodeEntry (key, value)).length = (Item.text key).encode.length + value.encode.length :=
  List.length_append

theorem length_encode_uint (n : Nat) : (Item.uint n).encode.length = headSize n :=
  length_head 0 n

theorem length_encode_bytes (b : List UInt8) :
    (Item.bytes b).encode.length = headSize b.length + b.length := by
  rw [Item.encode, List.length_append, length_head]

theorem length_entries (len off : Nat) (data : List UInt8) (sha : Option (List UInt8))
    (digest : ∀ h, sha = some h → h.length = 32) :
    (encodeMap (Chunk.entries len ⟨off, data, sha⟩)).length =
      21 + headSize len + headSize off + headSize data.length + data.length +
        if sha.isSome then 38 else 0 := by
  have image : (encodeEntry ("image", .uint 0)).length = 7 := by decide
  have keyLen : (Item.text "len").encode.length = 4 := by decide
  have keyOff : (Item.text "off").encode.length = 4 := by decide
  have keyData : (Item.text "data").encode.length = 5 := by decide
  have keySha : (Item.text "sha").encode.length = 4 := by decide
  have plain : ([("image", .uint 0), ("len", .uint len), ("off", .uint off),
      ("data", .bytes data)].flatMap encodeEntry).length =
      20 + headSize len + headSize off + headSize data.length + data.length := by
    simp only [List.flatMap_cons, List.flatMap_nil, List.length_append, List.length_nil, image,
      length_encodeEntry, length_encode_uint, length_encode_bytes, keyLen, keyOff, keyData]
    omega
  have opening (entries : List (String × Item)) (few : entries.length < 24) :
      (encodeMap entries).length = 1 + (entries.flatMap encodeEntry).length := by
    rw [encodeMap, List.length_append, length_head, headSize, if_pos few]
  cases sha with
  | none =>
    have shape : Chunk.entries len ⟨off, data, none⟩ = [("image", .uint 0), ("len", .uint len),
      ("off", .uint off), ("data", .bytes data)] := rfl
    rw [shape, opening _ (by simp), plain, Option.isSome_none, if_neg Bool.false_ne_true]
    omega
  | some h =>
    have size := digest h rfl
    have sha : (encodeEntry ("sha", .bytes h)).length = 38 := by
      rw [length_encodeEntry, length_encode_bytes, keySha, size]
      decide
    have shape : Chunk.entries len ⟨off, data, some h⟩ = [("image", .uint 0), ("len", .uint len),
      ("off", .uint off), ("data", .bytes data)] ++ [("sha", .bytes h)] := rfl
    rw [shape, opening _ (by simp), List.flatMap_append, List.length_append, plain,
      List.flatMap_singleton, sha, Option.isSome_some, if_pos rfl]
    omega

section
variable [Libraries]

/-- What the libraries document: maps in any order of their entries, with shortest
heads, and digests of 32 bytes. -/
structure Documented : Prop where
  shortest : ∀ entries, ∃ order, order.Perm entries ∧ marshal entries = some (encodeMap order)
  digest : ∀ b, (sha256 b).length = 32

theorem Request.At.frame_length (documented : Documented) {image : List UInt8} {size off : Nat}
    {q : Request} (here : q.At image size off) :
    q.frame.length = frameSize image.length off q.chunk.data.length := by
  obtain ⟨chunk, seq, payload, encoded, framed⟩ := here
  obtain ⟨order, perm, same⟩ := documented.shortest (q.chunk.entries image.length)
  obtain rfl := Option.some.inj (encoded.symm.trans same)
  have digest : ∀ h, q.chunk.sha = some h → h.length = 32 := by
    intro h given
    rw [chunk, chunkAt] at given
    split_ifs at given with first
    obtain rfl := Option.some.inj given
    exact documented.digest image
  have first : q.chunk.sha.isSome = decide (off = 0) := by
    rw [chunk, chunkAt]
    split_ifs with zero
    · simp [zero]
    · simp [zero]
  have place : q.chunk.off = off := congrArg Chunk.off chunk
  have size := length_entries image.length q.chunk.off q.chunk.data q.chunk.sha digest
  rw [framed, uploadFrame, List.length_append, length_encodeSmpHeader, length_encodeMap_perm perm,
    frameSize]
  change (encodeMap (Chunk.entries image.length q.chunk)).length = _ at size
  simp only [size, place, first, decide_eq_true_eq]
  omega

/-- The first pass sends its chunk. -/
theorem Uploads.sends_first (documented : Documented) {image : List UInt8} {size n off : Nat}
    {answers : Nat → Answer} {u : Upload} (run : Uploads image size answers n off u)
    (inside : off < image.length) : ∃ q ∈ u.requests, q.At image size off := by
  cases run with
  | done passed => omega
  | unencoded within refused =>
    obtain ⟨c, failed⟩ := refused
    obtain ⟨order, -, encoded⟩ := documented.shortest (c.entries image.length)
    simp [failed] at encoded
  | ends within sent answer => exact ⟨_, List.mem_singleton_self _, sent⟩
  | goes within sent answer ahead rest => exact ⟨_, List.mem_cons_self, sent⟩

end

/-- What surrounds a chunk, whatever the image. -/
theorem frameSize_le {len off count : Nat} (small : len < 2 ^ 32) (inside : off < len)
    (part : count ≤ len) : frameSize len off count ≤ count + 78 := by
  have h1 := headSize_le small
  have h2 := headSize_le (show off < 2 ^ 32 by omega)
  have h3 := headSize_le (show count < 2 ^ 32 by omega)
  rw [frameSize]
  split_ifs with first
  · rw [first]
    have zero : headSize 0 = 1 := rfl
    omega
  · omega

theorem headSize_small {n : Nat} (small : n < 24) : headSize n = 1 := if_pos small

/-- Around the bytes of a short image every head is a single byte. -/
theorem frameSize_short {len off count : Nat} (short : len < 24) (inside : off < len)
    (part : count ≤ len) : frameSize len off count = 32 + count + if off = 0 then 38 else 0 := by
  rw [frameSize, headSize_small short, headSize_small (by omega), headSize_small (by omega)]

/-- Every frame of every upload fits the link if and only if the reserve fits the link, or
the image is no longer than what is left of the link without it. -/
theorem upload_fits_iff [Libraries] (documented : Documented) {image : List UInt8}
    (small : image.length < 2 ^ 32) {mtu : Int} (least : 23 ≤ mtu) :
    (∀ answers seq fuel, image.length ≤ fuel →
        ∀ q ∈ (imageUpload image mtu answers seq fuel).requests,
          (q.frame.length : Int) ≤ mtu - 3 ∧ q.chunk.data ≠ []) ↔
      96 < mtu ∨ image = [] ∨ image.length + 73 ≤ mtu := by
  have runs (answers : Nat → Answer) (seq : UInt8) (fuel : Nat) (enough : image.length ≤ fuel) :
      Uploads image (chunkSize mtu) answers 0 0 (imageUpload image mtu answers seq fuel) :=
    uploadLoop_uploads (chunkSize_pos mtu) (by omega) seq
  have counts {off : Nat} {q : Request} (here : q.At image (chunkSize mtu) off)
      (inside : off < image.length) :
      q.chunk.data.length = min (off + chunkSize mtu) image.length - off := by
    rw [here.chunk]
    exact length_take_stopAt (chunkSize mtu) inside
  have positive := chunkSize_pos mtu
  constructor
  · intro fit
    by_contra tight
    have fallback : chunkSize mtu = 128 := chunkSize_narrow (by omega)
    have nonempty : 0 < image.length := by
      have : image ≠ [] := by tauto
      exact List.length_pos_iff.mpr this
    have run := runs (fun _ => .callFailed) 0 image.length (Nat.le_refl _)
    obtain ⟨q, among, here⟩ := run.sends_first documented nonempty
    have fits := (fit _ 0 image.length (Nat.le_refl _) q among).1
    have count := counts here nonempty
    rw [here.frame_length documented] at fits
    -- the fallback chunk alone is longer than such a link, so the image is a short one
    have short : image.length < 24 := by
      rw [frameSize, if_pos rfl] at fits
      have := headSize_pos image.length
      have := headSize_pos 0
      have := headSize_pos q.chunk.data.length
      omega
    rw [frameSize_short short nonempty (by omega), if_pos rfl] at fits
    omega
  · intro room answers seq fuel enough q among
    have run := runs answers seq fuel enough
    obtain ⟨-, inside, here⟩ := run.sent_at among
    have count := counts here inside
    refine ⟨?_, List.length_pos_iff.mp (by omega)⟩
    rw [here.frame_length documented]
    by_cases wide : 96 < mtu
    · have reserved := chunkSize_wide wide
      have := frameSize_le small inside (show q.chunk.data.length ≤ image.length by omega)
      omega
    · have short : image.length + 73 ≤ mtu := by
        rcases room with wide' | rfl | short
        · exact absurd wide' wide
        · exact absurd inside (Nat.not_lt_zero _)
        · exact short
      rw [frameSize_short (by omega) inside (by omega)]
      split_ifs
      all_goals omega

theorem documented_sample : @Documented sampleLibraries :=
  @Documented.mk sampleLibraries (fun entries => ⟨entries, .rfl, rfl⟩) fun _ => rfl

/-- Four bytes over a link of the least size: the first frame has 74 bytes, not 20. -/
theorem upload_exceeds_least :
    ¬ ∀ q ∈ (@imageUpload sampleLibraries [1, 2, 3, 4] 23 (fun _ => .response []) 0 4).requests,
      (q.frame.length : Int) ≤ 23 - 3 ∧ q.chunk.data ≠ [] := by
  decide

theorem upload_fits_iff_wide :
    ((@imageUpload sampleLibraries [1, 2, 3, 4] 97 (fun _ => .response []) 0 4).requests.all
      fun q => q.frame.length ≤ 94) = true := by
  have fits := (@upload_fits_iff sampleLibraries documented_sample [1, 2, 3, 4] (by decide) 97
    (by decide)).mpr (.inl (by decide))
  rw [List.all_eq_true]
  intro q among
  have bound := (fits _ 0 4 (by decide) q among).1
  rw [decide_eq_true_eq]
  omega

end FlexitCs60.Client
