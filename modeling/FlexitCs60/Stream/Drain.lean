import FlexitCs60.Stream.Framing

/-! Draining a buffer through a stateful decoder that follows framing rules.
The decoder returns how much it consumed and its next state; zero means that
it needs more elements. Appending later elements to what a drain left behind
continues the same scan, which is what makes chunk boundaries invisible. -/
namespace Framing

variable {α σ : Type*}

/-- A decoder step that consumes as the rules say, does nothing while it waits,
and reads nothing behind the elements that decided. -/
structure Follows (r : Rules α) (step : List α → σ → Nat × σ) : Prop where
  consumed : ∀ buffer s, (step buffer s).1 = (r.verdict buffer).width
  idle : ∀ {buffer} (s), r.verdict buffer = .wait → (step buffer s).2 = s
  reads : ∀ {buffer} (later s), r.verdict buffer ≠ .wait →
    (step (buffer ++ later) s).2 = (step buffer s).2

/-- The decode loop: step until the buffer is empty or nothing is consumed. -/
def drain (step : List α → σ → Nat × σ) : Nat → List α → σ → List α × σ
  | 0, buffer, s => (buffer, s)
  | fuel + 1, buffer, s =>
    if buffer = [] then (buffer, s)
    else if (step buffer s).1 = 0 then (buffer, (step buffer s).2)
    else drain step fuel (buffer.drop (step buffer s).1) (step buffer s).2

/-- The loop with enough fuel for every element of the buffer. -/
def drainAll (step : List α → σ → Nat × σ) (buffer : List α) (s : σ) : List α × σ :=
  drain step buffer.length buffer s

namespace Follows
variable {r : Rules α} {step : List α → σ → Nat × σ} (follows : Follows r step)
include follows

theorem drain_wait {buffer : List α} (waiting : r.verdict buffer = .wait) (fuel : Nat) (s : σ) :
    drain step fuel buffer s = (buffer, s) := by
  cases fuel with
  | zero => rfl
  | succ fuel =>
    have none : (step buffer s).1 = 0 := by rw [follows.consumed, waiting]; rfl
    simp only [drain, none, follows.idle s waiting, if_true, ite_self]

theorem drain_next {buffer : List α} (decided : r.verdict buffer ≠ .wait) (fuel : Nat) (s : σ) :
    drain step (fuel + 1) buffer s =
      drain step fuel (buffer.drop (r.verdict buffer).width) (step buffer s).2 := by
  have nonempty : buffer ≠ [] := by
    rintro rfl
    exact decided r.empty
  have some : (step buffer s).1 ≠ 0 := by
    rw [follows.consumed, Ne, r.width_eq_zero]
    exact decided
  rw [drain, if_neg nonempty, if_neg some, follows.consumed]

/-- Fuel beyond the buffer's length changes nothing. -/
theorem drain_eq_drainAll {buffer : List α} {fuel : Nat} (enough : buffer.length ≤ fuel) (s : σ) :
    drain step fuel buffer s = drainAll step buffer s := by
  unfold drainAll
  suffices general : ∀ n m, buffer.length ≤ n → buffer.length ≤ m →
      ∀ s, drain step n buffer s = drain step m buffer s from general _ _ enough le_rfl s
  clear enough s
  induction buffer using r.induction with
  | wait buffer waiting =>
    intro n m _ _ s
    rw [follows.drain_wait waiting, follows.drain_wait waiting]
  | next buffer decided ih =>
    intro n m hn hm s
    have progress := r.width_pos decided
    have inside := r.width_le buffer
    obtain ⟨n, rfl⟩ := Nat.exists_eq_succ_of_ne_zero (show n ≠ 0 by omega)
    obtain ⟨m, rfl⟩ := Nat.exists_eq_succ_of_ne_zero (show m ≠ 0 by omega)
    rw [Nat.succ_eq_add_one, Nat.succ_eq_add_one, follows.drain_next decided,
      follows.drain_next decided]
    exact ih n m (by simp only [List.length_drop]; omega)
      (by simp only [List.length_drop]; omega) _

theorem drainAll_wait {buffer : List α} (waiting : r.verdict buffer = .wait) (s : σ) :
    drainAll step buffer s = (buffer, s) :=
  follows.drain_wait waiting _ s

theorem drainAll_next {buffer : List α} (decided : r.verdict buffer ≠ .wait) (s : σ) :
    drainAll step buffer s =
      drainAll step (buffer.drop (r.verdict buffer).width) (step buffer s).2 := by
  have progress := r.width_pos decided
  have inside := r.width_le buffer
  rw [← follows.drain_eq_drainAll (show buffer.length ≤ buffer.length - 1 + 1 by omega),
    follows.drain_next decided, follows.drain_eq_drainAll]
  simp only [List.length_drop]
  omega

/-- The loop stops where the rules wait, so it has reached its exit test and
not the end of its fuel. -/
theorem drainAll_residual (buffer : List α) (s : σ) :
    (drainAll step buffer s).1 = r.residual buffer := by
  induction buffer using r.induction generalizing s with
  | wait buffer waiting => rw [follows.drainAll_wait waiting, Rules.residual_of_wait waiting]
  | next buffer decided ih => rw [follows.drainAll_next decided, ih, Rules.residual_next decided]

/-- Later elements are scanned as if they had been there from the start. -/
theorem drainAll_append (buffer later : List α) (s : σ) :
    drainAll step (buffer ++ later) s =
      drainAll step ((drainAll step buffer s).1 ++ later) (drainAll step buffer s).2 := by
  induction buffer using r.induction generalizing s with
  | wait buffer waiting => rw [follows.drainAll_wait waiting]
  | next buffer decided ih =>
    have same : r.verdict (buffer ++ later) = r.verdict buffer := r.final later decided
    have inside := r.width_le buffer
    rw [follows.drainAll_next (show r.verdict (buffer ++ later) ≠ .wait by rwa [same]), same,
      follows.reads later s decided, List.drop_append_of_le_length inside, ih,
      follows.drainAll_next decided]

/-- A state component that grows by the accepted frame, and by nothing when an
element is slipped, records the accepted frames of the whole buffer. -/
theorem drainAll_log (log : σ → List (List α))
    (accepts : ∀ buffer s width, r.verdict buffer = .frame width →
      log (step buffer s).2 = log s ++ [buffer.take width])
    (slips : ∀ buffer s, r.verdict buffer = .slip → log (step buffer s).2 = log s)
    (buffer : List α) (s : σ) :
    log (drainAll step buffer s).2 =
      log s ++ (r.frames buffer).map fun f => (buffer.drop f.1).take f.2 := by
  induction buffer using r.induction generalizing s with
  | wait buffer waiting => simp [follows.drainAll_wait waiting, waiting]
  | next buffer decided ih =>
    rw [follows.drainAll_next decided, ih]
    cases verdict : r.verdict buffer with
    | wait => exact absurd verdict decided
    | slip =>
      rw [slips buffer s verdict, Rules.frames_slip verdict, List.map_map]
      simp only [Verdict.width, List.drop_drop, Function.comp_def, Nat.add_comm]
    | frame width =>
      rw [accepts buffer s width verdict, Rules.frames_frame verdict]
      simp only [Verdict.width, List.map_cons, List.map_map, List.drop_drop, Function.comp_def,
        Nat.add_comm, List.append_assoc, List.singleton_append, List.drop_zero]

end Follows

/-- Feeding with a bounded buffer: keep the newest `cap` elements, then drain. -/
def feed (cap : Nat) (step : List α → σ → Nat × σ) (x : List α × σ) (chunk : List α) :
    List α × σ :=
  if chunk = [] then x
  else drainAll step ((x.1 ++ chunk).drop ((x.1 ++ chunk).length - cap)) x.2

/-- No feed of the chunks, started with `buffer`, drops an element. -/
def Fits (r : Rules α) (cap : Nat) : List α → List (List α) → Prop
  | _, [] => True
  | buffer, chunk :: rest =>
    buffer.length + chunk.length ≤ cap ∧ Fits r cap (r.residual (buffer ++ chunk)) rest

variable {r : Rules α} {step : List α → σ → Nat × σ} {cap : Nat}

/-- A bound on every residual turns into a bound on the chunks. -/
theorem fits_of_bound (bound limit : Nat) (sum : bound + limit ≤ cap)
    (small : ∀ buffer, r.verdict buffer = .wait → buffer.length ≤ bound)
    (chunks : List (List α)) (sizes : ∀ chunk ∈ chunks, chunk.length ≤ limit)
    (buffer : List α) (waits : r.verdict buffer = .wait) : Fits r cap buffer chunks := by
  induction chunks generalizing buffer with
  | nil => trivial
  | cons chunk rest ih =>
    have left := small buffer waits
    have right := sizes chunk (by simp)
    exact ⟨by omega, ih (fun c member => sizes c (by simp [member])) _ (Rules.residual_waits _)⟩

theorem Fits.chunk_le {buffer : List α} {chunks : List (List α)} (fits : Fits r cap buffer chunks) :
    ∀ chunk ∈ chunks, chunk.length ≤ cap := by
  induction chunks generalizing buffer with
  | nil => simp
  | cons chunk rest ih =>
    obtain ⟨room, fits⟩ := fits
    intro c member
    rcases List.mem_cons.mp member with rfl | member
    · omega
    · exact ih fits c member

/-- While nothing is dropped, feeding chunk by chunk is one drain of the whole
stream, whatever the chunk boundaries. -/
theorem Follows.feeds_eq_drainAll (follows : Follows r step) (chunks : List (List α))
    (buffer : List α) (s : σ) (waits : r.verdict buffer = .wait)
    (fits : Fits r cap buffer chunks) :
    chunks.foldl (feed cap step) (buffer, s) = drainAll step (buffer ++ chunks.flatten) s := by
  induction chunks generalizing buffer s with
  | nil =>
    rw [List.flatten_nil, List.append_nil, follows.drainAll_wait waits]
    rfl
  | cons chunk rest ih =>
    obtain ⟨room, fits⟩ := fits
    have first : feed cap step (buffer, s) chunk = drainAll step (buffer ++ chunk) s := by
      unfold feed
      split
      · rename_i nothing
        rw [nothing, List.append_nil, follows.drainAll_wait waits]
      · have keeps : (buffer ++ chunk).length - cap = 0 := by
          simp only [List.length_append]
          omega
        rw [keeps, List.drop_zero]
    have left := follows.drainAll_residual (buffer ++ chunk) s
    rw [List.foldl_cons, first, List.flatten_cons, ← List.append_assoc,
      follows.drainAll_append (buffer ++ chunk)]
    have continued := ih (drainAll step (buffer ++ chunk) s).1 (drainAll step (buffer ++ chunk) s).2
      (by rw [left]; exact Rules.residual_waits _) (by rwa [left])
    exact continued

end Framing
