import FlexitCs60.Client.Smp

/-! Which response a call returns. Nothing but the order of events ties a response
to its request: the sequence number is sent and never read. -/
namespace FlexitCs60.Client.Smp
open Labelled

/-- A payload is the body of one complete response frame, the one to this call,
with the sequence number, group and command of its request. -/
def Matched (replies : Nat → Reply) (r : Returned) : Prop :=
  ∀ payload, r.payload = some payload → ∃ header,
    (replies r.call.number).frame r.call.request = encodeSmpHeader header ++ payload ∧
      header.len.toNat = payload.length ∧ header.seq = r.call.request.seq ∧
      header.group = r.call.request.group ∧ header.id = r.call.request.id

/-- No part of another response is in the buffer when a call starts, and none
arrives before the call's own is complete, whose first fragment covers its header. -/
def Undisturbed (s : State) : Act → Prop
  | .drain => s.transport.respBuf = []
  | .notify number count => ∀ call, s.caller = .write call ∨ s.caller = .wait call →
      s.transport.respCh = none → number = call.number ∧ (s.transport.respBuf = [] → 8 ≤ count)
  | _ => True

/-- The buffer holds what has arrived of one frame, and more of it is to come. -/
structure Assembling (t : Transport) (frame rest : List UInt8) : Prop where
  channel : t.respCh = none
  parts : t.respBuf ++ rest = frame
  more : rest ≠ []
  want : t.respBuf ≠ [] → t.respWant = frame.length

def Placed (replies : Nat → Reply) (s : State) : Caller → Prop
  | .idle => True
  | .drain call => call.number < s.calls ∧ s.outstanding call.number = []
  | .write call => (call.number < s.calls ∧ s.outstanding call.number = []) ∧
      s.transport.respBuf = [] ∧ s.transport.respCh = none
  | .wait call =>
    let frame := (replies call.number).frame call.request
    s.transport.respCh = some frame ∨
      Assembling s.transport frame (s.outstanding call.number)

structure Orderly (replies : Nat → Reply) (s : State) : Prop where
  matched : ∀ r ∈ s.history, Matched replies r
  unasked : ∀ n, s.calls ≤ n → s.outstanding n = []
  placed : Placed replies s s.caller

theorem Reply.frame_length (reply : Reply) (request : SmpHeader) :
    (reply.frame request).length = 8 + (reply.header request).len.toNat := by
  have short := reply.short
  simp only [frame, header, List.length_append, length_encodeSmpHeader, UInt16.toNat_ofNat']
  omega

theorem matched_body (replies : Nat → Reply) (call : Call) :
    Matched replies ⟨call, some (((replies call.number).frame call.request).drop 8)⟩ := by
  intro payload same
  obtain rfl := Option.some.inj same
  have body : ((replies call.number).frame call.request).drop 8 = (replies call.number).body :=
    List.drop_left' rfl
  have length := (replies call.number).frame_length call.request
  refine ⟨(replies call.number).header call.request, ?_, ?_, rfl, rfl, rfl⟩
  · rw [body]
    rfl
  · rw [List.length_drop, length, Nat.add_sub_cancel_left]

theorem matched_error (replies : Nat → Reply) (call : Call) : Matched replies ⟨call, none⟩ :=
  nofun

/-- A full channel stays as it is. -/
theorem onNotify_channel {t : Transport} {resp : List UInt8} (full : t.respCh = some resp)
    (buf : List UInt8) : (t.onNotify buf).respCh = some resp := by
  have assembled : ∀ want, (t.assemble buf want).respCh = some resp := by
    intro want
    unfold Transport.assemble
    simp only [full, Option.getD_some]
    split <;> rfl
  unfold Transport.onNotify
  split
  · split
    · exact full
    · exact assembled _
  · exact assembled _

/-- The next fragment of the frame completes it or is assembled. -/
theorem onNotify_assembling {t : Transport} {reply : Reply} {request : SmpHeader}
    {rest : List UInt8} (assembling : Assembling t (reply.frame request) rest) {count : Nat}
    (covers : t.respBuf = [] → 8 ≤ count) :
    (t.onNotify (rest.take count)).respCh = some (reply.frame request) ∨
      Assembling (t.onNotify (rest.take count)) (reply.frame request) (rest.drop count) := by
  obtain ⟨channel, parts, more, want⟩ := assembling
  -- whatever starts the assembly, it waits for the whole frame
  have step : t.onNotify (rest.take count) =
      t.assemble (rest.take count) (reply.frame request).length := by
    unfold Transport.onNotify
    by_cases empty : t.respBuf = []
    · have whole : rest = reply.frame request := by rw [← parts, empty, List.nil_append]
      have read : decodeSmpHeader (rest.take count) = some (reply.header request) := by
        rw [whole]
        exact decodeSmpHeader_take _ _ (covers empty)
      rw [if_pos (by rw [empty]; rfl), read, reply.frame_length]
    · rw [if_neg (by rwa [List.length_eq_zero_iff]), want empty]
  have joined : t.respBuf ++ rest.take count ++ rest.drop count = reply.frame request := by
    rw [List.append_assoc, List.take_append_drop, parts]
  have length := congrArg List.length joined
  rw [List.length_append] at length
  rw [step, Transport.assemble]
  by_cases done : rest.drop count = []
  · rw [done, List.append_nil] at joined
    left
    simp [joined, channel]
  · have left : 0 < (rest.drop count).length := List.length_pos_iff.mpr done
    right
    simp only [if_neg (show ¬ (reply.frame request).length ≤ (t.respBuf ++ rest.take count).length by
      omega)]
    exact ⟨channel, joined, done, fun _ => rfl⟩

theorem orderly_boot (replies : Nat → Reply) : Orderly replies State.boot where
  matched := by simp [State.boot]
  unasked _ _ := rfl
  placed := trivial

theorem orderly_notify {replies : Nat → Reply} {s : State} (orderly : Orderly replies s)
    {number count : Nat} (positive : 0 < count) (inside : count ≤ (s.outstanding number).length)
    (undisturbed : Undisturbed s (.notify number count)) :
    Orderly replies (s.notify number count) := by
  obtain ⟨matched, unasked, placed⟩ := orderly
  have nonempty : s.outstanding number ≠ [] := List.length_pos_iff.mp (by omega)
  have other : ∀ n, s.outstanding n = [] → (s.notify number count).outstanding n = [] := by
    intro n none
    have differs : n ≠ number := by
      rintro rfl
      exact nonempty none
    exact (Function.update_of_ne differs _ _).trans none
  refine ⟨matched, fun n unborn => other n (unasked n unborn), ?_⟩
  change Placed replies (s.notify number count) s.caller
  cases place : s.caller with
  | idle => trivial
  | drain call =>
    rw [place] at placed
    exact ⟨placed.1, other _ placed.2⟩
  | write call =>
    rw [place] at placed
    obtain ⟨rfl, _⟩ := undisturbed call (.inl place) placed.2.2
    exact absurd placed.1.2 nonempty
  | wait call =>
    rw [place] at placed
    rcases placed with full | assembling
    · exact .inl (onNotify_channel full _)
    · obtain ⟨rfl, covers⟩ := undisturbed call (.inr place) assembling.channel
      rcases onNotify_assembling assembling covers with full | further
      · exact .inl full
      · right
        simp only [State.notify, Function.update_self]
        exact further

/-- A call leaves with an error, or with the payload of its own response. -/
theorem orderly_leave {replies : Nat → Reply} {s : State} {call : Call}
    {payload : Option (List UInt8)} (matched : ∀ r ∈ s.history, Matched replies r)
    (unasked : ∀ n, s.calls ≤ n → s.outstanding n = [])
    (own : Matched replies ⟨call, payload⟩) : Orderly replies (s.leave call payload) := by
  refine ⟨fun r member => ?_, unasked, trivial⟩
  rcases List.mem_append.mp member with earlier | new
  · exact matched r earlier
  · rw [List.mem_singleton.mp new]
    exact own

theorem orderly_step {replies : Nat → Reply} {s t : State} {a : Act}
    (undisturbed : Undisturbed s a) (step : Step replies s a t) (orderly : Orderly replies s) :
    Orderly replies t := by
  have placed := orderly.placed
  cases step with
  | call op group id payload idle =>
    refine ⟨orderly.matched, fun n unborn => orderly.unasked n (Nat.le_of_succ_le unborn), ?_⟩
    exact ⟨Nat.lt_succ_self _, orderly.unasked _ le_rfl⟩
  | drain call place =>
    rw [place] at placed
    exact ⟨orderly.matched, orderly.unasked, placed, undisturbed, rfl⟩
  | write call place =>
    rw [place] at placed
    obtain ⟨⟨numbered, _⟩, empty, channel⟩ := placed
    refine ⟨orderly.matched, fun n unborn => ?_, .inr ?_⟩
    · have differs : n ≠ call.number := by
        change s.calls ≤ n at unborn
        omega
      exact (Function.update_of_ne differs _ _).trans (orderly.unasked n unborn)
    · have rest : (s.write (replies call.number) call).outstanding call.number =
          (replies call.number).frame call.request := Function.update_self ..
      rw [rest]
      have nonempty : (replies call.number).frame call.request ≠ [] := by
        intro none
        have length := (replies call.number).frame_length call.request
        rw [none, List.length_nil] at length
        omega
      exact ⟨channel, by rw [State.write, empty, List.nil_append], nonempty,
        fun some => absurd empty some⟩
  | writeError call place =>
    exact orderly_leave orderly.matched orderly.unasked (matched_error replies call)
  | receive call resp place arrived =>
    rw [place] at placed
    apply orderly_leave (s := { s with transport := { s.transport with respCh := none } })
      orderly.matched orderly.unasked
    rcases placed with full | assembling
    · obtain rfl := Option.some.inj (arrived.symm.trans full)
      exact matched_body replies call
    · rw [assembling.channel] at arrived
      contradiction
  | timeout call place =>
    exact orderly_leave orderly.matched orderly.unasked (matched_error replies call)
  | notify number count positive inside =>
    exact orderly_notify orderly positive inside undisturbed

/-- In a run that nothing disturbs, every payload is that of the call's own response. -/
theorem calls_matched {replies : Nat → Reply} {acts : List Act} {s : State}
    (run : Run (Guarded Undisturbed (Step replies)) State.boot acts s) :
    ∀ r ∈ s.history, Matched replies r :=
  (run.invariant (Orderly replies) (fun step => orderly_step step.1 step.2)
    (orderly_boot replies)).matched

/-- A device that answers every request with the number of the call. -/
def numbering (n : Nat) : Reply := ⟨1, 0, [UInt8.ofNat n], (by decide : 1 < 2 ^ 16)⟩

def firstCall : Call := ⟨0, ⟨0, 0, 1, 1, 0, 0⟩⟩

def secondCall : Call := ⟨1, ⟨0, 0, 1, 1, 1, 0⟩⟩

/-- The first call times out, and its response comes before the second one empties the
channel. The second one is answered in two fragments. -/
theorem calls_matched_late : Matched numbering ⟨secondCall, some [1]⟩ := by
  have own : ∀ {s : State} {count : Nat}, s.caller = .wait secondCall →
      8 ≤ count ∨ s.transport.respBuf ≠ [] → Undisturbed s (.notify 1 count) := by
    intro s count place covers other waiting _
    rw [place] at waiting
    rcases waiting with waiting | waiting
    · contradiction
    · obtain rfl := Caller.wait.inj waiting
      exact ⟨rfl, fun empty => covers.resolve_right (not_not_intro empty)⟩
  have idle : ∀ {s : State} {number count : Nat}, s.caller = .idle →
      Undisturbed s (.notify number count) := by
    intro s number count place other waiting
    rw [place] at waiting
    rcases waiting with waiting | waiting <;> contradiction
  have run : ∃ s, ⟨secondCall, some [1]⟩ ∈ s.history ∧
      Run (Guarded Undisturbed (Step numbering)) State.boot
        [.call 0 1 0 [0xA0], .drain, .write, .timeout, .notify 0 9,
          .call 0 1 0 [0xA0], .drain, .write, .notify 1 8, .notify 1 1, .receive] s :=
    ⟨_, List.mem_cons_of_mem _ (List.mem_singleton_self _),
      .next ⟨trivial, .call _ _ _ _ rfl⟩ (.next ⟨rfl, .drain firstCall rfl⟩
      (.next ⟨trivial, .write firstCall rfl⟩ (.next ⟨trivial, .timeout firstCall rfl⟩
      (.next ⟨idle rfl, .notify 0 9 (by decide) (by decide)⟩
      (.next ⟨trivial, .call _ _ _ _ rfl⟩ (.next ⟨rfl, .drain secondCall rfl⟩
      (.next ⟨trivial, .write secondCall rfl⟩
      (.next ⟨own rfl (.inl le_rfl), .notify 1 8 (by decide) (by decide)⟩
      (.next ⟨own rfl (.inr (by decide)), .notify 1 1 (by decide) (by decide)⟩
      (.next ⟨trivial, .receive secondCall _ rfl rfl⟩ (.refl _)))))))))))⟩
  obtain ⟨s, among, run⟩ := run
  exact calls_matched run _ among

/-- A whole response to another call, arriving first, is what a waiting call returns. -/
theorem late_response_returned {replies : Nat → Reply} {s : State} {call late : Call}
    (waiting : s.caller = .wait call) (channel : s.transport.respCh = none)
    (empty : s.transport.respBuf = [])
    (rest : s.outstanding late.number = (replies late.number).frame late.request) :
    let size := ((replies late.number).frame late.request).length
    ∃ t, Run (Step replies) s [.notify late.number size, .receive] t ∧
      t.history = s.history ++ [⟨call, some (replies late.number).body⟩] := by
  intro size
  have length := (replies late.number).frame_length late.request
  let t := s.notify late.number size
  have arrived : t.transport.respCh = some ((replies late.number).frame late.request) := by
    have read := decodeSmpHeader_take ((replies late.number).header late.request)
      (replies late.number).body (show 8 ≤ size by omega)
    have taken : ((replies late.number).frame late.request).take size =
        (replies late.number).frame late.request := List.take_length ..
    have step : s.transport.onNotify ((replies late.number).frame late.request) =
        s.transport.assemble ((replies late.number).frame late.request) size := by
      have decoded : decodeSmpHeader ((replies late.number).frame late.request) =
          some ((replies late.number).header late.request) := by
        rw [← taken]
        exact read
      rw [Transport.onNotify, if_pos (by rw [empty]; rfl), decoded]
      simp only [size, length]
    change (s.transport.onNotify ((s.outstanding late.number).take size)).respCh = _
    rw [rest, taken, step, Transport.assemble, empty, List.nil_append]
    simp [size, channel]
  refine ⟨t.receive call _, .next (.notify _ _ (by omega) (by rw [rest]))
    (.next (.receive call _ waiting arrived) (.refl _)), ?_⟩
  have body : ((replies late.number).frame late.request).drop 8 = (replies late.number).body :=
    List.drop_left' rfl
  rw [← body]
  rfl

/-- The first call times out. Its response comes while the second one waits, which
returns the first one's payload as its own. -/
theorem late_response_mistaken :
    ∃ t, Run (Step numbering) State.boot [.call 0 1 0 [0xA0], .drain, .write, .timeout,
        .call 0 1 0 [0xA0], .drain, .write, .notify 0 9, .receive] t ∧
      t.history = [⟨firstCall, none⟩, ⟨secondCall, some [0]⟩] ∧
      ¬ Matched numbering ⟨secondCall, some [0]⟩ := by
  let sent := ((State.boot.begin 0 1 0 [0xA0]).drain firstCall).write (numbering 0) firstCall
  let timedOut := sent.leave firstCall none
  let waiting := ((timedOut.begin 0 1 0 [0xA0]).drain secondCall).write (numbering 1) secondCall
  have start : Run (Step numbering) State.boot [.call 0 1 0 [0xA0], .drain, .write, .timeout,
      .call 0 1 0 [0xA0], .drain, .write] waiting :=
    .next (.call _ _ _ _ rfl) (.next (.drain firstCall rfl) (.next (.write firstCall rfl)
      (.next (.timeout firstCall rfl) (.next (.call _ _ _ _ rfl) (.next (.drain secondCall rfl)
      (.next (.write secondCall rfl) (.refl _)))))))
  obtain ⟨t, finish, history⟩ :=
    @late_response_returned numbering waiting secondCall firstCall rfl rfl rfl rfl
  refine ⟨t, start.trans finish, history, fun matched => ?_⟩
  obtain ⟨header, same, _⟩ := matched [0] rfl
  have bodies := congrArg (List.drop 8) same
  rw [List.drop_left' (length_encodeSmpHeader header)] at bodies
  exact absurd bodies (by decide)

end FlexitCs60.Client.Smp
