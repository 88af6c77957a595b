import FlexitCs60.Slave.Selection

/-! `flexit_slave_init` as `main` calls it, with reception already enabled: the work
queue may be between two feeds, or inside one, blocked in `rs485_uart_send`. -/
namespace FlexitCs60.Slave.Boot
open Wire Framing

/-- What `drain_work_handler` hands over at once. -/
abbrev Chunk := {data : List UInt8 // data.length ≤ 128}

/-- Where the work queue is in `flexit_slave_feed`. -/
inductive Place where
  | idle
  /-- At the head of the decode loop. -/
  | deciding
  /-- A handler waits for `rs485_uart_send`, which will return `err`. -/
  | sending (consumed : Nat) (err : Int)
  deriving DecidableEq, Repr

/-- The statics, with the history of handled frames and of received bytes. -/
structure Machine where
  accum : Accumulator UInt8 accumSize
  traced : Traced
  place : Place
  received : List UInt8

/-- The zero-initialised static. -/
def zeroed : State :=
  { flexitSlaveInit with pendingMode := 0, lastAckedMode := 0, pendingSetpoint := 0 }

def boot : Machine := ⟨⟨Vector.replicate accumSize 0, 0⟩, ⟨zeroed, []⟩, .idle, []⟩

inductive Event where
  | feed (data : Chunk)
  /-- One turn of the decode loop. -/
  | turn
  /-- `rs485_uart_send` returns. -/
  | sent
  /-- The main thread runs `flexit_slave_init`. -/
  | init
  deriving DecidableEq, Repr

/-- The return value of the send that a turn made, if it handled a request. -/
def sendResult (before after : Traced) : Option Int :=
  ((after.handled.drop before.handled.length).head?.bind Handled.reply).map Prod.snd

/-- The failed send counts itself when it returns, after a reset too. -/
def countTxError (err : Int) (s : State) : State :=
  if err ≠ 0 then { s with txErrors := s.txErrors + 1 } else s

namespace Machine

def feed (data : Chunk) (m : Machine) : Machine :=
  match m.place with
  | .idle =>
    if data.val.length = 0 then m
    else { m with accum := m.accum.fill data, place := .deciding, received := m.received ++ data }
  | _ => m

def sent (m : Machine) : Machine :=
  match m.place with
  | .sending consumed _ => { m with accum := m.accum.consume consumed, place := .deciding }
  | _ => m

def init (m : Machine) : Machine :=
  match m.place with
  | .idle => { m with
      accum := ⟨m.accum.cells, 0⟩
      traced := { m.traced with state := flexitSlaveInit } }
  -- the work queue does not yield to the main thread here
  | .deciding => m
  | .sending _ err => { m with
      accum := ⟨m.accum.cells, 0⟩
      traced := { m.traced with state := countTxError err flexitSlaveInit } }

end Machine

/-- Handled frames are windows of the received stream that do not overlap. -/
def HandledOnce (m : Machine) : Prop :=
  ∃ starts : List Nat, starts.Pairwise (fun p q => p + 8 ≤ q) ∧
    (∀ p ∈ starts, p + 8 ≤ m.received.length) ∧
    handledFrames m.traced = starts.map (window m.received)

section
variable [Zephyr]

def Machine.turn (env : Env) (m : Machine) : Machine :=
  match m.place with
  | .deciding =>
    if m.accum.len = 0 then { m with place := .idle }
    else
      let (consumed, traced) := tryDecodeAtFront env m.accum.cells.toList m.accum.len m.traced
      if consumed = 0 then { m with traced, place := .idle }
      else
        match sendResult m.traced traced with
        | some err => { m with traced, place := .sending consumed err }
        | none => { m with traced, accum := m.accum.consume consumed }
  | _ => m

/-- An event that cannot happen where the work queue is changes nothing. -/
def Machine.step (env : Env) (m : Machine) : Event → Machine
  | .feed data => m.feed data
  | .turn => m.turn env
  | .sent => m.sent
  | .init => m.init

def run (env : Env) (events : List Event) : Machine := events.foldl (Machine.step env) boot

/-- The decode loop comes to its end. -/
def Terminates (env : Env) (m : Machine) : Prop :=
  ∃ turns, ((fun m => (m.turn env).sent)^[turns] m).place = .idle

/-- In every state of the run the count is within the array, also when a blocked
send returns, the decode loop terminates, and nothing was handled twice. -/
def Safe (env : Env) (events : List Event) : Prop :=
  ∀ k ≤ events.length, let m := run env (events.take k)
    m.accum.len ≤ accumSize ∧ m.sent.accum.len ≤ accumSize ∧ Terminates env m ∧ HandledOnce m

/-- No initialisation while a handler waits for its send. -/
def Undivided (env : Env) (events : List Event) : Prop :=
  ∀ k, events[k]? = some .init →
    ∀ consumed err, (run env (events.take k)).place ≠ .sending consumed err

end

/-- Bytes a blocked handler will take off the accumulator. -/
def Place.taking : Place → Nat
  | .sending consumed _ => consumed
  | _ => 0

/-- The accumulator holds the end of the received stream, and what was handled lies
before it. -/
structure Kept (m : Machine) (starts : List Nat) (base : Nat) : Prop where
  bounded : m.accum.len ≤ accumSize
  split : base + m.accum.len = m.received.length
  contents : m.accum.contents = m.received.drop base
  taking : m.place.taking ≤ m.accum.len
  apart : starts.Pairwise fun p q => p + 8 ≤ q
  passed : ∀ p ∈ starts, p + 8 ≤ base + m.place.taking
  handled : handledFrames m.traced = starts.map (window m.received)

theorem kept_boot : Kept boot [] 0 := by
  constructor <;> simp [boot, Place.taking, handledFrames, Accumulator.contents]

theorem Kept.handledOnce {m : Machine} {starts : List Nat} {base : Nat}
    (kept : Kept m starts base) : HandledOnce m := by
  obtain ⟨_, split, _, taking, apart, passed, handled⟩ := kept
  refine ⟨starts, apart, fun p member => ?_, handled⟩
  have := passed p member
  omega

/-- Taking bytes off the front keeps the end of the stream. -/
theorem consume_kept {m : Machine} {base : Nat} (count : Nat) (bounded : m.accum.len ≤ accumSize)
    (split : base + m.accum.len = m.received.length)
    (contents : m.accum.contents = m.received.drop base) (inside : count ≤ m.accum.len) :
    (m.accum.consume count).len ≤ accumSize ∧
      base + count + (m.accum.consume count).len = m.received.length ∧
      (m.accum.consume count).contents = m.received.drop (base + count) := by
  obtain ⟨len, rest⟩ := Accumulator.consume_contents count bounded (by decide) inside
  rw [len, rest, contents, List.drop_drop]
  exact ⟨(Nat.sub_le ..).trans bounded, by omega, rfl⟩

theorem feed_kept {m : Machine} {starts : List Nat} {base : Nat} (kept : Kept m starts base)
    (data : Chunk) : ∃ base', Kept (m.feed data) starts base' := by
  unfold Machine.feed
  cases place : m.place with
  | deciding => exact ⟨base, kept⟩
  | sending consumed err => exact ⟨base, kept⟩
  | idle =>
    dsimp only
    split
    · exact ⟨base, kept⟩
    obtain ⟨bounded, split, contents, taking, apart, passed, handled⟩ := kept
    rw [place] at passed
    have cap : accumSize = 64 := rfl
    have small := data.property
    obtain ⟨len, filled⟩ := Accumulator.fill_contents bounded (by decide) data.val (by omega)
    have front := Accumulator.length_contents bounded
    rw [List.length_append, front] at filled
    refine ⟨base + (m.accum.len + data.val.length - accumSize), ?_, ?_, ?_, Nat.zero_le _, apart,
      fun p member => ?_, ?_⟩
    · dsimp only
      omega
    · simp only [List.length_append]
      omega
    · dsimp only
      rw [filled, contents, ← List.drop_append_of_le_length (by omega), List.drop_drop]
    · have := passed p member
      simp only [Place.taking] at this ⊢
      omega
    · rw [handled]
      refine List.map_congr_left fun p member => ?_
      have := passed p member
      simp only [Place.taking] at this
      rw [window, window, List.drop_append_of_le_length (by omega),
        List.take_append_of_le_length (by rw [List.length_drop]; omega)]

theorem sent_kept {m : Machine} {starts : List Nat} {base : Nat} (kept : Kept m starts base) :
    ∃ base', Kept m.sent starts base' := by
  unfold Machine.sent
  cases place : m.place with
  | idle => exact ⟨base, kept⟩
  | deciding => exact ⟨base, kept⟩
  | sending consumed err =>
    obtain ⟨bounded, split, contents, taking, apart, passed, handled⟩ := kept
    rw [place] at taking passed
    obtain ⟨len, split, contents⟩ := consume_kept consumed bounded split contents taking
    exact ⟨base + consumed, len, split, contents, Nat.zero_le _, apart, passed, handled⟩

theorem init_kept {m : Machine} {starts : List Nat} {base : Nat} (kept : Kept m starts base)
    (free : ∀ consumed err, m.place ≠ .sending consumed err) :
    ∃ base', Kept m.init starts base' := by
  unfold Machine.init
  cases place : m.place with
  | deciding => exact ⟨base, kept⟩
  | sending consumed err => exact absurd place (free consumed err)
  | idle =>
    obtain ⟨bounded, split, contents, taking, apart, passed, handled⟩ := kept
    rw [place] at passed
    refine ⟨m.received.length, Nat.zero_le _, rfl, ?_, Nat.zero_le _, apart, fun p member => ?_, handled⟩
    · simp [Accumulator.contents]
    · have := passed p member
      simp only [Place.taking] at this ⊢
      omega

section
variable [Zephyr]

/-- Everything one turn of the decode loop can do. -/
theorem turn_eq (env : Env) {m : Machine} (place : m.place = .deciding)
    (bounded : m.accum.len ≤ accumSize) :
    m.turn env =
      match verdict m.accum.contents with
      | .wait => { m with place := .idle }
      | .slip => { m with
          traced := slipOver m.accum.contents m.traced
          accum := m.accum.consume 1 }
      | .frame width =>
        let traced := accept env (m.accum.contents.take width) m.traced
        match sendResult m.traced traced with
        | some err => { m with traced, place := .sending width err }
        | none => { m with traced, accum := m.accum.consume width } := by
  have size := Accumulator.length_contents bounded
  have reads : tryDecodeAtFront env m.accum.cells.toList m.accum.len m.traced =
      matcher env m.accum.contents m.traced :=
    (tryDecodeAtFront_local env).contents bounded m.traced
  simp only [Machine.turn, place, reads]
  by_cases empty : m.accum.len = 0
  · have nil : m.accum.contents = [] := List.length_eq_zero_iff.mp (size.trans empty)
    rw [if_pos empty, nil]
    rfl
  rw [if_neg empty]
  cases shape : verdict m.accum.contents with
  | wait => simp only [matcher_wait env m.traced shape, if_true]
  | slip =>
    have silent : sendResult m.traced (slipOver m.accum.contents m.traced) = none := by
      unfold sendResult slipOver
      split <;> simp
    simp only [matcher_slip env m.traced shape, silent, Nat.one_ne_zero, if_false]
  | frame width =>
    have positive : width ≠ 0 := Nat.pos_iff_ne_zero.mp (rules.positive shape)
    simp only [matcher_frame env m.traced shape, if_neg positive]

/-- An accepted request starts where the frames handled before it have ended. -/
theorem frame_kept (env : Env) {m : Machine} {starts : List Nat} {base : Nat}
    (kept : Kept m starts base) (place : m.place = .deciding)
    (framed : verdict m.accum.contents = .frame fcReqLen) :
    ((starts ++ [base]).Pairwise fun p q => p + 8 ≤ q) ∧
      (∀ p ∈ starts ++ [base], p + 8 ≤ base + fcReqLen) ∧
      handledFrames (accept env (m.accum.contents.take fcReqLen) m.traced) =
        (starts ++ [base]).map (window m.received) := by
  obtain ⟨_, _, contents, _, apart, passed, handled⟩ := kept
  rw [place] at passed
  have front : window m.received base = m.accum.contents.take fcReqLen := by
    rw [contents]
    rfl
  refine ⟨?_, ?_, ?_⟩
  · refine List.pairwise_append.mpr ⟨apart, List.pairwise_singleton _ _, fun p member q last => ?_⟩
    obtain rfl := List.mem_singleton.mp last
    exact passed p member
  · intro p member
    rcases List.mem_append.mp member with earlier | last
    · have := passed p earlier
      simp only [Place.taking] at this
      omega
    · obtain rfl := List.mem_singleton.mp last
      exact le_rfl
  · have grown := handledFrames_accept env m.accum.contents m.traced fcReqLen framed
    rw [matcher_frame env m.traced framed, handled] at grown
    rw [grown, List.map_append, List.map_singleton, front]

theorem turn_kept (env : Env) {m : Machine} {starts : List Nat} {base : Nat}
    (kept : Kept m starts base) : ∃ starts' base', Kept (m.turn env) starts' base' := by
  cases place : m.place with
  | idle => exact ⟨starts, base, by simpa only [Machine.turn, place] using kept⟩
  | sending consumed err => exact ⟨starts, base, by simpa only [Machine.turn, place] using kept⟩
  | deciding =>
    have accepted := frame_kept env kept place
    obtain ⟨bounded, split, contents, taking, apart, passed, handled⟩ := kept
    have size := Accumulator.length_contents bounded
    rw [place] at passed
    rw [turn_eq env place bounded]
    cases shape : verdict m.accum.contents with
    | wait => exact ⟨starts, base, bounded, split, contents, Nat.zero_le _, apart, passed, handled⟩
    | slip =>
      have some := rules.slip_nonempty shape
      obtain ⟨len, split, contents⟩ := consume_kept 1 bounded split contents (by omega)
      refine ⟨starts, base + 1, len, split, contents, by simp [place, Place.taking], apart,
        fun p member => ?_, ?_⟩
      · have := passed p member
        simp only [Place.taking, place] at this ⊢
        omega
      · rw [← handled]
        have same := handledFrames_slip env m.accum.contents m.traced shape
        rwa [matcher_slip env m.traced shape] at same
    | frame width =>
      obtain ⟨rfl, long⟩ := verdict_frame shape
      have eight : fcReqLen = 8 := rfl
      obtain ⟨apart, passed, handled⟩ := accepted shape
      dsimp only
      cases sendResult m.traced (accept env (m.accum.contents.take fcReqLen) m.traced) with
      | some err =>
        exact ⟨starts ++ [base], base, bounded, split, contents,
          by simp only [Place.taking]; omega, apart, passed, handled⟩
      | none =>
        obtain ⟨len, split, contents⟩ := consume_kept fcReqLen bounded split contents (by omega)
        exact ⟨starts ++ [base], base + fcReqLen, len, split, contents,
          by simp [place, Place.taking], apart, by simpa [place, Place.taking] using passed, handled⟩

/-- A turn, with the return of its send, ends the loop or shortens the accumulator. -/
theorem turn_sent_progress (env : Env) {m : Machine} (place : m.place = .deciding)
    (bounded : m.accum.len ≤ accumSize) :
    (m.turn env).sent.place = .idle ∨
      (m.turn env).sent.place = .deciding ∧ (m.turn env).sent.accum.len < m.accum.len := by
  have size := Accumulator.length_contents bounded
  have shorter : ∀ {count}, 0 < count → count ≤ m.accum.len →
      (m.accum.consume count).len < m.accum.len := by
    intro count positive inside
    have := (Accumulator.consume_contents count bounded (by decide) inside).1
    omega
  rw [turn_eq env place bounded]
  cases shape : verdict m.accum.contents with
  | wait => exact .inl rfl
  | slip =>
    have some := rules.slip_nonempty shape
    right
    simp only [Machine.sent, place, true_and]
    exact shorter Nat.one_pos (by omega)
  | frame width =>
    have inside := shorter (rules.positive shape) (size ▸ rules.within shape)
    right
    dsimp only
    cases sendResult m.traced (accept env (m.accum.contents.take width) m.traced) with
    | some err => exact ⟨rfl, inside⟩
    | none => simpa only [Machine.sent, place, true_and] using inside

theorem Kept.terminates (env : Env) {m : Machine} {starts : List Nat} {base : Nat}
    (kept : Kept m starts base) : Terminates env m := by
  have loop : ∀ n (m : Machine) starts base, Kept m starts base → m.place = .deciding →
      m.accum.len = n → Terminates env m := by
    intro n
    induction n using Nat.strong_induction_on with
    | _ n ih =>
      intro m starts base kept place size
      rcases turn_sent_progress env place kept.bounded with done | ⟨again, shorter⟩
      · exact ⟨1, done⟩
      · obtain ⟨_, _, turned⟩ := turn_kept env kept
        obtain ⟨_, next⟩ := sent_kept turned
        obtain ⟨turns, done⟩ := ih _ (size ▸ shorter) _ _ _ next again rfl
        exact ⟨turns + 1, done⟩
  cases place : m.place with
  | idle => exact ⟨0, place⟩
  | deciding => exact loop _ m starts base kept place rfl
  | sending consumed err =>
    obtain ⟨_, next⟩ := sent_kept kept
    have waits : m.turn env = m := by simp only [Machine.turn, place]
    have again : m.sent.place = .deciding := by simp only [Machine.sent, place]
    obtain ⟨turns, done⟩ := loop _ _ _ _ next again rfl
    exact ⟨turns + 1, by rwa [Function.iterate_succ_apply, waits]⟩

theorem step_kept (env : Env) {m : Machine} {starts : List Nat} {base : Nat}
    (kept : Kept m starts base) (event : Event)
    (free : event = .init → ∀ consumed err, m.place ≠ .sending consumed err) :
    ∃ starts' base', Kept (m.step env event) starts' base' := by
  cases event with
  | feed data => exact ⟨starts, feed_kept kept data⟩
  | turn => exact turn_kept env kept
  | sent => exact ⟨starts, sent_kept kept⟩
  | init => exact ⟨starts, init_kept kept (free rfl)⟩

theorem run_take_succ (env : Env) {events : List Event} {k : Nat} {event : Event}
    (next : events[k]? = some event) :
    run env (events.take (k + 1)) = (run env (events.take k)).step env event := by
  rw [run, List.take_add_one, next, List.foldl_append]
  rfl

theorem run_kept (env : Env) {events : List Event} (undivided : Undivided env events) {k : Nat}
    (reached : k ≤ events.length) : ∃ starts base, Kept (run env (events.take k)) starts base := by
  induction k with
  | zero => exact ⟨[], 0, kept_boot⟩
  | succ k ih =>
    obtain ⟨starts, base, kept⟩ := ih (Nat.le_of_succ_le reached)
    have next : events[k]? = some events[k] := List.getElem?_eq_getElem reached
    rw [run_take_succ env next]
    exact step_kept env kept _ fun init => undivided k (next.trans (congrArg some init))

/-- Only a handled frame makes a send. -/
theorem sendResult_width (env : Env) (accum : List UInt8) (accumLen : Nat) (s : Traced) {err : Int}
    (sends : sendResult s (tryDecodeAtFront env accum accumLen s).2 = some err) :
    (tryDecodeAtFront env accum accumLen s).1 = fcReqLen := by
  have silent : ∀ state, sendResult s ⟨state, s.handled⟩ ≠ some err := by
    intro state
    simp [sendResult]
  rw [tryDecodeAtFront_eq] at sends ⊢
  by_cases short : accumLen < 2
  · exact absurd (by simpa only [if_pos short] using sends) (silent s.state)
  rw [if_neg short] at sends ⊢
  by_cases anchor : anchored (accum.getD 0 0) (accum.getD 1 0) = true
  · rw [if_pos anchor] at sends ⊢
    unfold attempt at sends ⊢
    by_cases small : accumLen < fcReqLen
    · exact absurd (by simpa only [if_pos small] using sends) (silent s.state)
    rw [if_neg small] at sends ⊢
    cases check : crcOk (accum.take fcReqLen) fcReqLen with
    | true => simp only [check, if_true]
    | false =>
      refine absurd ?_ (silent (bumpCrcFailure s.state))
      simpa only [check, Bool.false_eq_true, if_false] using sends
  · exact absurd (by simpa only [if_neg anchor] using sends) (silent s.state)

/-- A blocked handler has a whole request to take off the accumulator. -/
theorem sending_width (env : Env) (events : List Event) {consumed : Nat} {err : Int}
    (sending : (run env events).place = .sending consumed err) : consumed = fcReqLen := by
  induction events using List.reverseRecOn generalizing consumed err with
  | nil => contradiction
  | append_singleton events event ih =>
    have step : run env (events ++ [event]) = (run env events).step env event := by
      rw [run, List.foldl_append]
      rfl
    rw [step] at sending
    generalize run env events = m at ih sending
    cases event with
    | feed data =>
      simp only [Machine.step, Machine.feed] at sending
      split at sending
      · split at sending
        · exact ih sending
        · contradiction
      · exact ih sending
    | sent =>
      simp only [Machine.step, Machine.sent] at sending
      split at sending
      · contradiction
      · exact ih sending
    | init =>
      simp only [Machine.step, Machine.init] at sending
      split at sending
      · exact ih sending
      · exact ih sending
      · exact ih sending
    | turn =>
      simp only [Machine.step, Machine.turn] at sending
      split at sending
      · split at sending
        · contradiction
        split at sending
        · contradiction
        split at sending
        · rename_i sends
          obtain ⟨rfl, _⟩ := Place.sending.inj sending
          exact sendResult_width env _ _ _ sends
        · exact ih sending
      · exact ih sending

omit [Zephyr] in
/-- The subtraction that follows an initialisation in a blocked send wraps. -/
theorem init_wraps {m : Machine} {err : Int} (sending : m.place = .sending fcReqLen err) :
    m.init.sent.accum.len = 2 ^ 32 - 8 := by
  simp only [Machine.init, sending, Machine.sent, Accumulator.consume]
  rfl

/-- Initialisation is safe exactly when no handler waits for its send meanwhile. -/
theorem boot_safe_iff (env : Env) (events : List Event) :
    Safe env events ↔ Undivided env events := by
  constructor
  · intro safe k next consumed err sending
    obtain rfl := sending_width env _ sending
    have reached := (List.getElem?_eq_some_iff.mp next).1
    have wrapped := (safe (k + 1) reached).2.1
    rw [run_take_succ env next] at wrapped
    change (run env (events.take k)).init.sent.accum.len ≤ accumSize at wrapped
    rw [init_wraps sending] at wrapped
    contradiction
  · intro undivided k reached
    obtain ⟨starts, base, kept⟩ := run_kept env undivided reached
    obtain ⟨_, sent⟩ := sent_kept kept
    exact ⟨kept.bounded, sent.bounded, kept.terminates env, kept.handledOnce⟩

end

/-- A poll is being answered as `flexit_slave_init` runs. The count wraps, and the
next turn answers the same poll again. -/
theorem init_divides_feed :
    let env : Env := ⟨fun _ => 0, fun _ => .ok⟩
    let poll : Chunk := ⟨[0x01, 0x03, 0x00, 0x00, 0x00, 0x01, 0x84, 0x0A], by decide⟩
    let events : List Event := [.feed poll, .turn, .init, .sent]
    (run env events).accum.len = 2 ^ 32 - 8 ∧
      handledFrames (run env (events ++ [.turn])).traced = [poll.val, poll.val] ∧
      ¬ Safe env events := by
  intro env poll events
  have wrapped : (run env events).accum.len = 2 ^ 32 - 8 := by decide +kernel
  refine ⟨wrapped, by decide +kernel, fun safe => ?_⟩
  have whole : events.take 4 = events := rfl
  have bounded := (safe 4 (by decide)).1
  rw [whole, wrapped] at bounded
  exact absurd bounded (by decide)

end FlexitCs60.Slave.Boot
