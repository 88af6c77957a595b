import FlexitCs60.System.Labelled
import FlexitCs60.Uart

/-! `rs485_uart_send` step by step. The driver's completion events fall between
the steps, also those of frames whose senders have given up on them. -/
namespace FlexitCs60.Uart
open Labelled

inductive TxEvent where
  | done
  | aborted
  deriving DecidableEq, Repr

/-- What `uart_async_cb` leaves in `tx_result`. -/
def TxEvent.result : TxEvent → Int
  | .done => 0
  | .aborted => -ECANCELED

/-- A send, numbered in the order the senders get `tx_mutex`. -/
structure Send where
  id : Nat
  frame : List UInt8
  deriving DecidableEq, Repr

/-- How a send leaves the bus. -/
inductive Exit where
  /-- `uart_tx` returned an error. -/
  | refused (err : Int)
  | timedOut
  /-- `k_sem_take` returned zero. -/
  | taken
  deriving DecidableEq, Repr

/-- The next step of the sender that holds `tx_mutex`. -/
inductive Sender where
  | idle
  | resetSem (send : Send)
  | clearResult (send : Send)
  | raiseDe (send : Send)
  | uartTx (send : Send)
  | semTake (send : Send)
  | lowerDe (send : Send) (exit : Exit)
  | finish (send : Send) (exit : Exit)
  deriving DecidableEq, Repr

/-- What can be observed of the sends. -/
inductive Mark where
  | accepted (id : Nat)
  | completed (id : Nat) (event : TxEvent)
  | timedOut (id : Nat)
  | loweredDe (id : Nat)
  | echoed (id : Nat) (frame : List UInt8)
  | returned (id : Nat) (result : Int)
  deriving DecidableEq, Repr

structure State where
  /-- The count of `tx_done_sem`, whose limit is one. -/
  txDoneSem : Bool
  txResult : Int
  de : Bool
  /-- The frame the driver transmits. -/
  inFlight : Option Nat
  sender : Sender
  sends : Nat
  history : List Mark
  deriving DecidableEq, Repr

def boot : State := ⟨false, 0, false, none, .idle, 0, []⟩

inductive Act where
  /-- A call gets past the checks and the mutex. -/
  | enter (frame : List UInt8)
  /-- The sender takes a step that depends on nothing outside. -/
  | sender
  | uartTxAccepts
  | uartTxRefuses (err : Int)
  | semTaken
  | semTimeout
  | event (event : TxEvent)
  deriving DecidableEq, Repr

namespace State

def record (mark : Mark) (s : State) : State := { s with history := s.history ++ [mark] }

/-- `tx_result` and the semaphore after an event, and the driver free again. -/
def complete (id : Nat) (event : TxEvent) (s : State) : State :=
  { s with txResult := event.result, txDoneSem := true, inFlight := none }.record
    (.completed id event)

def accept (send : Send) (s : State) : State :=
  { s with inFlight := some send.id, sender := .semTake send }.record (.accepted send.id)

def timeOut (send : Send) (s : State) : State :=
  { s with sender := .lowerDe send .timedOut }.record (.timedOut send.id)

def lowerDe (send : Send) (exit : Exit) (s : State) : State :=
  { s with de := false, sender := .finish send exit }.record (.loweredDe send.id)

/-- Echo a successful frame, unlock and return. -/
def finish (send : Send) (exit : Exit) (s : State) : State :=
  let left : State := { s with sender := .idle }
  match exit with
  | .refused err => left.record (.returned send.id err)
  | .timedOut => left.record (.returned send.id (-ETIMEDOUT))
  | .taken =>
    let result := s.txResult
    let echoed := if result = 0 then left.record (.echoed send.id send.frame) else left
    echoed.record (.returned send.id result)

end State

inductive Step (s : State) : Act → State → Prop where
  | enter (frame : List UInt8) : frame ≠ [] → s.sender = .idle → Step s (.enter frame)
      { s with sender := .resetSem ⟨s.sends, frame⟩, sends := s.sends + 1 }
  | resetSem (send : Send) : s.sender = .resetSem send →
      Step s .sender { s with txDoneSem := false, sender := .clearResult send }
  | clearResult (send : Send) : s.sender = .clearResult send →
      Step s .sender { s with txResult := 0, sender := .raiseDe send }
  | raiseDe (send : Send) : s.sender = .raiseDe send →
      Step s .sender { s with de := true, sender := .uartTx send }
  | uartTxAccepts (send : Send) : s.sender = .uartTx send → s.inFlight = none →
      Step s .uartTxAccepts (s.accept send)
  | uartTxRefuses (send : Send) (err : Int) : s.sender = .uartTx send → s.inFlight ≠ none →
      err ≠ 0 → Step s (.uartTxRefuses err) { s with sender := .lowerDe send (.refused err) }
  | semTaken (send : Send) : s.sender = .semTake send → s.txDoneSem = true →
      Step s .semTaken { s with txDoneSem := false, sender := .lowerDe send .taken }
  | semTimeout (send : Send) : s.sender = .semTake send → s.txDoneSem = false →
      Step s .semTimeout (s.timeOut send)
  | lowerDe (send : Send) (exit : Exit) : s.sender = .lowerDe send exit →
      Step s .sender (s.lowerDe send exit)
  | finish (send : Send) (exit : Exit) : s.sender = .finish send exit →
      Step s .sender (s.finish send exit)
  | event (id : Nat) (event : TxEvent) : s.inFlight = some id →
      Step s (.event event) (s.complete id event)

/-- The transmission a send has seen when it leaves the bus. -/
def Exit.transmission (txResult : Int) : Exit → Transmission
  | .refused err => ⟨true, err, .done⟩
  | .timedOut => ⟨true, 0, .timeout⟩
  | .taken => ⟨true, 0, if txResult = 0 then .done else .aborted⟩

/-- A send returns and echoes what `rs485UartSend` says of its transmission. -/
theorem finish_history {s : State} {send : Send} {exit : Exit} (some : send.frame ≠ [])
    (refusal : ∀ err, exit = .refused err → err ≠ 0)
    (result : s.txResult = 0 ∨ s.txResult = -ECANCELED) :
    let out := rs485UartSend (exit.transmission s.txResult) send.frame
    (s.finish send exit).history =
      s.history ++ (out.2.map (Mark.echoed send.id)).toList ++ [.returned send.id out.1] := by
  have long : send.frame.length ≠ 0 := by rwa [Ne, List.length_eq_zero_iff]
  cases exit with
  | refused err =>
    simp [rs485UartSend, Exit.transmission, State.finish, State.record, long, refusal err rfl]
  | timedOut => simp [rs485UartSend, Exit.transmission, State.finish, State.record, long]
  | taken =>
    rcases result with done | aborted
    · simp [rs485UartSend, Exit.transmission, State.finish, State.record, long, done]
    · simp [rs485UartSend, Exit.transmission, State.finish, State.record, long, aborted, ECANCELED]

/-- A send whose frame was accepted lowers DE after its frame's completion or its
own timeout, and its outcome is that of its own frame. -/
def Own (earlier : List Mark) : Mark → Prop
  | .loweredDe id => .accepted id ∈ earlier →
      (∃ event, .completed id event ∈ earlier) ∨ .timedOut id ∈ earlier
  | .echoed id _ => .accepted id ∈ earlier → .completed id .done ∈ earlier
  | .returned id result => .accepted id ∈ earlier →
      (result = 0 → .completed id .done ∈ earlier) ∧
        (result = -ECANCELED → .completed id .aborted ∈ earlier)
  | _ => True

/-- The sender is between its semaphore reset and its `uart_tx`. -/
def Sender.starting : Sender → Bool
  | .clearResult _ | .raiseDe _ | .uartTx _ => true
  | _ => false

/-- A completion event lands while a sender is starting. It is that of an earlier
frame, and its token outlives the reset. -/
def Stale (s : State) (a : Act) : Prop := s.sender.starting = true ∧ ∃ event, a = .event event

/-- The frame is off the wire, and `tx_result` is its own. -/
def Answered (s : State) (send : Send) : Prop :=
  s.inFlight = none ∧ ∃ event, .completed send.id event ∈ s.history ∧ s.txResult = event.result

/-- The driver has not seen the send's frame yet. -/
def Unsent (s : State) (send : Send) : Prop :=
  send.id < s.sends ∧ .accepted send.id ∉ s.history

def Placed (s : State) : Sender → Prop
  | .idle => True
  | .resetSem send => Unsent s send
  | .clearResult send | .raiseDe send | .uartTx send => Unsent s send ∧ s.txDoneSem = false
  | .semTake send =>
    s.txDoneSem = false ∧ s.inFlight = some send.id ∨ s.txDoneSem = true ∧ Answered s send
  | .lowerDe send (.refused _) | .finish send (.refused _) => .accepted send.id ∉ s.history
  | .lowerDe send .timedOut | .finish send .timedOut => .timedOut send.id ∈ s.history
  | .lowerDe send .taken | .finish send .taken => Answered s send

structure Sound (s : State) : Prop where
  own : Accounted Own s.history
  numbered : ∀ id, .accepted id ∈ s.history → id < s.sends
  placed : Placed s s.sender

theorem sound_boot : Sound boot where
  own := accounted_nil Own
  numbered := by simp [boot]
  placed := trivial

theorem sound_event {s : State} (sound : Sound s) {id : Nat} (event : TxEvent)
    (inFlight : s.inFlight = some id) (fresh : s.sender.starting = false) :
    Sound (s.complete id event) := by
  obtain ⟨own, numbered, placed⟩ := sound
  refine ⟨own.concat trivial, by simpa [State.complete, State.record] using numbered, ?_⟩
  change Placed (s.complete id event) s.sender
  cases place : s.sender with
  | idle => trivial
  | resetSem send =>
    rw [place] at placed
    simpa [Placed, Unsent, State.complete, State.record] using placed
  | clearResult send => simp [place, Sender.starting] at fresh
  | raiseDe send => simp [place, Sender.starting] at fresh
  | uartTx send => simp [place, Sender.starting] at fresh
  | semTake send =>
    rw [place] at placed
    rcases placed with ⟨_, mine⟩ | ⟨_, none, _⟩
    · obtain rfl := Option.some.inj (inFlight.symm.trans mine)
      exact .inr ⟨rfl, rfl, event, by simp [State.complete, State.record], rfl⟩
    · rw [none] at inFlight
      contradiction
  | lowerDe send exit | finish send exit =>
    rw [place] at placed
    cases exit with
    | refused err => simpa [Placed, State.complete, State.record] using placed
    | timedOut => simpa [Placed, State.complete, State.record] using placed
    | taken =>
      rw [placed.1] at inFlight
      contradiction

/-- Leaving the bus is accounted for by how the send left it. -/
theorem sound_lowerDe {s : State} (sound : Sound s) {send : Send} {exit : Exit}
    (place : s.sender = .lowerDe send exit) : Sound (s.lowerDe send exit) := by
  obtain ⟨own, numbered, placed⟩ := sound
  rw [place] at placed
  have due : Own s.history (.loweredDe send.id) := by
    intro accepted
    cases exit with
    | refused err => exact absurd accepted placed
    | timedOut => exact .inr placed
    | taken =>
      obtain ⟨_, event, completed, _⟩ := placed
      exact .inl ⟨event, completed⟩
  refine ⟨own.concat due, by simpa [State.lowerDe, State.record] using numbered, ?_⟩
  cases exit with
  | refused err => simpa [Placed, State.lowerDe, State.record] using placed
  | timedOut => simpa [Placed, State.lowerDe, State.record] using placed
  | taken =>
    obtain ⟨free, event, completed, result⟩ := placed
    exact ⟨free, event, by simp [State.lowerDe, State.record, completed], result⟩

theorem sound_finish {s : State} (sound : Sound s) {send : Send} {exit : Exit}
    (place : s.sender = .finish send exit) : Sound (s.finish send exit) := by
  obtain ⟨own, numbered, placed⟩ := sound
  rw [place] at placed
  cases exit with
  | refused err =>
    refine ⟨own.concat (fun accepted => absurd accepted placed), ?_, trivial⟩
    simpa [State.finish, State.record] using numbered
  | timedOut =>
    refine ⟨own.concat (fun _ => ⟨nofun, nofun⟩), ?_, trivial⟩
    simpa [State.finish, State.record] using numbered
  | taken =>
    obtain ⟨_, event, completed, result⟩ := placed
    cases event with
    | done =>
      have zero : s.txResult = 0 := result
      have echoed : Accounted Own (s.history ++ [.echoed send.id send.frame]) :=
        own.concat fun _ => completed
      have returned : Own (s.history ++ [.echoed send.id send.frame]) (.returned send.id 0) :=
        fun _ => ⟨fun _ => List.mem_append_left _ completed, nofun⟩
      have finished : s.finish send .taken = { s with
          sender := .idle
          history := s.history ++ [.echoed send.id send.frame] ++ [.returned send.id 0] } := by
        simp [State.finish, State.record, zero]
      rw [finished]
      exact ⟨echoed.concat returned, by simpa using numbered, trivial⟩
    | aborted =>
      have canceled : s.txResult = -ECANCELED := result
      have returned : Own s.history (.returned send.id (-ECANCELED)) :=
        fun _ => ⟨nofun, fun _ => completed⟩
      have finished : s.finish send .taken = { s with
          sender := .idle
          history := s.history ++ [.returned send.id (-ECANCELED)] } := by
        simp [State.finish, State.record, canceled, ECANCELED]
      rw [finished]
      exact ⟨own.concat returned, by simpa using numbered, trivial⟩

theorem sound_step {s t : State} {a : Act} (fresh : ¬ Stale s a) (step : Step s a t)
    (sound : Sound s) : Sound t := by
  have placed := sound.placed
  cases step with
  | enter frame some idle =>
    refine ⟨sound.own, fun id accepted => Nat.lt_succ_of_lt (sound.numbered id accepted), ?_⟩
    exact ⟨Nat.lt_succ_self _, fun accepted => absurd (sound.numbered _ accepted) (Nat.lt_irrefl _)⟩
  | resetSem send place =>
    rw [place] at placed
    exact ⟨sound.own, sound.numbered, placed, rfl⟩
  | clearResult send place =>
    rw [place] at placed
    exact ⟨sound.own, sound.numbered, placed⟩
  | raiseDe send place =>
    rw [place] at placed
    exact ⟨sound.own, sound.numbered, placed⟩
  | uartTxAccepts send place free =>
    rw [place] at placed
    refine ⟨sound.own.concat trivial, fun id accepted => ?_, .inl ⟨placed.2, rfl⟩⟩
    rcases List.mem_append.mp accepted with earlier | new
    · exact sound.numbered id earlier
    · obtain rfl := Mark.accepted.inj (List.mem_singleton.mp new)
      exact placed.1.1
  | uartTxRefuses send err place busy some =>
    rw [place] at placed
    exact ⟨sound.own, sound.numbered, placed.1.2⟩
  | semTaken send place token =>
    rw [place] at placed
    rcases placed with ⟨none, _⟩ | ⟨_, answered⟩
    · rw [token] at none
      contradiction
    · exact ⟨sound.own, sound.numbered, answered⟩
  | semTimeout send place none =>
    refine ⟨sound.own.concat trivial, by simpa [State.timeOut, State.record] using sound.numbered, ?_⟩
    simp [State.timeOut, State.record, Placed]
  | lowerDe send exit place => exact sound_lowerDe sound place
  | finish send exit place => exact sound_finish sound place
  | event id event inFlight =>
    refine sound_event sound event inFlight (Bool.eq_false_iff.mpr fun starting => ?_)
    exact fresh ⟨starting, event, rfl⟩

/-- Unless an earlier frame's event lands while a sender is starting, every send
gets its own completion. -/
theorem own_completion {acts : List Act} {s : State}
    (run : Run (Guarded (fun s a => ¬ Stale s a) Step) boot acts s) : Accounted Own s.history :=
  (run.invariant Sound (fun step => sound_step step.1 step.2) sound_boot).own

instance (s : State) (a : Act) : Decidable (Stale s a) :=
  decidable_of_iff (s.sender.starting = true ∧ (a = .event .done ∨ a = .event .aborted)) <| by
    refine and_congr_right fun _ => ⟨?_, ?_⟩
    · rintro (rfl | rfl)
      · exact ⟨.done, rfl⟩
      · exact ⟨.aborted, rfl⟩
    · rintro ⟨event, rfl⟩
      cases event
      · exact .inl rfl
      · exact .inr rfl

/-- A send times out, and its frame is aborted before the next one starts. -/
theorem own_completion_late : Accounted Own [.accepted 0, .timedOut 0, .loweredDe 0,
    .returned 0 (-ETIMEDOUT), .completed 0 .aborted] := by
  have run : Run (Guarded (fun s a => ¬ Stale s a) Step) boot [.enter [0x01], .sender, .sender,
      .sender, .uartTxAccepts, .semTimeout, .sender, .sender, .event .aborted] _ :=
    .next ⟨by decide, .enter _ (by decide) rfl⟩ (.next ⟨by decide, .resetSem _ rfl⟩
      (.next ⟨by decide, .clearResult _ rfl⟩ (.next ⟨by decide, .raiseDe _ rfl⟩
        (.next ⟨by decide, .uartTxAccepts _ rfl rfl⟩ (.next ⟨by decide, .semTimeout _ rfl rfl⟩
          (.next ⟨by decide, .lowerDe _ _ rfl⟩ (.next ⟨by decide, .finish _ _ rfl⟩
            (.next ⟨by decide, .event 0 .aborted rfl⟩ (.refl _)))))))))
  exact own_completion run

/-- A token left in the semaphore as a frame starts takes the bus from it. -/
theorem released_of_token {s : State} {send : Send} (starting : s.sender = .uartTx send)
    (token : s.txDoneSem = true) (free : s.inFlight = none)
    (waiting : ∀ event, .completed send.id event ∉ s.history) (early : .timedOut send.id ∉ s.history) :
    ∃ t, Run Step s [.uartTxAccepts, .semTaken, .sender] t ∧ t.de = false ∧
      t.inFlight = some send.id ∧ ¬ Accounted Own t.history := by
  let taken : State := { s.accept send with txDoneSem := false, sender := .lowerDe send .taken }
  refine ⟨taken.lowerDe send .taken, .next (.uartTxAccepts send starting free)
    (.next (.semTaken send rfl token) (.next (.lowerDe send .taken rfl) (.refl _))), rfl, rfl, ?_⟩
  intro own
  have due := own (s.history ++ [.accepted send.id]) (.loweredDe send.id) [] rfl
  rcases due (by simp) with ⟨event, completed⟩ | timedOut
  · simp [waiting] at completed
  · simp [early] at timedOut

/-- The aborted frame of a timed-out send is reported right after the next send's
reset: that send lowers DE in the middle of its frame, echoes it and returns zero. -/
theorem stale_token_releases :
    ∃ t, Run Step boot [.enter [0x01], .sender, .sender, .sender, .uartTxAccepts, .semTimeout,
      .sender, .sender, .enter [0x02], .sender, .event .aborted, .sender, .sender, .uartTxAccepts,
      .semTaken, .sender, .sender] t ∧
      t.inFlight = some 1 ∧ t.de = false ∧
      t.history = [.accepted 0, .timedOut 0, .loweredDe 0, .returned 0 (-ETIMEDOUT),
        .completed 0 .aborted, .accepted 1, .loweredDe 1, .echoed 1 [0x02], .returned 1 0] ∧
      ¬ Accounted Own t.history := by
  refine ⟨_, .next (.enter _ (by decide) rfl) (.next (.resetSem _ rfl) (.next (.clearResult _ rfl)
    (.next (.raiseDe _ rfl) (.next (.uartTxAccepts _ rfl rfl) (.next (.semTimeout _ rfl rfl)
    (.next (.lowerDe _ _ rfl) (.next (.finish _ _ rfl) (.next (.enter _ (by decide) rfl)
    (.next (.resetSem _ rfl) (.next (.event 0 _ rfl) (.next (.clearResult _ rfl)
    (.next (.raiseDe _ rfl) (.next (.uartTxAccepts _ rfl rfl) (.next (.semTaken _ rfl rfl)
    (.next (.lowerDe _ _ rfl) (.next (.finish _ _ rfl) (.refl _))))))))))))))))), rfl, rfl, rfl, ?_⟩
  intro own
  have due := own [.accepted 0, .timedOut 0, .loweredDe 0, .returned 0 (-ETIMEDOUT),
    .completed 0 .aborted, .accepted 1, .loweredDe 1, .echoed 1 [0x02]] (.returned 1 0) [] rfl
  exact absurd ((due (by decide)).1 rfl) (by decide)

end FlexitCs60.Uart
