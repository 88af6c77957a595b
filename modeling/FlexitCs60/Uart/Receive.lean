import FlexitCs60.System.Labelled
import Mathlib.Data.List.Nodup

/-! The two DMA buffers of the receive path. Which buffers the driver holds is told by
the events it documents; `uart_async_cb` tells it by a bit which one to take next. -/
namespace FlexitCs60.Uart.Receive
open Labelled

/-- `rx_buf_a` and `rx_buf_b`. -/
inductive RxBuf where
  | a
  | b
  deriving DecidableEq, Repr

def RxBuf.other : RxBuf → RxBuf
  | .a => .b
  | .b => .a

/-- The events of reception. -/
inductive Event where
  /-- `UART_RX_RDY`, with the bytes at `buf + offset`. -/
  | rxRdy (src : List UInt8)
  | rxBufRequest
  | rxBufReleased (buf : RxBuf)
  | rxStopped
  | rxDisabled
  deriving DecidableEq, Repr

/-- What the callback asks of the driver. -/
inductive Call where
  | rxBufRsp (buf : RxBuf)
  | rxEnable (buf : RxBuf)
  deriving DecidableEq, Repr

/-- The statics the callback keeps for reception. -/
structure Statics where
  nextBuf : Nat
  stopEvents : UInt32
  deriving DecidableEq, Repr

/-- `idx == 0 ? rx_buf_a : rx_buf_b` -/
def Statics.selected (s : Statics) : RxBuf := if s.nextBuf = 0 then .a else .b

/-- The callback, but for the ring buffer. -/
def uartAsyncCb (s : Statics) : Event → Statics × Option Call
  | .rxRdy _ => (s, none)
  | .rxBufRequest => ({ s with nextBuf := s.nextBuf ^^^ 1 }, some (.rxBufRsp s.selected))
  | .rxBufReleased _ => (s, none)
  | .rxDisabled => ({ s with nextBuf := 1 }, some (.rxEnable .a))
  | .rxStopped => ({ s with stopEvents := s.stopEvents + 1 }, none)

/-- `rs485_uart_init` sets the bit and enables reception into `rx_buf_a`. -/
def rs485UartInit : Statics × Call := (⟨1, 0⟩, .rxEnable .a)

/-- A driver of the asynchronous interface, by what an observer can tell of it. -/
structure Driver (σ : Type*) where
  raises : σ → Event → σ → Prop
  answers : σ → Call → σ → Prop
  /-- The buffers it was given and has not released, the one it fills first. -/
  held : σ → List RxBuf
  enabled : σ → Bool

/-- What the interface documents. -/
structure Driver.Documented {σ : Type*} (driver : Driver σ) : Prop where
  /-- Reception has started into a buffer, and none follows it. -/
  request : ∀ {s t}, driver.raises s .rxBufRequest t →
    driver.enabled s = true ∧ (∃ buf, driver.held s = [buf]) ∧
      driver.held t = driver.held s ∧ driver.enabled t = true
  /-- The next buffer is taken, or reception was disabled already. -/
  response : ∀ {s t buf next}, driver.held s = [buf] → driver.answers s (.rxBufRsp next) t →
    driver.held t = [buf, next] ∧ driver.enabled t = driver.enabled s ∨
      driver.held t = [buf] ∧ driver.enabled t = false
  /-- Buffers are released in the order in which they were given. -/
  released : ∀ {s t buf}, driver.raises s (.rxBufReleased buf) t →
    driver.held s = buf :: driver.held t ∧ driver.enabled t = driver.enabled s
  /-- Every buffer has been released. -/
  disabled : ∀ {s t}, driver.raises s .rxDisabled t → driver.held s = [] ∧ driver.held t = []
  enable : ∀ {s t buf}, driver.held s = [] → driver.answers s (.rxEnable buf) t →
    driver.held t = [buf] ∧ driver.enabled t = true ∨
      driver.held t = [] ∧ driver.enabled t = false
  ready : ∀ {s t src}, driver.raises s (.rxRdy src) t →
    driver.held t = driver.held s ∧ driver.enabled t = driver.enabled s
  /-- The driver disables reception after a line error, at once or later. -/
  stopped : ∀ {s t}, driver.raises s .rxStopped t → driver.held t = driver.held s ∧
    (driver.enabled t = true → driver.enabled s = true)

/-- The driver raises an event, and the callback handles it. -/
inductive Step {σ : Type*} (driver : Driver σ) (x : σ × Statics) : Event → σ × Statics → Prop where
  | quiet {e : Event} {s : σ} : driver.raises x.1 e s → (uartAsyncCb x.2 e).2 = none →
      Step driver x e (s, (uartAsyncCb x.2 e).1)
  | call {e : Event} {s t : σ} {c : Call} : driver.raises x.1 e s →
      (uartAsyncCb x.2 e).2 = some c → driver.answers s c t →
      Step driver x e (t, (uartAsyncCb x.2 e).1)

variable {σ : Type*} {driver : Driver σ}

/-- Once a buffer follows, or while reception may still ask for one, the bit selects the
buffer that the driver does not fill. -/
def Apart (driver : Driver σ) (x : σ × Statics) : Prop :=
  x.2.nextBuf ≤ 1 ∧
    (driver.held x.1 = [] ∨
      (∃ buf, driver.held x.1 = [buf] ∧
        (driver.enabled x.1 = true → x.2.selected = buf.other)) ∨
      ∃ buf, driver.held x.1 = [buf, buf.other] ∧
        (driver.enabled x.1 = true → x.2.selected = buf))

@[simp] theorem RxBuf.other_other (buf : RxBuf) : buf.other.other = buf := by
  cases buf <;> rfl

theorem RxBuf.ne_other (buf : RxBuf) : buf ≠ buf.other := by
  cases buf <;> decide

/-- The toggled bit selects the other buffer. -/
theorem selected_toggle {s : Statics} (bit : s.nextBuf ≤ 1) :
    (uartAsyncCb s .rxBufRequest).1.nextBuf ≤ 1 ∧
      (uartAsyncCb s .rxBufRequest).1.selected = s.selected.other := by
  rcases Nat.le_one_iff_eq_zero_or_eq_one.mp bit with zero | one
  · simp [uartAsyncCb, Statics.selected, zero, RxBuf.other]
  · simp [uartAsyncCb, Statics.selected, one, RxBuf.other]

/-- What the driver holds stays, and it asks for no more than before. -/
theorem Apart.same {x : σ × Statics} {s : σ} {c : Statics} (apart : Apart driver x)
    (held : driver.held s = driver.held x.1)
    (enabled : driver.enabled s = true → driver.enabled x.1 = true)
    (bit : c.nextBuf = x.2.nextBuf) : Apart driver (s, c) := by
  have selected : c.selected = x.2.selected := by
    rw [Statics.selected, Statics.selected, bit]
  obtain ⟨small, none | ⟨buf, one, turn⟩ | ⟨buf, two, turn⟩⟩ := apart
  · exact ⟨bit ▸ small, .inl (held.trans none)⟩
  · refine ⟨bit ▸ small, .inr (.inl ⟨buf, held.trans one, fun on => ?_⟩)⟩
    exact selected.trans (turn (enabled on))
  · refine ⟨bit ▸ small, .inr (.inr ⟨buf, held.trans two, fun on => ?_⟩)⟩
    exact selected.trans (turn (enabled on))

/-- A buffer is asked for while the bit selects the free one. -/
theorem Apart.request (documented : driver.Documented) {x : σ × Statics} {s : σ}
    (apart : Apart driver x) (raised : driver.raises x.1 .rxBufRequest s) :
    ∃ buf, driver.held s = [buf] ∧ driver.enabled s = true ∧ x.2.selected = buf.other := by
  obtain ⟨on, ⟨buf, held⟩, same, still⟩ := documented.request raised
  obtain ⟨_, none | ⟨_, one, turn⟩ | ⟨_, two, _⟩⟩ := apart
  · exact absurd (held.symm.trans none) (List.cons_ne_nil _ _)
  · obtain rfl := List.singleton_inj.mp (held.symm.trans one)
    exact ⟨buf, same.trans held, still, turn on⟩
  · exact absurd (congrArg List.length (held.symm.trans two)) (by simp)

theorem apart_enable (documented : driver.Documented) {s t : σ} {c : Statics}
    (none : driver.held s = []) (first : c.nextBuf = 1)
    (enables : driver.answers s (.rxEnable .a) t) : Apart driver (t, c) := by
  refine ⟨Nat.le_of_eq first, ?_⟩
  rcases documented.enable none enables with ⟨held, _⟩ | ⟨held, _⟩
  · refine .inr (.inl ⟨.a, held, fun _ => ?_⟩)
    simp [Statics.selected, first, RxBuf.other]
  · exact .inl held

theorem apart_step (documented : driver.Documented) {x y : σ × Statics} {e : Event}
    (step : Step driver x e y) (apart : Apart driver x) : Apart driver y := by
  cases step with
  | @quiet s raised silent =>
    cases e with
    | rxRdy src =>
      obtain ⟨held, enabled⟩ := documented.ready raised
      exact apart.same held (fun on => enabled ▸ on) rfl
    | rxStopped =>
      obtain ⟨held, enabled⟩ := documented.stopped raised
      exact apart.same held enabled rfl
    | rxBufReleased buf =>
      obtain ⟨front, enabled⟩ := documented.released raised
      obtain ⟨bit, none | ⟨_, one, _⟩ | ⟨first, two, turn⟩⟩ := apart
      · exact absurd (front.symm.trans none) (List.cons_ne_nil _ _)
      · exact ⟨bit, .inl (List.cons.inj (front.symm.trans one)).2⟩
      · obtain ⟨_, rest⟩ := List.cons.inj (front.symm.trans two)
        refine ⟨bit, .inr (.inl ⟨first.other, rest, fun on => ?_⟩)⟩
        rw [RxBuf.other_other]
        exact turn (enabled ▸ on)
    | rxBufRequest => contradiction
    | rxDisabled => contradiction
  | @call s t c raised asks answered =>
    cases e with
    | rxBufRequest =>
      obtain ⟨buf, held, on, selected⟩ := apart.request documented raised
      obtain ⟨bit, toggled⟩ := selected_toggle apart.1
      obtain rfl := Option.some.inj asks
      rw [selected, RxBuf.other_other] at toggled
      refine ⟨bit, .inr ?_⟩
      rcases documented.response held answered with ⟨both, _⟩ | ⟨one, off⟩
      · exact .inr ⟨buf, selected ▸ both, fun _ => toggled⟩
      · exact .inl ⟨buf, one, fun on => absurd (off.symm.trans on) nofun⟩
    | rxDisabled =>
      obtain rfl := Option.some.inj asks
      exact apart_enable documented (documented.disabled raised).2 rfl answered
    | rxRdy src => contradiction
    | rxBufReleased buf => contradiction
    | rxStopped => contradiction

theorem Apart.nodup {x : σ × Statics} (apart : Apart driver x) : (driver.held x.1).Nodup := by
  obtain ⟨_, none | ⟨buf, one, _⟩ | ⟨buf, two, _⟩⟩ := apart
  · rw [none]
    exact List.nodup_nil
  · rw [one]
    exact List.nodup_singleton buf
  · rw [two]
    exact List.nodup_cons.mpr ⟨fun member => buf.ne_other (List.mem_singleton.mp member),
      List.nodup_singleton _⟩

/-- Whatever a driver that keeps its interface does, line errors and restarts included,
the callback never hands it a buffer that it holds, and unless reception was disabled
meanwhile an answered request leaves it with both. -/
theorem buffers_apart (documented : driver.Documented) {s₀ s : σ} {events : List Event}
    {x : σ × Statics} (unused : driver.held s₀ = [])
    (enables : driver.answers s₀ rs485UartInit.2 s)
    (run : Run (Step driver) (s, rs485UartInit.1) events x) :
    (driver.held x.1).Nodup ∧ ∀ {t u}, driver.raises x.1 .rxBufRequest t →
      x.2.selected ∉ driver.held t ∧ (driver.answers t (.rxBufRsp x.2.selected) u →
        driver.enabled u = true → ∀ buf, buf ∈ driver.held u) := by
  have apart := run.invariant (Apart driver) (apart_step documented)
    (apart_enable documented unused rfl enables)
  refine ⟨apart.nodup, fun {t u} raised => ?_⟩
  obtain ⟨buf, held, _, selected⟩ := apart.request documented raised
  rw [selected, held]
  refine ⟨fun member => buf.ne_other (List.mem_singleton.mp member).symm, ?_⟩
  intro answered on next
  rcases documented.response held answered with ⟨both, _⟩ | ⟨_, off⟩
  · rw [both]
    cases buf <;> cases next <;> decide
  · exact absurd (off.symm.trans on) nofun

/-- A UARTE: it asks for a successor as it starts a buffer, and a line error disables it. -/
structure Uarte where
  held : List RxBuf
  enabled : Bool
  started : Bool
  deriving DecidableEq, Repr

def Uarte.raise (s : Uarte) : Event → Option Uarte
  | .rxRdy _ => some s
  | .rxBufRequest =>
    match s.held with
    | [_] => if s.enabled ∧ s.started then some { s with started := false } else none
    | _ => none
  | .rxBufReleased buf =>
    match s.held with
    | first :: rest =>
      if first = buf then some { s with held := rest, started := s.enabled } else none
    | [] => none
  | .rxStopped => some { s with enabled := false }
  | .rxDisabled => if s.held = [] then some s else none

def Uarte.answer (s : Uarte) : Call → Uarte
  | .rxBufRsp buf => if s.enabled then { s with held := s.held ++ [buf] } else s
  | .rxEnable buf => ⟨[buf], true, true⟩

def uarte : Driver Uarte where
  raises s e t := s.raise e = some t
  answers s c t := s.answer c = t
  held := Uarte.held
  enabled := Uarte.enabled

theorem uarte_documented : uarte.Documented where
  request := by
    rintro s t raised
    simp only [uarte, Uarte.raise] at raised
    split at raised
    · rename_i buf held
      split at raised
      · rename_i on
        obtain rfl := Option.some.inj raised
        exact ⟨on.1, ⟨buf, held⟩, rfl, on.1⟩
      · contradiction
    · contradiction
  response := by
    rintro s t buf next held rfl
    simp only [uarte, Uarte.answer] at held ⊢
    split
    · exact .inl ⟨congrArg (· ++ [next]) held, rfl⟩
    · rename_i off
      exact .inr ⟨held, Bool.not_eq_true _ ▸ off⟩
  released := by
    rintro s t buf raised
    simp only [uarte, Uarte.raise] at raised ⊢
    split at raised
    · rename_i first rest held
      split at raised
      · rename_i same
        obtain rfl := Option.some.inj raised
        exact ⟨held.trans (congrArg (· :: rest) same), rfl⟩
      · contradiction
    · contradiction
  disabled := by
    rintro s t raised
    simp only [uarte, Uarte.raise] at raised ⊢
    split at raised
    · rename_i none
      obtain rfl := Option.some.inj raised
      exact ⟨none, none⟩
    · contradiction
  enable := by
    rintro s t buf _ rfl
    exact .inl ⟨rfl, rfl⟩
  ready := by
    rintro s t src raised
    obtain rfl := Option.some.inj raised
    exact ⟨rfl, rfl⟩
  stopped := by
    rintro s t raised
    obtain rfl := Option.some.inj raised
    exact ⟨rfl, nofun⟩

/-- Both buffers are filled in turn, a line error ends reception while both are held, and
it is enabled again. -/
def restart : List Event :=
  [.rxBufRequest, .rxRdy [0x01], .rxBufReleased .a, .rxBufRequest, .rxRdy [0x02],
    .rxBufReleased .b, .rxBufRequest, .rxStopped, .rxBufReleased .a, .rxBufReleased .b, .rxDisabled]

theorem buffers_apart_restart : ∃ x t u, Run (Step uarte) (⟨[.a], true, true⟩, rs485UartInit.1)
    restart x ∧ uarte.raises x.1 .rxBufRequest t ∧ uarte.answers t (.rxBufRsp x.2.selected) u ∧
    (uarte.held x.1).Nodup ∧ x.2.selected ∉ uarte.held t ∧ ∀ buf, buf ∈ uarte.held u := by
  have run : Run (Step uarte) (⟨[.a], true, true⟩, rs485UartInit.1) restart
      (⟨[.a], true, true⟩, ⟨1, 1⟩) :=
    .next (.call rfl rfl rfl) (.next (.quiet rfl rfl) (.next (.quiet rfl rfl)
      (.next (.call rfl rfl rfl) (.next (.quiet rfl rfl) (.next (.quiet rfl rfl)
        (.next (.call rfl rfl rfl) (.next (.quiet rfl rfl) (.next (.quiet rfl rfl)
          (.next (.quiet rfl rfl) (.next (.call rfl rfl rfl) (.refl _)))))))))))
  obtain ⟨apart, requests⟩ := buffers_apart uarte_documented
    (show uarte.held ⟨[], false, false⟩ = [] from rfl) rfl run
  obtain ⟨free, both⟩ := requests (t := ⟨[.a], true, false⟩) (u := ⟨[.a, .b], true, false⟩) rfl
  exact ⟨_, _, _, run, rfl, rfl, apart, free, both rfl rfl⟩

end FlexitCs60.Uart.Receive
