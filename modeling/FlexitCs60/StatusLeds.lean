import FlexitCs60.System.Blink
import FlexitCs60.Zigbee.Network

/-! The status LEDs that `main` drives, turn after turn, and what can be read off them. -/
namespace FlexitCs60.StatusLeds
open Zigbee.Network (NetState)
open Blink

/-- `RED_BLINK_TICKS` -/
def redBlinkTicks : UInt32 := 5

/-- `LED_SLOW_BLINK_TICKS` -/
def ledSlowBlinkTicks : UInt32 := 10

/-- `ADV_ENSURE_TICKS` -/
def advEnsureTicks : UInt32 := 10

structure Leds where
  red : Bool
  green : Bool
  blue : Bool
  deriving DecidableEq, Repr

/-- What one turn of the loop asks the subsystems. -/
structure Status where
  cs60LinkUp : Bool
  netState : NetState
  connected : Bool
  deriving DecidableEq, Repr

/-- `init_failed` after the five `*_init` calls. -/
def initFailed (results : List Int) : Bool := results.any (· < 0)

def turnRed (failed : Bool) (tick : UInt32) (linkUp red : Bool) : Bool :=
  if failed then true
  else if !linkUp then if tick % redBlinkTicks = 0 then !red else red
  else false

def turnGreen (tick : UInt32) (netState : NetState) (green : Bool) : Bool :=
  match netState with
  | .joining => !green
  | .joined => true
  | .idle => if tick % ledSlowBlinkTicks = 0 then !green else green

/-- The new levels, and whether `ble_transport_ensure_advertising` is called. -/
def turn (failed : Bool) (tick : UInt32) (status : Status) (leds : Leds) : Leds × Bool :=
  (⟨turnRed failed tick status.cs60LinkUp leds.red, turnGreen tick status.netState leds.green,
    status.connected⟩, tick % advEnsureTicks = 0)

/-- The levels after each turn. -/
def display (failed : Bool) : UInt32 → Leds → List Status → List Leds
  | _, _, [] => []
  | tick, leds, status :: rest =>
    let next := (turn failed tick status leds).1
    next :: display failed (tick + 1) next rest

/-- The levels after a number of turns that all see the same status. -/
def after (failed : Bool) (status : Status) (tick : UInt32) (leds : Leds) : ℕ → Leds
  | 0 => leds
  | k + 1 => (turn failed (tick + UInt32.ofNat k) status (after failed status tick leds k)).1

theorem after_shift (failed : Bool) (status : Status) (tick : UInt32) (leds : Leds) (k : ℕ) :
    after failed status tick leds (k + 1) =
      after failed status (tick + 1) (turn failed tick status leds).1 k := by
  induction k with
  | zero => simp [after]
  | succ k ih =>
    have next : tick + UInt32.ofNat (k + 1) = tick + 1 + UInt32.ofNat k := by
      rw [UInt32.ofNat_add, UInt32.add_comm (UInt32.ofNat k), ← UInt32.add_assoc]
      rfl
    rw [after, ih, next]
    rfl

theorem display_replicate (failed : Bool) (status : Status) (n : ℕ) :
    ∀ (tick : UInt32) (leds : Leds), display failed tick leds (List.replicate n status) =
      (List.range n).map fun k => after failed status tick leds (k + 1) := by
  induction n with
  | zero => exact fun _ _ => rfl
  | succ n ih =>
    intro tick leds
    rw [List.replicate_succ, display, ih, List.range_succ_eq_map, List.map_cons, List.map_map]
    refine congrArg₂ _ (by simp [after]) (List.map_congr_left fun k _ => ?_)
    exact (after_shift failed status tick leds (k + 1)).symm

theorem display_append (failed : Bool) (before later : List Status) :
    ∀ (tick : UInt32) (leds : Leds), ∃ tick' leds',
      display failed tick leds (before ++ later) =
        display failed tick leds before ++ display failed tick' leds' later := by
  induction before with
  | nil => exact fun tick leds => ⟨tick, leds, rfl⟩
  | cons status rest ih =>
    intro tick leds
    obtain ⟨tick', leds', same⟩ := ih (tick + 1) (turn failed tick status leds).1
    exact ⟨tick', leds', congrArg _ same⟩

theorem length_display (failed : Bool) (statuses : List Status) :
    ∀ (tick : UInt32) (leds : Leds),
      (display failed tick leds statuses).length = statuses.length := by
  induction statuses with
  | nil => exact fun _ _ => rfl
  | cons status rest ih =>
    intro tick leds
    rw [display, List.length_cons, ih, List.length_cons]

/-! What eleven turns of one status show. -/

section
variable (failed : Bool) (status : Status) (tick : UInt32) (leds : Leds)

/-- The levels that turn `k` leaves. -/
def shown (k : ℕ) : Leds := after failed status tick leds (k + 1)

theorem shown_succ (k : ℕ) : shown failed status tick leds (k + 1) =
    (turn failed (tick + 1 + UInt32.ofNat k) status (shown failed status tick leds k)).1 := by
  have next : tick + UInt32.ofNat (k + 1) = tick + 1 + UInt32.ofNat k := by
    rw [UInt32.ofNat_add, UInt32.add_comm (UInt32.ofNat k), ← UInt32.add_assoc]
    rfl
  rw [shown, after, next]
  rfl

/-- The fault that the red LED reports. -/
inductive Fault where
  | initFailed
  | linkDown
  | none
  deriving DecidableEq, Repr

def fault : Fault := if failed then .initFailed else if status.cs60LinkUp then .none else .linkDown

/-- What the red LED shows for a fault over `n + 1` turns. -/
def RedShows (n : ℕ) (level : ℕ → Bool) : Fault → Prop
  | .initFailed => Solid n level true
  | .linkDown => Blinks n level
  | .none => Solid n level false

/-- What the green LED shows for a network state. -/
def GreenShows (n : ℕ) (level : ℕ → Bool) : NetState → Prop
  | .joined => Solid n level true
  | .joining => Flickers n level
  | .idle => Blinks n level ∧ Rests n level

theorem tick_mod_eq_zero (t : UInt32) (period : UInt32) :
    t % period = 0 ↔ t.toNat % period.toNat = 0 := by
  rw [← UInt32.toNat_inj, UInt32.toNat_mod]
  rfl

theorem red_shows :
    RedShows 10 (fun k => (shown failed status tick leds k).red) (fault failed status) := by
  unfold fault
  cases failed with
  | true =>
    intro k _
    cases k <;> rfl
  | false =>
    cases link : status.cs60LinkUp with
    | true =>
      intro k _
      cases k <;> simp [shown, after, turn, turnRed, link]
    | false =>
      obtain ⟨k, before, toggles⟩ := tick_within (tick + 1) (Nat.succ_pos 4)
      refine ⟨k, by omega, ?_⟩
      have aligned := (tick_mod_eq_zero (tick + 1 + UInt32.ofNat k) redBlinkTicks).mpr toggles
      dsimp only
      rw [shown_succ]
      simp [turn, turnRed, link, aligned]

/-- Two ticks in a row are not both multiples of ten, not even across the wrap. -/
theorem tick_rests (t : UInt32) : t % ledSlowBlinkTicks = 0 → (t + 1) % ledSlowBlinkTicks ≠ 0 := by
  intro first second
  rw [tick_mod_eq_zero] at first second
  have ten : ledSlowBlinkTicks.toNat = 10 := rfl
  have one : (t + 1).toNat = (t.toNat + 1) % 2 ^ 32 := toNat_tick t 1
  rw [ten] at first second
  rw [one] at second
  omega

theorem green_shows :
    GreenShows 10 (fun k => (shown failed status tick leds k).green) status.netState := by
  cases state : status.netState with
  | joined =>
    intro k _
    cases k <;> simp [shown, after, turn, turnGreen, state]
  | joining =>
    intro k _
    dsimp only
    rw [shown_succ]
    simp [turn, turnGreen, state]
  | idle =>
    constructor
    · obtain ⟨k, before, toggles⟩ := tick_within (tick + 1) (Nat.succ_pos 9)
      refine ⟨k, before, ?_⟩
      have aligned := (tick_mod_eq_zero (tick + 1 + UInt32.ofNat k) ledSlowBlinkTicks).mpr toggles
      dsimp only
      rw [shown_succ]
      simp [turn, turnGreen, state, aligned]
    · by_cases aligned : (tick + 1 + UInt32.ofNat 0) % ledSlowBlinkTicks = 0
      · refine ⟨1, by decide, ?_⟩
        have next := tick_rests _ aligned
        dsimp only
        rw [shown_succ]
        simp only [turn, turnGreen, state]
        rw [if_neg]
        simpa [UInt32.add_assoc] using next
      · refine ⟨0, by decide, ?_⟩
        dsimp only
        rw [shown_succ]
        simp only [turn, turnGreen, state]
        rw [if_neg aligned]

end

theorem RedShows.congr {n : ℕ} {level other : ℕ → Bool} {a : Fault}
    (same : ∀ k ≤ n, level k = other k) (shows : RedShows n level a) : RedShows n other a := by
  cases a with
  | initFailed => exact Solid.congr same shows
  | linkDown => exact Blinks.congr same shows
  | none => exact Solid.congr same shows

theorem GreenShows.congr {n : ℕ} {level other : ℕ → Bool} {a : NetState}
    (same : ∀ k ≤ n, level k = other k) (shows : GreenShows n level a) : GreenShows n other a := by
  cases a with
  | joined => exact Solid.congr same shows
  | joining => exact Flickers.congr same shows
  | idle => exact ⟨Blinks.congr same shows.1, Rests.congr same shows.2⟩

theorem redShows_unique {n : ℕ} {level : ℕ → Bool} {a b : Fault} (first : RedShows n level a)
    (second : RedShows n level b) : a = b := by
  cases a with
  | initFailed =>
    cases b with
    | initFailed => rfl
    | linkDown => exact absurd second first.not_blinks
    | none => exact absurd (first.unique second) (by decide)
  | linkDown =>
    cases b with
    | linkDown => rfl
    | initFailed => exact absurd first second.not_blinks
    | none => exact absurd first second.not_blinks
  | none =>
    cases b with
    | none => rfl
    | linkDown => exact absurd second first.not_blinks
    | initFailed => exact absurd (first.unique second) (by decide)

theorem greenShows_unique {n : ℕ} (some : 0 < n) {level : ℕ → Bool} {a b : NetState}
    (first : GreenShows n level a) (second : GreenShows n level b) : a = b := by
  cases a with
  | joined =>
    cases b with
    | joined => rfl
    | joining => exact absurd (Flickers.blinks second some) first.not_blinks
    | idle => exact absurd second.1 first.not_blinks
  | joining =>
    cases b with
    | joining => rfl
    | joined => exact absurd (Flickers.blinks first some) second.not_blinks
    | idle => exact absurd second.2 first.not_rests
  | idle =>
    cases b with
    | idle => rfl
    | joined => exact absurd first.1 second.not_blinks
    | joining => exact absurd first.2 second.not_rests

/-- The loop's levels from power-up, where the LEDs are off. -/
def levels (failed : Bool) (statuses : List Status) : List Leds :=
  display failed 0 ⟨false, false, false⟩ statuses

theorem levels_last (failed : Bool) (before : List Status) (status : Status) (n : ℕ) :
    ∃ tick leds, (levels failed (before ++ List.replicate n status)).drop before.length =
      (List.range n).map fun k => shown failed status tick leds k := by
  obtain ⟨tick, leds, split⟩ :=
    display_append failed before (List.replicate n status) 0 ⟨false, false, false⟩
  refine ⟨tick, leds, ?_⟩
  have size := length_display failed before 0 ⟨false, false, false⟩
  rw [levels, split, ← size, List.drop_left, display_replicate]
  rfl

/-- Whatever came before and wherever the tick counter is, eleven turns of one status
show it: the fault, the network state and the BLE connection can be told from the LEDs. -/
theorem leds_tell {failed failed' : Bool} {before before' : List Status} {status status' : Status}
    (same : (levels failed (before ++ List.replicate 11 status)).drop before.length =
      (levels failed' (before' ++ List.replicate 11 status')).drop before'.length) :
    fault failed status = fault failed' status' ∧ status.netState = status'.netState ∧
      status.connected = status'.connected := by
  obtain ⟨tick, leds, first⟩ := levels_last failed before status 11
  obtain ⟨tick', leds', second⟩ := levels_last failed' before' status' 11
  rw [first, second] at same
  have agree : ∀ k ≤ 10, shown failed status tick leds k = shown failed' status' tick' leds' k :=
    fun k within => List.map_inj_left.mp same k (List.mem_range.mpr (Nat.lt_succ_of_le within))
  refine ⟨redShows_unique ?_ (red_shows failed' status' tick' leds'),
    greenShows_unique (by decide) ?_ (green_shows failed' status' tick' leds'), ?_⟩
  · exact (red_shows failed status tick leds).congr fun k within =>
      congrArg Leds.red (agree k within)
  · exact (green_shows failed status tick leds).congr fun k within =>
      congrArg Leds.green (agree k within)
  · exact congrArg Leds.blue (agree 0 (Nat.zero_le 10))

/-- An initialisation that failed hides the state of the RS485 link. -/
theorem leds_tell_failed :
    fault true ⟨true, .joined, false⟩ = fault true ⟨false, .joined, false⟩ ∧
      NetState.joined = NetState.joined ∧ false = false := by
  have same : (levels true ([⟨true, .joining, true⟩] ++
        List.replicate 11 ⟨true, .joined, false⟩)).drop [(⟨true, .joining, true⟩ : Status)].length =
      (levels true ([] ++ List.replicate 11 ⟨false, .joined, false⟩)).drop
        ([] : List Status).length := by
    decide
  exact leds_tell same

end FlexitCs60.StatusLeds
