import FlexitCs60.Gateway.Threads
import FlexitCs60.Zigbee.Channels

/-! No latched update is lost on its way to an attribute, no setter reaches
another channel's attribute, and the connectivity input tells the link. -/
namespace FlexitCs60.Gateway
open Zigbee (Channel)
open Mirror (Uptime)

/-- The value an action latches for a channel. -/
def Act.value? (c : Channel) : Act → Option c.Value
  | .zigbee (.set call) => call.value? c
  | _ => none

/-- The value last latched for a channel. -/
def lastValue (c : Channel) (events : List (Uptime × Act)) : Option c.Value :=
  Latched.latest (fun e => e.2.value? c) events

section
variable [Zephyr]

/-- Between ticks, a channel that was ever set is dirty or shows its last value. -/
def UpdatesKept (events : List (Uptime × Act)) (s : State) : Prop :=
  (∀ copy, s.zigbee.zboss ≠ .publishing copy) → ∀ c v, lastValue c events = some v →
    (s.zigbee.pending.channel c).val = v ∧
      ((s.zigbee.pending.channel c).dirty = true ∨ s.zigbee.published.attrs.input c = v)

/-- Without a setter call for another channel, the run goes on to the same
attribute. -/
def Undisturbed (events : List (Uptime × Act)) (s : State) : Prop :=
  ∀ c before t call after, events = before ++ (t, .zigbee (.set call)) :: after →
    call.value? c = none → ∃ z, Run (Uptime.boot, boot) (before ++ after) z ∧
      z.2.zigbee.published.attrs.input c = s.zigbee.published.attrs.input c

/-- After a tick the connectivity input tells whether a status block was accepted
within the last five seconds. -/
def LinkShown (events : List (Uptime × Act)) (s : State) : Prop :=
  ∀ before now up, events = before ++ [(now, .zigbee (.publishCopy up))] →
    (s.zigbee.published.attrs.binaryInput .setpoint = true ↔
      ∃ a ∈ Mirror.statusBlocks s.listener.arrivals,
        0 < a.1.val ∧ now.val - a.1.val ≤ cs60LinkStaleMs.toNat)

omit [Zephyr] in
theorem lastValue_view (c : Channel) (events : List (Uptime × Act)) :
    Latched.latest Latched.Event.value?
        ((zigbeeEvents events).filterMap fun e => Zigbee.view c e.2) = lastValue c events := by
  rw [Latched.latest_filterMap, zigbeeEvents, Latched.latest_filterMap, lastValue]
  congr 1
  funext e
  rcases e with ⟨t, act | act⟩
  · rfl
  · cases act with
    | set call => exact (by cases set : call.value? c <;> simp [Act.zigbee?, Zigbee.view, Act.value?,
        Latched.Event.value?, set])
    | _ => rfl

theorem updatesKept_run {events : List (Uptime × Act)} {y : Uptime × State}
    (run : Run (Uptime.boot, boot) events y) : UpdatesKept events y.2 := by
  intro between c v last
  obtain ⟨later, _, zigbee⟩ := zigbee_run run
  have cell := Zigbee.cell_run c zigbee
  have keeps := Latched.Cell.run_keeps (boot.zigbee.cell c) _ ((lastValue_view c events).trans last)
  have nothing : (y.2.zigbee.cell c).copied = none := by
    change y.2.zigbee.zboss.due c = none
    cases place : y.2.zigbee.zboss with
    | publishing copy => exact absurd place (between copy)
    | idle => rfl
    | written v => rfl
  rw [← show y.2.zigbee.cell c = _ from cell] at keeps
  refine ⟨keeps.latched, keeps.kept.imp_right ?_⟩
  rintro (copied | ⟨_, shown⟩)
  · rw [nothing] at copied
    contradiction
  · exact shown

theorem linkShown_run {events : List (Uptime × Act)} {y : Uptime × State}
    (run : Run (Uptime.boot, boot) events y) : LinkShown events y.2 := by
  rintro before now up rfl
  obtain ⟨m, earlier, last⟩ := run.split
  have faithful := faithful_run earlier (Mirror.faithful_listening _)
  obtain ⟨_, _, zigbee⟩ := zigbee_run run
  have cached := Zigbee.linkCached_run zigbee nofun
  cases last with
  | next ordered step rest =>
    cases rest
    cases step with
    | zigbee step link =>
      cases step with
      | publishCopy linkUp copy publishing =>
        have shown := cached up (Zigbee.publishCopy_cs60LinkState ..)
        rw [shown, link up rfl]
        exact Mirror.cs60LinkUp_iff (faithful.later ordered) _

/-- Equal but for the Zigbee data. -/
def Alike (s r : State) : Prop :=
  s.listener = r.listener ∧ s.zigbee.zboss.stage = r.zigbee.zboss.stage

theorem alike_step {t : Uptime} {s s' r : State} {a : Act} (step : Step t s a s')
    (alike : Alike s r) : ∃ r', Step t r a r' ∧ Alike s' r' := by
  obtain ⟨listener, place⟩ := alike
  cases step with
  | mirror step =>
    rw [listener] at step
    exact ⟨_, .mirror step, rfl, place⟩
  | zigbee step link =>
    obtain ⟨z, follows, place⟩ := Zigbee.stage_step step place
    refine ⟨_, .zigbee follows fun up same => ?_, listener, place⟩
    rw [link up same, State.linkUp, listener]
    rfl

theorem undisturbed_run {events : List (Uptime × Act)} {y : Uptime × State}
    (run : Run (Uptime.boot, boot) events y) : Undisturbed events y.2 := by
  rintro c before t call after rfl foreign
  obtain ⟨m, earlier, later⟩ := run.split
  cases later with
  | next ordered step rest =>
    rename_i now s s'
    have alike : Alike s' s := by
      cases step with
      | zigbee step link =>
        cases step with
        | set call => exact ⟨rfl, rfl⟩
    obtain ⟨end', z, _, replayed, _⟩ := rest.replay alike_step ordered alike
    refine ⟨_, earlier.trans replayed, ?_⟩
    obtain ⟨_, _, zigbee⟩ := zigbee_run run
    obtain ⟨_, _, without⟩ := zigbee_run (earlier.trans replayed)
    have cell := Zigbee.cell_run c zigbee
    have other := Zigbee.cell_run c without
    have same : (zigbeeEvents (before ++ (t, .zigbee (.set call)) :: after)).filterMap
        (fun e => Zigbee.view c e.2) =
        (zigbeeEvents (before ++ after)).filterMap fun e => Zigbee.view c e.2 := by
      simp [zigbeeEvents, Act.zigbee?, Zigbee.view, foreign]
    rw [same] at cell
    exact congrArg Latched.Cell.shown (other.trans cell.symm)

/-- Over any interleaving of the setters with the steps of the ticks and with the
mirror's feeds. -/
theorem no_update_lost {events : List (Uptime × Act)} {y : Uptime × State}
    (run : Run (Uptime.boot, boot) events y) :
    UpdatesKept events y.2 ∧ Undisturbed events y.2 ∧ LinkShown events y.2 :=
  ⟨updatesKept_run run, undisturbed_run run, linkShown_run run⟩

end

/-- A heater output of 40 % latched, and a tick a second later. -/
def heatingTick : List (Uptime × Act) :=
  [(⟨1000, by decide⟩, .zigbee (.set (.percent .heating 40))),
    (⟨2000, by decide⟩, .zigbee .copyLatches), (⟨2000, by decide⟩, .zigbee (.publishCopy false))]

theorem no_update_lost_heating : ∃ y, Run (Uptime.boot, boot) heatingTick y ∧
    y.2.zigbee.published.attrs.analogInput .heating = 40 ∧
    UpdatesKept heatingTick y.2 ∧ Undisturbed heatingTick y.2 ∧ LinkShown heatingTick y.2 := by
  have run : ∃ y, Run (Uptime.boot, boot) heatingTick y ∧
      y.2.zigbee.published.attrs.analogInput .heating = 40 :=
    ⟨_, .next (by decide) (.zigbee (.set _) nofun)
      (.next (by decide) (.zigbee (.copyLatches rfl) nofun)
        (.next (by decide) (.zigbee (.publishCopy false _ rfl) fun up same => by cases same; rfl)
          (.refl _))), by decide +kernel⟩
  obtain ⟨y, run, shown⟩ := run
  exact ⟨y, run, shown, no_update_lost run⟩

end FlexitCs60.Gateway
