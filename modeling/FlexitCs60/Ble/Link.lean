import FlexitCs60.Ble.Nus
import FlexitCs60.System.Blink
import FlexitCs60.System.Labelled

/-! The one BLE link: the connection callbacks, the security it is held to, and the ways
back to advertising. The Bluetooth host keeps to a single connection. -/
namespace FlexitCs60.Ble.Link
open Slave Labelled

abbrev Conn := ℕ

/-- `BT_SECURITY_L3` -/
def securityL3 : ℕ := 3

/-- What `bt_le_adv_start` comes to. -/
inductive AdvStart where
  | started
  | already
  | failed
  deriving DecidableEq, Repr

/-- A connection of the host. -/
structure Peer where
  conn : Conn
  level : ℕ
  /-- `bt_conn_set_security` was accepted, and `security_changed` has not come yet. -/
  pairing : Bool
  /-- `bt_conn_disconnect` was called. -/
  closing : Bool
  deriving DecidableEq, Repr

structure State where
  currentConn : Option Conn
  streamActive : Bool
  clearbondDue : Bool
  restartDue : Bool
  /-- The tick of the status loop. -/
  tick : UInt32
  /-- References taken with `bt_conn_ref` and not returned. -/
  held : Conn → ℕ
  live : Option Peer
  advertising : Bool

inductive Act where
  | connected (conn : Conn) (accepted : Bool)
  /-- A connection that is not established, which ends the advertising too. -/
  | connectFailed
  | securityChanged (level : ℕ) (failed : Bool)
  | disconnected
  | nusReceived (data : List UInt8) (slave : Slave.State)
  | advRestart (result : AdvStart)
  | statusTick (result : AdvStart)
  | clearbond

namespace State

/-- `advertising_start` -/
def advertisingStart (result : AdvStart) (s : State) : State :=
  match result with
  | .started => { s with advertising := true }
  | _ => s

/-- `ble_transport_ensure_advertising` and `adv_restart_work_handler` -/
def ensureAdvertising (result : AdvStart) (s : State) : State :=
  if s.currentConn = none then s.advertisingStart result else s

/-- `connected` without an error, up to its request for security. -/
def connected (conn : Conn) (accepted : Bool) (s : State) : State :=
  { s with
    currentConn := some conn
    held := Function.update s.held conn (s.held conn + 1)
    live := some ⟨conn, 1, accepted, !accepted⟩
    advertising := false }

/-- `security_changed` -/
def securityChanged (level : ℕ) (failed : Bool) (peer : Peer) (s : State) : State :=
  let refused := failed ∨ level < securityL3
  { s with live := some { peer with
      level := level
      pairing := false
      closing := peer.closing || decide refused } }

/-- `disconnected` -/
def disconnected (conn : Conn) (s : State) : State :=
  let s := { s with streamActive := false, restartDue := true, live := none }
  if s.currentConn = some conn then
    { s with currentConn := none, held := Function.update s.held conn (s.held conn - 1) }
  else s

def applied (s : State) : Effect → State
  | .streamActive on => { s with streamActive := on }
  | .scheduleClearbond => { s with clearbondDue := true }
  | _ => s

/-- `clearbond_work_fn`, behind `bt_unpair`. -/
def clearbond (s : State) : State :=
  let s := { s with clearbondDue := false }
  if s.currentConn.isSome then
    { s with live := s.live.map fun peer => { peer with closing := true } }
  else s

/-- One turn of the status loop, as far as the link is concerned. -/
def statusTick (result : AdvStart) (s : State) : State :=
  let t := if s.tick.toNat % 10 = 0 then s.ensureAdvertising result else s
  { t with tick := s.tick + 1 }

end State

def boot : State where
  currentConn := none
  streamActive := false
  clearbondDue := false
  restartDue := false
  tick := 0
  held _ := 0
  live := none
  advertising := false

/-- The outcomes that the host gives: an advertiser is started only when there is none. -/
def AdvStart.Possible (s : State) : AdvStart → Prop
  | .started => s.advertising = false
  | .already => s.advertising = true
  | .failed => True

/-- The host connects one peer at a time, and lets only an authenticated one write. -/
inductive Step (s : State) : Act → State → Prop where
  | connected {conn : Conn} {accepted : Bool} : s.live = none →
      Step s (.connected conn accepted) (s.connected conn accepted)
  | connectFailed : s.live = none → Step s .connectFailed { s with advertising := false }
  | securityChanged {level : ℕ} {failed : Bool} {peer : Peer} : s.live = some peer →
      Step s (.securityChanged level failed) (s.securityChanged level failed peer)
  | disconnected {peer : Peer} : s.live = some peer →
      Step s .disconnected (s.disconnected peer.conn)
  | nusReceived {data : List UInt8} {slave : Slave.State} {peer : Peer} : s.live = some peer →
      securityL3 ≤ peer.level →
      Step s (.nusReceived data slave) ((Ble.nusReceived data slave).2.foldl State.applied s)
  | advRestart {result : AdvStart} : s.restartDue = true → result.Possible s →
      Step s (.advRestart result) { s.ensureAdvertising result with restartDue := false }
  | statusTick {result : AdvStart} : result.Possible s →
      Step s (.statusTick result) (s.statusTick result)
  | clearbond : s.clearbondDue = true → Step s .clearbond s.clearbond

abbrev Run := Labelled.Run Step

/-! The link. -/

/-- Kept or being closed, or still on its way to the level it is held to. -/
def Peer.Secured (peer : Peer) : Prop :=
  peer.closing = true ∨ peer.pairing = true ∨ securityL3 ≤ peer.level

structure Kept (s : State) : Prop where
  pointer : s.currentConn = s.live.map Peer.conn
  held : ∀ conn, s.held conn = if s.currentConn = some conn then 1 else 0
  stream : s.streamActive = true → s.live.isSome = true
  secured : ∀ peer ∈ s.live, peer.Secured
  apart : s.advertising = true → s.live = none

theorem kept_boot : Kept boot := by
  refine ⟨rfl, fun _ => rfl, fun on => ?_, fun peer member => ?_, fun _ => rfl⟩
  · contradiction
  · contradiction

/-- Effects change neither the connection nor the advertiser. -/
theorem applied_link (effects : List Effect) (s : State) :
    let t := effects.foldl State.applied s
    t.currentConn = s.currentConn ∧ t.held = s.held ∧ t.live = s.live ∧
      t.advertising = s.advertising ∧ t.tick = s.tick := by
  induction effects generalizing s with
  | nil => exact ⟨rfl, rfl, rfl, rfl, rfl⟩
  | cons effect rest ih =>
    have first : (s.applied effect).currentConn = s.currentConn ∧ (s.applied effect).held = s.held ∧
        (s.applied effect).live = s.live ∧ (s.applied effect).advertising = s.advertising ∧
        (s.applied effect).tick = s.tick := by
      cases effect <;> exact ⟨rfl, rfl, rfl, rfl, rfl⟩
    obtain ⟨conn, held, live, adv, tick⟩ := ih (s.applied effect)
    rw [List.foldl_cons]
    exact ⟨conn.trans first.1, held.trans first.2.1, live.trans first.2.2.1,
      adv.trans first.2.2.2.1, tick.trans first.2.2.2.2⟩

theorem Kept.connected {s : State} (kept : Kept s) (alone : s.live = none) (conn : Conn)
    (accepted : Bool) : Kept (s.connected conn accepted) := by
  have free : s.currentConn = none := by
    rw [kept.pointer, alone]
    rfl
  refine ⟨rfl, fun other => ?_, fun _ => rfl, fun peer member => ?_, fun on => ?_⟩
  · have before := kept.held other
    rw [free, if_neg (by simp)] at before
    change Function.update s.held conn (s.held conn + 1) other =
      if some conn = some other then 1 else 0
    by_cases same : other = conn
    · subst same
      rw [Function.update_self, before, if_pos rfl]
    · rw [Function.update_of_ne same, before, if_neg fun equal => same (Option.some.inj equal).symm]
  · obtain rfl := Option.some.inj member
    cases accepted with
    | true => exact .inr (.inl rfl)
    | false => exact .inl rfl
  · contradiction

theorem Kept.disconnected {s : State} (kept : Kept s) {peer : Peer}
    (connected : s.live = some peer) : Kept (s.disconnected peer.conn) := by
  have pointer : s.currentConn = some peer.conn := by
    rw [kept.pointer, connected]
    rfl
  have gone : s.disconnected peer.conn = { s with
      streamActive := false
      restartDue := true
      live := none
      currentConn := none
      held := Function.update s.held peer.conn (s.held peer.conn - 1) } := if_pos pointer
  rw [gone]
  refine ⟨rfl, fun other => ?_, fun on => ?_, fun peer member => ?_, fun _ => rfl⟩
  · have before := kept.held other
    rw [pointer] at before
    change Function.update s.held peer.conn (s.held peer.conn - 1) other =
      if none = some other then 1 else 0
    rw [if_neg (by simp)]
    by_cases same : other = peer.conn
    · subst same
      rw [Function.update_self, before, if_pos rfl]
    · rw [Function.update_of_ne same, before,
        if_neg fun equal => same (Option.some.inj equal).symm]
  · contradiction
  · contradiction

/-- An advertiser starts only while the firmware knows of no connection. -/
theorem Kept.ensureAdvertising {s : State} (kept : Kept s) (result : AdvStart) :
    Kept (s.ensureAdvertising result) := by
  unfold State.ensureAdvertising
  split
  · rename_i free
    have alone : s.live = none := by
      have pointer := kept.pointer
      rw [free] at pointer
      exact Option.map_eq_none_iff.mp pointer.symm
    cases result with
    | started => exact ⟨kept.pointer, kept.held, kept.stream, kept.secured, fun _ => alone⟩
    | already => exact kept
    | failed => exact kept
  · exact kept

theorem Kept.securityChanged {s : State} (kept : Kept s) {peer : Peer}
    (connected : s.live = some peer) (level : ℕ) (failed : Bool) :
    Kept (s.securityChanged level failed peer) := by
  refine ⟨?_, kept.held, fun _ => rfl, fun other member => ?_, fun on => ?_⟩
  · have pointer := kept.pointer
    rw [connected] at pointer
    exact pointer
  · obtain rfl := Option.some.inj member
    by_cases refused : failed ∨ level < securityL3
    · left
      change (peer.closing || decide (failed ∨ level < securityL3)) = true
      rw [decide_eq_true refused, Bool.or_true]
    · exact .inr (.inr (Nat.le_of_not_lt (not_or.mp refused).2))
  · have none := kept.apart on
    rw [connected] at none
    contradiction

theorem Kept.clearbond {s : State} (kept : Kept s) : Kept s.clearbond := by
  unfold State.clearbond
  dsimp only
  split
  · refine ⟨?_, kept.held, fun on => ?_, fun peer member => ?_, fun on => ?_⟩
    · rw [Option.map_map]
      exact kept.pointer
    · rw [Option.isSome_map]
      exact kept.stream on
    · obtain ⟨before, _, rfl⟩ := Option.map_eq_some_iff.mp member
      exact .inl rfl
    · rw [kept.apart on]
      rfl
  · exact ⟨kept.pointer, kept.held, kept.stream, kept.secured, kept.apart⟩

theorem kept_step {s t : State} {a : Act} (step : Step s a t) (kept : Kept s) : Kept t := by
  cases step with
  | connected alone => exact kept.connected alone _ _
  | connectFailed alone =>
    exact ⟨kept.pointer, kept.held, kept.stream, kept.secured, fun _ => alone⟩
  | securityChanged connected => exact kept.securityChanged connected _ _
  | disconnected connected => exact kept.disconnected connected
  | @nusReceived data slave peer connected authenticated =>
    obtain ⟨conn, held, live, advertising, _⟩ := applied_link (Ble.nusReceived data slave).2 s
    refine ⟨?_, fun other => ?_, fun _ => ?_, ?_, ?_⟩
    · rw [conn, live]
      exact kept.pointer
    · rw [conn, held]
      exact kept.held other
    · rw [live, connected]
      rfl
    · rw [live]
      exact kept.secured
    · rw [live, advertising]
      exact kept.apart
  | @advRestart result =>
    have ensured := kept.ensureAdvertising result
    exact ⟨ensured.pointer, ensured.held, ensured.stream, ensured.secured, ensured.apart⟩
  | @statusTick result =>
    unfold State.statusTick
    dsimp only
    split
    · have ensured := kept.ensureAdvertising result
      exact ⟨ensured.pointer, ensured.held, ensured.stream, ensured.secured, ensured.apart⟩
    · exact ⟨kept.pointer, kept.held, kept.stream, kept.secured, kept.apart⟩
  | clearbond due => exact kept.clearbond

/-- The firmware's pointer and its one reference are for the connection there is, streaming
ends with it, and a connection below the level asked for is being closed. -/
theorem link_kept {acts : List Act} {s : State} (run : Run boot acts s) :
    s.currentConn = s.live.map Peer.conn ∧
      (∀ conn, s.held conn = if s.currentConn = some conn then 1 else 0) ∧
      (s.streamActive = true → s.live.isSome = true) ∧
      (∀ peer ∈ s.live, peer.closing = true ∨ peer.pairing = true ∨ securityL3 ≤ peer.level) ∧
      (s.advertising = true → s.live = none) := by
  have kept := run.invariant Kept kept_step kept_boot
  exact ⟨kept.pointer, kept.held, kept.stream, kept.secured, kept.apart⟩

theorem link_kept_streaming : ∃ s : State, s.streamActive = true ∧ s.live.isSome = true := by
  have run : ∃ s, s.streamActive = true ∧ Run boot [.connected 1 true, .securityChanged 3 false,
      .nusReceived (Wire.ascii "stream") flexitSlaveInit] s :=
    ⟨_, rfl, .next (.connected rfl) (.next (.securityChanged rfl)
      (.next (.nusReceived rfl (Nat.le_refl _)) (.refl _)))⟩
  obtain ⟨s, on, run⟩ := run
  exact ⟨s, on, (link_kept run).2.2.1 on⟩

/-! The ways back to advertising. -/

/-- The host accepts no connection, and refuses no advertising to the status loop. -/
def Free (_ : State) : Act → Prop
  | .connected _ _ | .connectFailed => False
  | .statusTick result => result ≠ .failed
  | _ => True

def ticks (acts : List Act) : ℕ :=
  acts.countP fun a => match a with
    | .statusTick _ => true
    | _ => false

/-- Advertising, or no turn of the loop so far was one that looks after it. -/
structure Waits (start : UInt32) (past : List Act) (s : State) : Prop where
  alone : s.live = none
  free : s.currentConn = none
  tick : s.tick = start + UInt32.ofNat (ticks past)
  shown : s.advertising = true ∨ ∀ k < ticks past, (start + UInt32.ofNat k).toNat % 10 ≠ 0

theorem ticks_concat (past : List Act) (a : Act) :
    ticks (past ++ [a]) = ticks past + if a matches .statusTick _ then 1 else 0 := by
  unfold ticks
  rw [List.countP_append, List.countP_singleton]

/-- What does not touch the connection, the tick or the advertiser. -/
theorem Waits.same {start : UInt32} {past : List Act} {s t : State} {a : Act}
    (waits : Waits start past s) (other : (a matches .statusTick _) = false)
    (live : t.live = s.live) (conn : t.currentConn = s.currentConn) (tick : t.tick = s.tick)
    (advertising : s.advertising = true → t.advertising = true) : Waits start (past ++ [a]) t := by
  have count : ticks (past ++ [a]) = ticks past := by
    rw [ticks_concat, other]
    rfl
  refine ⟨live.trans waits.alone, conn.trans waits.free, ?_, ?_⟩
  · rw [tick, count]
    exact waits.tick
  · rw [count]
    exact waits.shown.imp_left advertising

theorem ensureAdvertising_same (result : AdvStart) (s : State) :
    (s.ensureAdvertising result).live = s.live ∧
      (s.ensureAdvertising result).currentConn = s.currentConn ∧
      (s.ensureAdvertising result).tick = s.tick ∧
      (s.advertising = true → (s.ensureAdvertising result).advertising = true) := by
  unfold State.ensureAdvertising
  split
  · cases result with
    | started => exact ⟨rfl, rfl, rfl, fun _ => rfl⟩
    | already => exact ⟨rfl, rfl, rfl, id⟩
    | failed => exact ⟨rfl, rfl, rfl, id⟩
  · exact ⟨rfl, rfl, rfl, id⟩

theorem Waits.turn {start : UInt32} {past : List Act} {s : State} (waits : Waits start past s)
    {result : AdvStart} (possible : result.Possible s) (granted : result ≠ .failed) :
    Waits start (past ++ [.statusTick result]) (s.statusTick result) := by
  obtain ⟨live, conn, _, still⟩ := ensureAdvertising_same result s
  have count : ticks (past ++ [.statusTick result]) = ticks past + 1 := ticks_concat past _
  have next : (s.statusTick result).tick = start + UInt32.ofNat (ticks past + 1) := by
    change s.tick + 1 = _
    rw [waits.tick, UInt32.add_assoc, UInt32.ofNat_add]
    rfl
  by_cases due : s.tick.toNat % 10 = 0
  · have same : s.statusTick result = { s.ensureAdvertising result with tick := s.tick + 1 } := by
      rw [State.statusTick, if_pos due]
    have on : (s.ensureAdvertising result).advertising = true := by
      rw [State.ensureAdvertising, if_pos waits.free]
      cases result with
      | started => rfl
      | already => exact possible
      | failed => contradiction
    rw [count.symm] at next
    refine ⟨?_, ?_, next, .inl ?_⟩
    · rw [same]
      exact live.trans waits.alone
    · rw [same]
      exact conn.trans waits.free
    · rw [same]
      exact on
  · have same : s.statusTick result = { s with tick := s.tick + 1 } := by
      rw [State.statusTick, if_neg due]
    rw [count.symm] at next
    refine ⟨?_, ?_, next, ?_⟩
    · rw [same]
      exact waits.alone
    · rw [same]
      exact waits.free
    · rw [same, count]
      refine waits.shown.imp_right fun missed k before => ?_
      rcases Nat.lt_succ_iff_lt_or_eq.mp before with earlier | rfl
      · exact missed k earlier
      · rw [← waits.tick]
        exact due

theorem waits_step {start : UInt32} {past : List Act} {s t : State} {a : Act}
    (step : Guarded Free Step s a t) (waits : Waits start past s) :
    Waits start (past ++ [a]) t := by
  obtain ⟨free, step⟩ := step
  have alone : ∀ peer, s.live ≠ some peer := by
    intro peer
    rw [waits.alone]
    simp
  cases step with
  | connected => contradiction
  | connectFailed => contradiction
  | securityChanged connected => exact absurd connected (alone _)
  | disconnected connected => exact absurd connected (alone _)
  | nusReceived connected => exact absurd connected (alone _)
  | @advRestart result =>
    obtain ⟨live, conn, tick, still⟩ := ensureAdvertising_same result s
    exact waits.same rfl live conn tick still
  | statusTick possible => exact waits.turn possible free
  | clearbond =>
    have same : s.clearbond = { s with clearbondDue := false } := if_neg (by simp [waits.free])
    rw [same]
    exact waits.same rfl rfl rfl rfl id

/-- A device that no peer is connected to advertises after ten turns of its status loop,
however its advertising was lost. -/
theorem advertises_again {before acts : List Act} {s t : State} (reached : Run boot before s)
    (alone : s.live = none) (run : Labelled.Run (Guarded Free Step) s acts t)
    (ten : 10 ≤ ticks acts) : t.advertising = true := by
  have kept := reached.invariant Kept kept_step kept_boot
  have start : Waits s.tick [] s := by
    refine ⟨alone, ?_, ?_, .inr fun k none => absurd none (Nat.not_lt_zero k)⟩
    · rw [kept.pointer, alone]
      rfl
    · exact (UInt32.add_zero s.tick).symm
  have waits := run.history (Waits s.tick) waits_step [] start
  rcases waits.shown with shown | missed
  · exact shown
  · have some : 0 < 10 := by decide
    obtain ⟨k, soon, due⟩ := Blink.tick_within s.tick some
    exact absurd due (missed k (Nat.lt_of_lt_of_le soon ten))

/-- A second after the start. -/
theorem advertises_again_boot : ∃ t : State, t.tick = 10 ∧ t.advertising = true := by
  have run : ∃ t, t.tick = 10 ∧ Labelled.Run (Guarded Free Step) boot
      (.statusTick .started :: List.replicate 9 (.statusTick .already)) t := by
    refine ⟨_, ?_, .next ⟨by simp [Free], .statusTick rfl⟩
      (.next ⟨by simp [Free], .statusTick rfl⟩ (.next ⟨by simp [Free], .statusTick rfl⟩
      (.next ⟨by simp [Free], .statusTick rfl⟩ (.next ⟨by simp [Free], .statusTick rfl⟩
      (.next ⟨by simp [Free], .statusTick rfl⟩ (.next ⟨by simp [Free], .statusTick rfl⟩
      (.next ⟨by simp [Free], .statusTick rfl⟩ (.next ⟨by simp [Free], .statusTick rfl⟩
      (.next ⟨by simp [Free], .statusTick rfl⟩ (.refl _))))))))))⟩
    rfl
  obtain ⟨t, tick, run⟩ := run
  exact ⟨t, tick, advertises_again (.refl _) rfl run (by decide)⟩

end FlexitCs60.Ble.Link
