import FlexitCs60.Ble.Mode
import FlexitCs60.Bridge.Controls
import FlexitCs60.Device
import FlexitCs60.Slave.Agreement
import Mathlib.Algebra.Order.Round

/-! The commands of all clients, on Zigbee and on BLE, on their way to the CS60 and back:
the last one wins, whoever gave it, and is what every Zigbee client then reads. -/
namespace FlexitCs60.Device.Clients
open Wire Framing Slave
open Ble (argument startsWith)
open Mirror (Uptime statusBlocks)
open Slave.Commands (Slot)
open Zigbee (Control)
open Slave.Cycle (System Inv ofSlot)

inductive Act where
  /-- A Zigbee client writes `FanMode`. -/
  | fanMode (fanMode : UInt8)
  /-- `handle_setpoint_write` with the value the stack has stored. -/
  | setpoint (valueDc : SetpointValue)
  | payload (data : List UInt8)
  /-- The mirror, the bridge, a tick, or the store of a setpoint. -/
  | bridge (act : Bridge.Act)
  /-- The CS60 does something. -/
  | bus (act : Cycle.Act)

structure State where
  bridge : Bridge.State
  cycle : System

def boot (cells : Vector UInt8 accumSize) : State := ⟨Bridge.boot, Cycle.boot cells⟩

def State.zigbee (s : State) : Zigbee.State := s.bridge.gateway.zigbee

instance (data : List UInt8) : Decidable (Ble.Refuses data) :=
  inferInstanceAs (Decidable (_ ∨ _))

/-- What a payload commands, as the firmware reads it. -/
def payloadCommand? (data : List UInt8) : Option (Slot × UInt16) :=
  if startsWith "mode" data then
    if Ble.Refuses data then none else some (.mode, .ofNat (Ble.parsedMode data))
  else if startsWith "setpoint" data ∧ isDigit ((argument 8 data).getD 0 0) then
    some (.setpoint, .ofNat (Ble.clampTenths (Ble.parseTenths (argument 8 data))))
  else none

/-- A command is a mode, or a setpoint in tenths of a degree. -/
def Act.command? : Act → Option (Slot × UInt16)
  | .fanMode v => if v ≤ 3 then some (.mode, v.toUInt16) else none
  | .setpoint v => some (.setpoint, .ofNat (max 100 (min 300 (round v.val))).toNat)
  | .payload data => payloadCommand? data
  | .bridge _ | .bus _ => none

def Act.bus? : Act → Option Cycle.Act
  | .bus act => some act
  | _ => none

/-- What an action is to the mirror, the bridge and the Zigbee threads. -/
def Act.bridge? : Act → Option Bridge.Act
  | .fanMode v => some (.gateway (.zigbee (.writeFanMode v)))
  | .setpoint _ => some (.gateway (.zigbee .handleSetpointWrite))
  | .bridge act => some act
  | .payload _ | .bus _ => none

def commands (events : List (Uptime × Act)) : List (Slot × UInt16) :=
  events.filterMap fun e => e.2.command?

/-- The slot that commands of a control go to. -/
def slotOf : Control → Slot
  | .fanMode => .mode
  | .setpoint => .setpoint

/-- What a control shows for a command. -/
def ofWord : (c : Control) → UInt16 → c.Value
  | .fanMode, word => word.toUInt8
  | .setpoint, word => (word.toNat : ℚ)

/-- The handler of a client's action runs, and its command is noted. -/
def handled (a : Act) (handler : Slave.State → Slave.State) (s : System) : System :=
  { s with
    slave := (s.slave.1, { s.slave.2 with state := handler s.state })
    queued := s.queued ++ a.command?.toList }

/-- Not one of the steps that run a write handler. -/
def Unhandled (act : Bridge.Act) : Prop :=
  act ≠ .gateway (.zigbee .handleSetpointWrite) ∧ ∀ v, act ≠ .gateway (.zigbee (.writeFanMode v))

section
variable [Zephyr]

inductive Step (env : Env) (t : Uptime) (s : State) : Act → State → Prop where
  | fanMode (v : UInt8) {b : Bridge.State} :
      Bridge.Step t s.bridge (.gateway (.zigbee (.writeFanMode v))) b →
      Step env t s (.fanMode v) ⟨b, handled (.fanMode v) (Bridge.fanModeWrite v) s.cycle⟩
  | setpoint (v : SetpointValue) {b : Bridge.State} : s.zigbee.zboss = .written v →
      Bridge.Step t s.bridge (.gateway (.zigbee .handleSetpointWrite)) b →
      Step env t s (.setpoint v) ⟨b, handled (.setpoint v) (fun slave =>
        (Bridge.setpointWrite (Gateway.uptimeMs t) v s.zigbee.pending slave).2) s.cycle⟩
  | payload (data : List UInt8) : Step env t s (.payload data)
      { s with
        cycle := handled (.payload data) (fun slave => (Ble.nusReceived data slave).1) s.cycle }
  | bridge {act : Bridge.Act} {b : Bridge.State} : Unhandled act → Bridge.Step t s.bridge act b →
      Step env t s (.bridge act) { s with bridge := b }
  | bus {act : Cycle.Act} {c : System} : act.OfCs60 → Cycle.Step env s.cycle act c →
      Step env t s (.bus act) { s with cycle := c }

/-- No mode is commanded between its read and its acknowledgement, and the read of a
setpoint is answered. -/
def Clean (env : Env) (s : State) : Act → Prop
  | .bus act => Cycle.Clean env s.cycle act
  | a => (∃ value, a.command? = some (.mode, value)) → s.cycle.cs60.due = none

/-- Nothing is commanded and the responses to the CS60 are transmitted. -/
def Calm (env : Env) (s : State) : Act → Prop
  | .bus act => Cycle.Calm env s.cycle act
  | a => a.command? = none

/-- Runs all of whose steps meet a condition on the state before them. -/
abbrev Run (env : Env) (meets : State → Act → Prop) :=
  Timed.Run fun t s a s' => meets s a ∧ Step env t s a s'

end

/-! Every handler queues its command and does nothing else to the slave. -/

def queue : Option (Slot × UInt16) → Slave.State → Slave.State
  | some (.mode, mode), s => (flexitSlaveQueueMode mode s).2
  | some (.setpoint, valueX10), s => (flexitSlaveQueueSetpoint valueX10 s).2
  | none, s => s

theorem fanModeWrite_queues (fanMode : UInt8) (s : Slave.State) :
    Bridge.fanModeWrite fanMode s = queue (Act.fanMode fanMode).command? s := by
  rw [Bridge.fanModeWrite, Zigbee.handleFanModeWrite, Act.command?]
  by_cases small : fanMode ≤ 3
  · rw [if_neg (UInt8.not_lt.mpr small), if_pos small]
    rfl
  · rw [if_pos (UInt8.not_le.mp small), if_neg small]
    rfl

/-- Away from zero or up is the same, but below zero, where it is clamped. -/
theorem clamp_round (v : ℚ) :
    max 100 (min 300 (Zigbee.truncate (v + if v ≥ 0 then 1 / 2 else -1 / 2))) =
      max 100 (min 300 (round v)) := by
  by_cases positive : 0 ≤ v
  · have half : (0 : ℚ) ≤ v + 1 / 2 := by linarith
    rw [if_pos positive, Zigbee.truncate, if_pos half, round_eq]
  · have below : v < 0 := lt_of_not_ge positive
    have half : ¬ 0 ≤ v + -1 / 2 := by linarith
    have down : ⌈v + -1 / 2⌉ ≤ 0 := Int.ceil_le.mpr (by push_cast; linarith)
    have rounded : round v ≤ 0 := by
      rw [round_eq]
      exact Int.lt_add_one_iff.mp (Int.floor_lt.mpr (by push_cast; linarith))
    rw [if_neg positive, Zigbee.truncate, if_neg half]
    omega

theorem setpointWrite_queues (uptime : ℤ) (v : SetpointValue) (p : Zigbee.Pending)
    (s : Slave.State) : (Bridge.setpointWrite uptime v p s).2 =
      queue (Act.setpoint v).command? s := by
  have word := Bridge.setpoint_word
    (Zigbee.truncate (v.val + if v.val ≥ 0 then 1 / 2 else -1 / 2))
  rw [clamp_round] at word
  have same : (Int16.ofInt (Zigbee.clampSetpoint (Zigbee.truncate
      (v.val + if v.val ≥ 0 then 1 / 2 else -1 / 2)))).toUInt16 =
        UInt16.ofNat (max 100 (min 300 (round v.val))).toNat := by
    apply UInt16.toNat_inj.mp
    rw [UInt16.toNat_ofNat']
    omega
  change (flexitSlaveQueueSetpoint _ s).2 = (flexitSlaveQueueSetpoint _ s).2
  rw [← same]

theorem nusReceived_setpoint {data : List UInt8} (command : startsWith "setpoint" data = true)
    (s : Slave.State) : Ble.nusReceived data s = Ble.setpointCommand data s := by
  have word : data.take 8 = ascii "setpoint" := of_decide_eq_true command
  obtain ⟨rest, rfl⟩ : ∃ rest, data = ascii "setpoint" ++ rest :=
    ⟨data.drop 8, by rw [← word, List.take_append_drop]⟩
  rw [Ble.nusReceived]
  simp [startsWith, ascii]

theorem nusReceived_queues (data : List UInt8) (s : Slave.State) :
    (Ble.nusReceived data s).1 = queue (payloadCommand? data) s := by
  unfold payloadCommand?
  split
  · rename_i command
    rw [Ble.nusReceived_mode command]
    split
    · rename_i refuses
      rw [Ble.modeCommand_refuses refuses]
      rfl
    · rename_i queues
      rw [Ble.modeCommand_queues queues]
      rfl
  · rename_i other
    split
    · rename_i command
      rw [nusReceived_setpoint command.1, Ble.setpointCommand, if_pos command.2]
      rfl
    · rename_i none
      rw [Ble.nusReceived]
      iterate 6
        split
        · rfl
      split
      · rename_i command
        have digit := fun digit => none ⟨command, digit⟩
        rw [Ble.setpointCommand, if_neg digit]
        rfl
      · rfl

theorem command_mode_small {a : Act} {mode : UInt16} (command : a.command? = some (.mode, mode)) :
    ¬ mode > 3 := by
  cases a with
  | fanMode v =>
    obtain ⟨small, same⟩ := Option.ite_none_right_eq_some.mp command
    obtain rfl := congrArg Prod.snd (Option.some.inj same)
    exact UInt16.not_lt.mpr (UInt8.toUInt16_le.mpr small)
  | setpoint v => simp [Act.command?] at command
  | payload data =>
    simp only [Act.command?, payloadCommand?] at command
    split at command
    · split at command
      · contradiction
      · rename_i queues
        obtain rfl := congrArg Prod.snd (Option.some.inj command)
        dsimp only
        rw [Ble.toNat_le_three]
        exact (not_or.mp queues).2
    · split at command
      · simp at command
      · contradiction
  | bridge act => contradiction
  | bus act => contradiction

/-! The slave and the CS60 agree about the commands. -/

theorem inv_handled {a : Act} {handler : Slave.State → Slave.State} {s : System} (inv : Inv s)
    (queues : ∀ slave, handler slave = queue a.command? slave)
    (free : (∃ value, a.command? = some (.mode, value)) → s.cs60.due = none) :
    Inv (handled a handler s) := by
  rw [handled, queues s.state]
  cases command : a.command? with
  | none =>
    rw [Option.toList_none, List.append_nil]
    exact inv
  | some c =>
    obtain ⟨slot, value⟩ := c
    cases slot with
    | mode =>
      rw [queue, flexitSlaveQueueMode, if_neg (command_mode_small command)]
      exact inv.queued .mode rfl rfl rfl fun _ => free ⟨value, command⟩
    | setpoint => exact inv.queued .setpoint rfl rfl rfl fun same => by contradiction

section
variable [Zephyr]

theorem clients_step {env : Env} {past : List (Uptime × Act)} {t : Uptime} {s s' : State} {a : Act}
    (clean : Clean env s a) (step : Step env t s a s')
    (held : Inv s.cycle ∧ s.cycle.queued = commands past) :
    Inv s'.cycle ∧ s'.cycle.queued = commands (past ++ [(t, a)]) := by
  obtain ⟨inv, queued⟩ := held
  have noted : commands (past ++ [(t, a)]) = s.cycle.queued ++ a.command?.toList := by
    rw [commands, List.filterMap_append, queued]
    cases command : a.command? <;> simp [commands, command]
  cases step with
  | fanMode v step => exact ⟨inv_handled inv (fanModeWrite_queues v) clean, noted.symm⟩
  | setpoint v written step =>
    exact ⟨inv_handled inv (setpointWrite_queues _ v s.zigbee.pending) clean, noted.symm⟩
  | payload data => exact ⟨inv_handled inv (nusReceived_queues data) clean, noted.symm⟩
  | bridge unhandled step =>
    rw [noted]
    exact ⟨inv, (List.append_nil _).symm⟩
  | bus ofCs60 step =>
    rw [noted]
    refine ⟨Cycle.inv_step ⟨clean, step⟩ inv, (Cycle.unqueued ofCs60 step).trans ?_⟩
    exact (List.append_nil _).symm

theorem clients_run {env : Env} {cells : Vector UInt8 accumSize} {events : List (Uptime × Act)}
    {x : Uptime × State} (run : Run env (Clean env) (Uptime.boot, boot cells) events x) :
    Inv x.2.cycle ∧ x.2.cycle.queued = commands events :=
  run.history (fun past z => Inv z.2.cycle ∧ z.2.cycle.queued = commands past)
    (fun _ step held => clients_step step.1 step.2 held) [] ⟨Cycle.inv_boot cells, rfl⟩

/-- While nothing is commanded, only the CS60 changes anything of the cycle. -/
theorem calm_run {env : Env} {x y : Uptime × State} {events : List (Uptime × Act)}
    (run : Run env (Calm env) x events y) :
    Labelled.Run (Labelled.Guarded (Cycle.Calm env) (Cycle.Step env)) x.2.cycle
      (events.filterMap fun e => e.2.bus?) y.2.cycle := by
  refine run.untimed State.cycle Act.bus? ?_
  rintro t s a s' ⟨calm, step⟩
  have silent {a : Act} {handler : Slave.State → Slave.State} (none : a.command? = none)
      (queues : ∀ slave, handler slave = queue a.command? slave) :
      handled a handler s.cycle = s.cycle := by
    rw [handled, queues, none, Option.toList_none, List.append_nil]
    rfl
  cases step with
  | fanMode v step => exact silent calm (fanModeWrite_queues v)
  | setpoint v written step =>
    exact silent calm (setpointWrite_queues _ v s.zigbee.pending)
  | payload data => exact silent calm (nusReceived_queues data)
  | bridge unhandled step => rfl
  | bus ofCs60 step => exact ⟨calm, step⟩

/-- A run of all is a run of the mirror, the bridge and the Zigbee threads. -/
theorem bridge_run {env : Env} {meets : State → Act → Prop} {x y : Uptime × State}
    {events : List (Uptime × Act)} (run : Run env meets x events y) {now : Uptime}
    (ordered : now ≤ x.1) : ∃ later ≤ y.1, Bridge.Run (now, x.2.bridge)
      (events.filterMap fun e => e.2.bridge?.map (e.1, ·)) (later, y.2.bridge) := by
  refine run.project State.bridge Act.bridge? monotone_id ?_ ordered
  rintro t s a s' ⟨_, step⟩
  cases step with
  | fanMode v step => exact step
  | setpoint v written step => exact step
  | payload data => rfl
  | bridge unhandled step => exact step
  | bus ofCs60 step => rfl

theorem delivered_commands {env : Env} {cells : Vector UInt8 accumSize}
    {before during : List (Uptime × Act)} {x y : Uptime × State}
    (reached : Run env (Clean env) (Uptime.boot, boot cells) before x)
    (cycle : Run env (Calm env) x during y) (polled : ∃ t, (t, .bus .poll) ∈ during)
    (idle : y.2.cycle.cs60 = .idle) : Inv y.2.cycle ∧ ∀ slot, y.2.cycle.coil slot = false ∧
      (ofSlot slot y.2.cycle.adopted).getLast? = (ofSlot slot (commands before)).getLast? := by
  obtain ⟨inv, queued⟩ := clients_run reached
  obtain ⟨t, polled⟩ := polled
  have poll : Cycle.Act.poll ∈ during.filterMap fun e => e.2.bus? :=
    List.mem_filterMap.mpr ⟨_, polled, rfl⟩
  rw [← queued]
  exact inv.delivers (calm_run cycle) poll idle

/-- From any mixture of clients to the CS60: what it takes over of a slot was commanded,
in order and once each; after a calm cycle that polled it has the last command of each slot,
whoever gave it, and the slave knows the mode. -/
theorem last_command_wins (env : Env) (cells : Vector UInt8 accumSize)
    {before during : List (Uptime × Act)} {x y : Uptime × State}
    (reached : Run env (Clean env) (Uptime.boot, boot cells) before x)
    (cycle : Run env (Calm env) x during y) (polled : ∃ t, (t, .bus .poll) ∈ during)
    (idle : y.2.cycle.cs60 = .idle) :
    (∀ slot, (ofSlot slot x.2.cycle.adopted).Sublist (ofSlot slot (commands before))) ∧
      (∀ slot, y.2.cycle.coil slot = false ∧
        (ofSlot slot y.2.cycle.adopted).getLast? = (ofSlot slot (commands before)).getLast?) ∧
      y.2.cycle.state.lastAckedMode =
        (ofSlot .mode (commands before)).getLast?.getD sentinelNone := by
  obtain ⟨inv, queued⟩ := clients_run reached
  obtain ⟨last, delivered⟩ := delivered_commands reached cycle polled idle
  refine ⟨fun slot => ?_, delivered, ?_⟩
  · rw [← queued]
    exact (inv.agrees slot).inOrder
  · rw [last.acked (by rw [idle]; rfl), (delivered .mode).2]

/-- There and back, for a CS60 whose status block reports what it has taken over: after a
calm cycle, the bridge's call for a control and a whole tick, the attribute of the control
shows the last command for it, whoever gave it. -/
theorem command_reads_back (env : Env) (cells : Vector UInt8 accumSize)
    {before during : List (Uptime × Act)} {x y : Uptime × State}
    (reached : Run env (Clean env) (Uptime.boot, boot cells) before x)
    (cycle : Run env (Calm env) x during y) (polled : ∃ t, (t, .bus .poll) ∈ during)
    (idle : y.2.cycle.cs60 = .idle) {arrived : Uptime} {frame : List UInt8}
    (latest : (statusBlocks y.2.bridge.arrivals).getLast? = some (arrived, frame)) {c : Control}
    (reports : ∀ word, (ofSlot (slotOf c) y.2.cycle.adopted).getLast? = some word →
      Bridge.blockControl? frame c = some (ofWord c word))
    {pushed t copied now : Uptime} {earlier first behind last : List (Uptime × Bridge.Act)}
    {up : Bool} {m z : Uptime × Bridge.State}
    (execution : Bridge.Run (y.1, y.2.bridge) ((pushed, .work) :: earlier) m)
    {call : Zigbee.Setter} (sets : call.control? c ≠ none)
    (free : c = .setpoint → m.2.gateway.zigbee.pending.setpointHoldUntil ≤ Gateway.uptimeMs t)
    (later : Bridge.Run m ((t, .call call) :: Bridge.throughTick first copied behind now up last) z)
    (unwritten : ∀ e ∈ Bridge.throughTick first copied behind now up last, e.2.written? c = none)
    (quiet : ∃ idle, z.2.executions = y.2.bridge.work.executions ++ idle ∧
      ∀ n ∈ idle, n.calls = []) :
    ∀ word, (ofSlot (slotOf c) (commands before)).getLast? = some word →
      z.2.gateway.zigbee.published.attrs.control c = ofWord c word := by
  intro word command
  obtain ⟨v, sets⟩ := Option.ne_none_iff_exists'.mp sets
  obtain ⟨first, inside, there⟩ := bridge_run reached (le_refl _)
  obtain ⟨second, bound, back⟩ := bridge_run cycle inside
  have adopted := ((delivered_commands reached cycle polled idle).2 (slotOf c)).2
  have said := reports word (adopted.trans command)
  cases execution with
  | next ordered step rest =>
    obtain ⟨same, shown⟩ := Bridge.call_settles (there.trans back) latest
      (.next (bound.trans ordered) step rest) sets free later unwritten quiet
    rw [shown]
    exact Option.some.inj (same.symm.trans said)

/-- The CS60's actions alone. -/
theorem bus_run {env : Env} {c d : System} {acts : List Cycle.Act}
    (run : Labelled.Run (Labelled.Guarded (Cycle.Calm env) (Cycle.Step env)) c acts d)
    (t : Uptime) (b : Bridge.State) : Run env (Calm env) (t, ⟨b, c⟩)
      (acts.map fun act => (t, .bus act)) (t, ⟨b, d⟩) := by
  induction run with
  | refl => exact .refl _
  | next head _ ih =>
    exact .next (le_refl t) ⟨head.1, .bus (Cycle.ofCs60_of_calm head.1) head.2⟩ ih

/-- Steps of the bridge alone. -/
theorem unhandled_run {env : Env} {x y : Uptime × Bridge.State}
    {events : List (Uptime × Bridge.Act)} (run : Bridge.Run x events y)
    (unhandled : ∀ e ∈ events, Unhandled e.2) (c : System) : Run env (Clean env) (x.1, ⟨x.2, c⟩)
      (events.map fun e => (e.1, .bridge e.2)) (y.1, ⟨y.2, c⟩) := by
  induction run with
  | refl => exact .refl _
  | next ordered step _ ih =>
    obtain ⟨here, others⟩ := List.forall_mem_cons.mp unhandled
    refine .next ordered ⟨?_, .bridge here step⟩ (ih others)
    rintro ⟨value, command⟩
    contradiction

end

/-- Without a client there are no commands. -/
theorem commands_bridge (events : List (Uptime × Bridge.Act)) (later : List (Uptime × Act)) :
    commands (events.map (fun e => (e.1, .bridge e.2)) ++ later) = commands later := by
  rw [commands, List.filterMap_append, List.filterMap_map]
  have none : events.filterMap ((fun e : Uptime × Act => e.2.command?) ∘
      fun e => (e.1, Act.bridge e.2)) = [] := List.filterMap_eq_nil_iff.mpr fun _ _ => rfl
  rw [none]
  rfl

/-- Mode 1 from a Zigbee client, then mode 2 from the one on BLE. -/
theorem last_command_wins_ble : ∃ s : State, s.cycle.state.lastAckedMode = 2 ∧
    (ofSlot .mode s.cycle.adopted).getLast? = some 2 := by
  have before : ∃ b c, Inv c ∧ c.cs60 = .idle ∧ Run Commands.calmEnv (Clean Commands.calmEnv)
      (Uptime.boot, boot (.replicate accumSize 0))
      [(Uptime.boot, .fanMode 1), (Uptime.boot, .payload (ascii "mode 2"))]
      (Uptime.boot, ⟨b, c⟩) :=
    ⟨_, _, inv_handled (inv_handled (Cycle.inv_boot _) (fanModeWrite_queues 1) fun _ => rfl)
      (nusReceived_queues (ascii "mode 2")) fun _ => rfl, rfl,
      .next (le_refl _) ⟨fun _ => rfl, .fanMode 1 (.gateway nofun
        (.zigbee (.writeFanMode 1 rfl) nofun))⟩
        (.next (le_refl _) ⟨fun _ => rfl, .payload _⟩ (.refl _))⟩
  obtain ⟨b, c, inv, idle, reached⟩ := before
  have sends : ∀ n, (Commands.calmEnv.tx n).Sends := fun _ => ⟨rfl, rfl, rfl⟩
  obtain ⟨acts, d, cycle, ended⟩ := Cycle.cycle_ends sends inv idle
  obtain ⟨_, delivered, shown⟩ := last_command_wins Commands.calmEnv (.replicate accumSize 0)
    reached (bus_run cycle Uptime.boot b) ⟨Uptime.boot, List.mem_map_of_mem List.mem_cons_self⟩
    ended
  have two : ofSlot .mode (commands [(Uptime.boot, .fanMode 1),
      (Uptime.boot, .payload (ascii "mode 2"))]) = [1, 2] := by
    decide +kernel
  rw [two] at shown
  refine ⟨_, shown, (delivered .mode).2.trans ?_⟩
  rw [two]
  rfl

/-- Mode 2 over BLE while the latest block says so already. -/
theorem command_reads_back_ble : ∃ s : Bridge.State,
    s.gateway.zigbee.published.attrs.control .fanMode = 2 := by
  obtain ⟨l, arrives, arrivals⟩ := Mirror.block_arrives Uptime.boot
    (show (Bridge.modeBlock 2).length = 170 from rfl)
  have first := Bridge.listener_run arrives Zigbee.boot
  have blocks : statusBlocks l.arrivals = [(Uptime.boot, Bridge.blockOfTwo)] := by
    rw [arrivals]
    rfl
  have counted : l.traced.state.fc10Frames = 1 := by
    have polled := Bridge.polled_run first (Bridge.polled_boot _)
    rw [polled.faithful.mirrors.counted]
    change UInt32.ofNat (statusBlocks l.arrivals).length = 1
    rw [blocks]
    rfl
  obtain ⟨earlier, m, up, z, execution, later, unwritten, same⟩ :=
    Bridge.two_published first blocks counted
  have latest : (statusBlocks l.arrivals).getLast? = some (Uptime.boot, Bridge.blockOfTwo) := by
    rw [blocks]
    rfl
  have sets : (Zigbee.Setter.mode 2).control? .fanMode ≠ none := Option.some_ne_none _
  have arrived : Run Commands.calmEnv (Clean Commands.calmEnv)
      (Uptime.boot, boot (.replicate accumSize 0)) _
      (Uptime.boot, ⟨⟨⟨l, Zigbee.boot⟩, 0, [], []⟩, Cycle.boot (.replicate accumSize 0)⟩) :=
    unhandled_run first (by simp [Unhandled]) _
  have sent : ∃ c, Inv c ∧ c.cs60 = .idle ∧ Run Commands.calmEnv (Clean Commands.calmEnv)
      (Uptime.boot, ⟨⟨⟨l, Zigbee.boot⟩, 0, [], []⟩, Cycle.boot (.replicate accumSize 0)⟩)
      [(Uptime.boot, .payload (ascii "mode 2"))]
      (Uptime.boot, ⟨⟨⟨l, Zigbee.boot⟩, 0, [], []⟩, c⟩) :=
    ⟨_, inv_handled (Cycle.inv_boot _) (nusReceived_queues (ascii "mode 2")) fun _ => rfl, rfl,
      .next (le_refl _) ⟨fun _ => rfl, .payload _⟩ (.refl _)⟩
  obtain ⟨c, inv, idle, sent⟩ := sent
  have reached := arrived.trans sent
  have two : ofSlot .mode (commands [(Uptime.boot, .payload (ascii "mode 2"))]) = [2] := by
    decide +kernel
  have sends : ∀ n, (Commands.calmEnv.tx n).Sends := fun _ => ⟨rfl, rfl, rfl⟩
  obtain ⟨acts, d, cycle, ended⟩ := Cycle.cycle_ends sends inv idle
  have calm := bus_run cycle Uptime.boot ⟨⟨l, Zigbee.boot⟩, 0, [], []⟩
  have polled : ∃ t, (t, Act.bus .poll) ∈ (Cycle.Act.poll :: acts).map fun act =>
      (Uptime.boot, Act.bus act) := ⟨Uptime.boot, List.mem_map_of_mem List.mem_cons_self⟩
  have adopted := ((delivered_commands reached calm polled ended).2 .mode).2
  rw [commands_bridge, two] at adopted
  have reads := command_reads_back Commands.calmEnv (.replicate accumSize 0) reached calm polled
    ended latest (c := .fanMode) (fun word last => ?_) execution sets nofun later unwritten
    ⟨[], by rw [same, List.append_nil], nofun⟩
  · exact ⟨z, reads 2 (by rw [slotOf, commands_bridge, two]; rfl)⟩
  · obtain rfl := Option.some.inj (adopted.symm.trans last)
    exact Bridge.blockOfTwo_mode

end FlexitCs60.Device.Clients
