import FlexitCs60.Bridge.Poll
import FlexitCs60.System.Labelled

/-! The bridge pushes exactly the new status blocks: an execution makes calls when
one was accepted since the execution before it, and all of them come from the
latest one. -/
namespace FlexitCs60.Bridge
open Wire
open Mirror (Uptime statusBlocks)

/-- What had arrived at the latest execution, nothing before the first. -/
def seen (executions : List Execution) : List (Uptime × List UInt8) :=
  (executions.getLast?.map Execution.arrivals).getD []

/-- The status blocks an execution sees for the first time. -/
def fresh (earlier : List Execution) (m : Execution) : List (Uptime × List UInt8) :=
  statusBlocks (m.arrivals.drop (seen earlier).length)

/-- An execution pushes when there is a new block, and what the latest one says. -/
structure PushesNew (earlier : List Execution) (m : Execution) : Prop where
  grows : seen earlier <+: m.arrivals
  pushes_iff : (fresh earlier m).length < 2 ^ 32 → (m.calls ≠ [] ↔ fresh earlier m ≠ [])
  latest : m.calls ≠ [] → ∃ a, (statusBlocks m.arrivals).getLast? = some a ∧
    m.calls = frameCalls a.2 ∧
    ∀ v, .mode v ∈ m.calls → v.toUInt16 = getBe16 (a.2.drop 9) ∧ v ≤ 3

/-- The invariant: the static count is that of what the latest execution saw. -/
structure Polled (now : Uptime) (s : State) : Prop where
  faithful : Mirror.Faithful now s.gateway.listener
  grows : seen s.executions <+: s.arrivals
  counted : s.pushedFc10Frames = .ofNat (statusBlocks (seen s.executions)).length
  accounted : Labelled.Accounted PushesNew s.executions

theorem polled_boot (now : Uptime) : Polled now boot :=
  ⟨Mirror.faithful_listening now, List.nil_prefix, rfl, Labelled.accounted_nil _⟩

theorem statusBlocks_append (before after : List (Uptime × List UInt8)) :
    statusBlocks (before ++ after) = statusBlocks before ++ statusBlocks after :=
  List.filter_append ..

theorem ofNat_add_eq_iff {n k : Nat} (small : k < 2 ^ 32) :
    UInt32.ofNat (n + k) = UInt32.ofNat n ↔ k = 0 := by
  rw [← UInt32.toNat_inj, UInt32.toNat_ofNat', UInt32.toNat_ofNat']
  omega

theorem mode_mem_frameCalls {frame : List UInt8} {v : UInt8} (pushed : .mode v ∈ frameCalls frame) :
    v.toUInt16 = getBe16 (frame.drop 9) ∧ v ≤ 3 := by
  have word : (Mirror.blockStatus frame).mode = getBe16 (frame.drop 9) := by
    change getBe16 ((frame.drop 7).drop 2) = _
    rw [List.drop_drop]
  obtain ⟨small, rfl⟩ := mode_mem_pushes.mp pushed
  rw [word] at small ⊢
  rw [UInt16.le_iff_toNat_le] at small
  have three : (3 : UInt16).toNat = 3 := rfl
  have kept : (getBe16 (frame.drop 9)).toUInt8.toNat = (getBe16 (frame.drop 9)).toNat := by
    rw [UInt16.toNat_toUInt8]
    omega
  constructor
  · rw [← UInt16.toNat_inj, UInt8.toNat_toUInt16, kept]
  · rw [UInt8.le_iff_toNat_le, kept]
    exact small

/-- The status fields an execution reads are those of the latest block. -/
theorem Polled.pushes_eq {now : Uptime} {s : State} (polled : Polled now s)
    {a : Uptime × List UInt8} (last : (statusBlocks s.arrivals).getLast? = some a) :
    pushes s.gateway.listener.traced.state = frameCalls a.2 := by
  have shown := polled.faithful.mirrors.shown
  rw [show (statusBlocks s.gateway.listener.arrivals).getLast? = some a from last] at shown
  rw [← pushes_status, shown]
  rfl

theorem Polled.pushesNew {now : Uptime} {s : State} (polled : Polled now s) :
    PushesNew s.executions
      ⟨s.arrivals, (bridgeWorkFn s.gateway.listener.traced.state s.pushedFc10Frames).2⟩ := by
  obtain ⟨tail, arrivals⟩ := polled.grows
  have new : fresh s.executions ⟨s.arrivals,
      (bridgeWorkFn s.gateway.listener.traced.state s.pushedFc10Frames).2⟩ = statusBlocks tail := by
    rw [fresh, ← arrivals, List.drop_left]
  have count : s.gateway.listener.traced.state.fc10Frames =
      .ofNat ((statusBlocks (seen s.executions)).length + (statusBlocks tail).length) := by
    rw [polled.faithful.mirrors.counted, ← List.length_append, ← statusBlocks_append, arrivals]
    rfl
  have calls : (bridgeWorkFn s.gateway.listener.traced.state s.pushedFc10Frames).2 ≠ [] ↔
      s.gateway.listener.traced.state.fc10Frames ≠ s.pushedFc10Frames := by
    unfold bridgeWorkFn
    split
    · rename_i changed
      exact iff_of_true (pushes_ne_nil _) changed
    · rename_i same
      exact iff_of_false (fun nonempty => nonempty rfl) same
  refine ⟨polled.grows, fun few => ?_, fun pushed => ?_⟩
  · rw [new] at few
    rw [calls, new, count, polled.counted, ne_eq, ofNat_add_eq_iff few, List.length_eq_zero_iff]
  · have changed := calls.mp pushed
    rcases List.eq_nil_or_concat (statusBlocks s.arrivals) with none | ⟨before, last, blocks⟩
    · have nothing : statusBlocks (seen s.executions) = [] ∧ statusBlocks tail = [] := by
        rw [← arrivals, statusBlocks_append] at none
        exact List.append_eq_nil_iff.mp none
      rw [count, polled.counted, nothing.1, nothing.2] at changed
      exact absurd rfl changed
    · have last? : (statusBlocks s.arrivals).getLast? = some last := by
        rw [blocks, List.concat_eq_append, List.getLast?_concat]
      have same : (bridgeWorkFn s.gateway.listener.traced.state s.pushedFc10Frames).2 =
          frameCalls last.2 := by
        rw [bridgeWorkFn, if_pos changed]
        exact polled.pushes_eq last?
      refine ⟨last, last?, same, fun v member => mode_mem_frameCalls (same ▸ member)⟩

theorem seen_concat (executions : List Execution) (m : Execution) :
    seen (executions ++ [m]) = m.arrivals := by
  rw [seen, List.getLast?_concat]
  rfl

/-- After an execution the static count is the mirror's. -/
theorem work_count (s : State) :
    s.work.pushedFc10Frames = s.gateway.listener.traced.state.fc10Frames := by
  change (bridgeWorkFn _ _).1 = _
  unfold bridgeWorkFn
  split
  · rfl
  · rename_i same
    exact (not_ne_iff.mp same).symm

/-- No call of the latest execution is left, and it saw the latest block. -/
def UpToDate (s : State) : Prop :=
  statusBlocks (seen s.executions) = statusBlocks s.arrivals ∧ s.due = []

/-- An execution that finds no new block makes no calls. -/
theorem Polled.work_due {now : Uptime} {s : State} (polled : Polled now s)
    (same : statusBlocks (seen s.executions) = statusBlocks s.arrivals) : s.work.due = [] := by
  have count := polled.counted
  rw [same] at count
  change (bridgeWorkFn s.gateway.listener.traced.state s.pushedFc10Frames).2 = []
  rw [bridgeWorkFn, if_neg]
  rw [not_ne_iff, polled.faithful.mirrors.counted, count]
  rfl

/-- What has happened since a state, while no block was accepted. -/
structure QuietSince (s z : State) : Prop where
  later : ∃ later, z.executions = s.executions ++ later ∧ (∀ m ∈ later.tail, m.calls = []) ∧
    (later ≠ [] → statusBlocks (seen z.executions) = statusBlocks s.arrivals)
  kept : UpToDate s → z.due = [] ∧
    statusBlocks (seen z.executions) = statusBlocks s.arrivals ∧
    z.gateway.zigbee.pending.tempLastMs = s.gateway.zigbee.pending.tempLastMs

theorem quietSince_refl (s : State) : QuietSince s s :=
  ⟨⟨[], (List.append_nil _).symm, nofun, fun some => absurd rfl some⟩,
    fun current => ⟨current.2, current.1, rfl⟩⟩

section
variable [Zephyr]

theorem arrivals_step {t : Uptime} {s s' : State} {a : Act} (step : Step t s a s') :
    s.arrivals <+: s'.arrivals := by
  cases step with
  | gateway _ step => exact Gateway.arrivals_step step
  | work idle => exact List.prefix_refl _
  | call due step => exact Gateway.arrivals_step step

theorem polled_step {now t : Uptime} {s s' : State} {a : Act} (ordered : now ≤ t)
    (step : Step t s a s') (polled : Polled now s) : Polled t s' := by
  have grows := polled.grows.trans (arrivals_step step)
  cases step with
  | gateway _ step =>
    exact ⟨Gateway.faithful_step ordered step polled.faithful, grows, polled.counted,
      polled.accounted⟩
  | work idle =>
    have last : seen s.work.executions = s.arrivals := seen_concat ..
    refine ⟨polled.faithful.later ordered, last ▸ List.prefix_refl _, ?_, ?_⟩
    · rw [work_count, last]
      exact polled.faithful.mirrors.counted
    · exact polled.accounted.concat polled.pushesNew
  | call due step =>
    exact ⟨Gateway.faithful_step ordered step polled.faithful, grows, polled.counted,
      polled.accounted⟩

theorem polled_run {x y : Uptime × State} {events : List (Uptime × Act)} (run : Run x events y)
    (polled : Polled x.1 x.2) : Polled y.1 y.2 :=
  run.history (fun _ y => Polled y.1 y.2) polled_step [] polled

/-- The setter calls of a history. -/
def made (events : List (Uptime × Act)) : List Zigbee.Setter :=
  events.filterMap fun e =>
    match e.2 with
    | .call call => some call
    | _ => none

/-- Every call of an execution is made, in order, before the next execution. -/
theorem made_run {y : Uptime × State} {events : List (Uptime × Act)}
    (run : Run (Uptime.boot, boot) events y) :
    made events ++ y.2.due = y.2.executions.flatMap Execution.calls := by
  refine run.history (fun past y => made past ++ y.2.due = y.2.executions.flatMap Execution.calls)
    ?_ [] rfl
  intro past now t s a s' _ step sofar
  dsimp only at sofar ⊢
  rw [made, List.filterMap_append]
  change made past ++ _ ++ _ = _
  cases step with
  | gateway _ step => exact (congrArg (· ++ s.due) (List.append_nil _)).trans sofar
  | work idle =>
    rw [idle, List.append_nil] at sofar
    change made past ++ [] ++ s.work.due = (s.executions ++ [_]).flatMap Execution.calls
    rw [List.append_nil, sofar, List.flatMap_append, List.flatMap_singleton]
    rfl
  | call due step =>
    rw [due] at sofar
    exact (List.append_assoc ..).trans sofar

/-- While no further block is accepted, at most one more execution pushes, and
none once the bridge is up to date, so the temperature is never refreshed. -/
def Quiet (x : Uptime × State) : Prop :=
  ∀ after y, Run x after y → statusBlocks y.2.arrivals = statusBlocks x.2.arrivals →
    (∃ later, y.2.executions = x.2.executions ++ later ∧ ∀ m ∈ later.tail, m.calls = []) ∧
    (UpToDate x.2 → y.2.gateway.zigbee.pending.tempLastMs = x.2.gateway.zigbee.pending.tempLastMs)

theorem quietSince_step {now t : Uptime} {s z z' : State} {a : Act} (polled : Polled now z)
    (same : statusBlocks z.arrivals = statusBlocks s.arrivals) (step : Step t z a z')
    (quiet : QuietSince s z) : QuietSince s z' := by
  obtain ⟨⟨later, executions, silent, current⟩, kept⟩ := quiet
  cases step with
  | gateway setter step =>
    refine ⟨⟨later, executions, silent, current⟩, fun upToDate => ?_⟩
    obtain ⟨due, saw, last⟩ := kept upToDate
    refine ⟨due, saw, ?_⟩
    cases step with
    | mirror step => exact last
    | zigbee step link =>
      cases step with
      | set call => exact absurd rfl (setter call)
      | writeFanMode v idle => exact last
      | storeSetpoint v idle => exact last
      | handleSetpointWrite v written => exact last
      | copyLatches idle => exact last
      | publishCopy linkUp copy publishing => exact last
  | work idle =>
    have last : seen z.work.executions = z.arrivals := seen_concat ..
    refine ⟨⟨later ++ [⟨z.arrivals, z.work.due⟩], ?_, ?_, fun _ => last ▸ same⟩, fun upToDate => ?_⟩
    · change z.executions ++ [_] = _
      rw [executions, List.append_assoc]
      rfl
    · intro m member
      by_cases first : later = []
      · rw [first] at member
        contradiction
      · rw [List.tail_append_of_ne_nil first] at member
        rcases List.mem_append.mp member with before | this
        · exact silent m before
        · rw [List.mem_singleton.mp this]
          exact polled.work_due ((current first).trans same.symm)
    · obtain ⟨due, saw, unchanged⟩ := kept upToDate
      exact ⟨polled.work_due (saw.trans same.symm), last ▸ same, unchanged⟩
  | call due step =>
    refine ⟨⟨later, executions, silent, current⟩, fun upToDate => ?_⟩
    have none := (kept upToDate).1
    rw [due] at none
    contradiction

theorem quiet_run {x : Uptime × State} (polled : Polled x.1 x.2) : Quiet x := by
  intro after y run same
  have since : Polled y.1 y.2 ∧ statusBlocks x.2.arrivals <+: statusBlocks y.2.arrivals ∧
      (statusBlocks y.2.arrivals = statusBlocks x.2.arrivals → QuietSince x.2 y.2) := by
    refine run.history (fun _ z => Polled z.1 z.2 ∧
      statusBlocks x.2.arrivals <+: statusBlocks z.2.arrivals ∧
      (statusBlocks z.2.arrivals = statusBlocks x.2.arrivals → QuietSince x.2 z.2)) ?_ []
      ⟨polled, List.prefix_refl _, fun _ => quietSince_refl _⟩
    rintro past now t s a s' ordered step ⟨polled, grown, quiet⟩
    have grows : statusBlocks s.arrivals <+: statusBlocks s'.arrivals :=
      (arrivals_step step).filter _
    refine ⟨polled_step ordered step polled, grown.trans grows, fun same => ?_⟩
    have before : statusBlocks s.arrivals = statusBlocks x.2.arrivals := by
      rw [same] at grows
      exact grows.eq_of_length_le grown.length_le
    exact quietSince_step polled before step (quiet before)
  obtain ⟨⟨later, executions, silent, _⟩, kept⟩ := since.2.2 same
  exact ⟨⟨later, executions, silent⟩, fun current => (kept current).2.2⟩

/-- Over any interleaving of feeds, executions and their calls, and whatever the
ZBOSS thread does. -/
theorem bridge_pushes_new {events : List (Uptime × Act)} {y : Uptime × State}
    (run : Run (Uptime.boot, boot) events y) :
    Labelled.Accounted PushesNew y.2.executions ∧
      made events ++ y.2.due = y.2.executions.flatMap Execution.calls ∧ Quiet y := by
  have polled := polled_run run (polled_boot _)
  exact ⟨polled.accounted, made_run run, quiet_run polled⟩

/-- Steps of the mirror are steps of the whole. -/
theorem listener_run {x y : Uptime × Mirror.Listener} {events : List (Uptime × Mirror.FeedAct)}
    (run : Timed.Run Mirror.FeedStep x events y) (z : Zigbee.State) :
    Run (x.1, ⟨⟨x.2, z⟩, 0, [], []⟩) (events.map fun e => (e.1, .gateway (.mirror e.2)))
      (y.1, ⟨⟨y.2, z⟩, 0, [], []⟩) := by
  induction run with
  | refl => exact .refl _
  | next ordered step _ ih => exact .next ordered (.gateway nofun (.mirror step)) ih

/-- A status block that arrives first and waits for an execution. -/
theorem block_accepted (t : Uptime) {data : List UInt8} (size : data.length = 170) :
    ∃ before l, Run (Uptime.boot, boot) before (t, ⟨⟨l, Zigbee.boot⟩, 0, [], []⟩) ∧
      statusBlocks l.arrivals = [(t, stampCrc (Mirror.header ++ data))] ∧
      l.traced.state.fc10Frames = 1 := by
  obtain ⟨l, arrives, arrivals⟩ := Mirror.block_arrives t size
  have run := listener_run arrives Zigbee.boot
  have polled : Polled t ⟨⟨l, Zigbee.boot⟩, 0, [], []⟩ := polled_run run (polled_boot _)
  have blocks : statusBlocks l.arrivals = [(t, stampCrc (Mirror.header ++ data))] := by
    rw [arrivals]
    rfl
  refine ⟨_, l, run, blocks, ?_⟩
  rw [polled.faithful.mirrors.counted]
  change UInt32.ofNat (statusBlocks l.arrivals).length = 1
  rw [blocks]
  rfl

/-- A first block makes an execution push. -/
theorem first_due {t : Uptime} {l : Mirror.Listener} {before : List (Uptime × Act)}
    (run : Run (Uptime.boot, boot) before (t, ⟨⟨l, Zigbee.boot⟩, 0, [], []⟩))
    {a : Uptime × List UInt8} (blocks : statusBlocks l.arrivals = [a])
    (counted : l.traced.state.fc10Frames = 1) :
    (State.work ⟨⟨l, Zigbee.boot⟩, 0, [], []⟩).due = frameCalls a.2 := by
  have latest : (statusBlocks l.arrivals).getLast? = some a := by
    rw [blocks]
    rfl
  change (bridgeWorkFn l.traced.state 0).2 = _
  rw [bridgeWorkFn, counted, if_pos (by decide)]
  exact (polled_run run (polled_boot _)).pushes_eq latest

/-- Calls that are due can be made one after the other. -/
theorem calls_run (t : Uptime) {s : State} (idle : s.gateway.zigbee.zboss = .idle)
    {calls rest : List Zigbee.Setter} (due : s.due = calls ++ rest) :
    ∃ y : State, Run (t, s) (calls.map fun call => (t, .call call)) (t, y) ∧ y.due = rest ∧
      y.gateway.zigbee.zboss = .idle ∧ y.executions = s.executions ∧ y.arrivals = s.arrivals := by
  induction calls generalizing s with
  | nil => exact ⟨s, .refl _, due, idle, rfl, rfl⟩
  | cons call calls ih =>
    have step : Step t s (.call call) { s with
        gateway := { s.gateway with
          zigbee := s.gateway.zigbee.set (Gateway.uptimeMs t) call }, due := calls ++ rest } :=
      .call due (.zigbee (.set call) (by simp))
    obtain ⟨y, run, drained, idle, executions, arrivals⟩ := ih
      (s := { s with
        gateway := { s.gateway with
          zigbee := s.gateway.zigbee.set (Gateway.uptimeMs t) call }, due := calls ++ rest })
      idle rfl
    exact ⟨y, .next (le_refl _) step run, drained, idle, executions, arrivals⟩

/-- A block that arrived first, pushed by an execution. -/
theorem block_pushed (t : Uptime) {data : List UInt8} (size : data.length = 170) :
    ∃ before x, Run (Uptime.boot, boot) before (t, x) ∧ UpToDate x ∧
      x.executions = [⟨x.arrivals, frameCalls (stampCrc (Mirror.header ++ data))⟩] ∧
      x.gateway.zigbee.zboss = .idle ∧
      statusBlocks x.arrivals = [(t, stampCrc (Mirror.header ++ data))] := by
  obtain ⟨before, l, run, blocks, count⟩ := block_accepted t size
  have due := first_due run blocks count
  obtain ⟨y, calls, drained, idle, executions, arrivals⟩ :=
    calls_run t (s := State.work ⟨⟨l, Zigbee.boot⟩, 0, [], []⟩) rfl (List.append_nil _).symm
  have same : y.executions = [⟨y.arrivals, frameCalls (stampCrc (Mirror.header ++ data))⟩] := by
    rw [executions, arrivals, ← due]
    rfl
  have saw : seen y.executions = y.arrivals := by
    rw [same]
    rfl
  refine ⟨_, y, run.trans (.next (le_refl _) (.work rfl) calls), ⟨?_, drained⟩, same, idle, ?_⟩
  · rw [saw]
  · rw [arrivals]
    exact blocks

end

/-- Outdoors -2.1 degrees, the heat exchanger at 64 %, the heating at 35 %, mode 2 and the
filter alarm. -/
def winterRegisters : List UInt8 :=
  [0, 205, 0, 2, 0, 0, 0, 0, 0, 205, 0, 182, 0, 224, 0xFF, 0xEB, 0, 0, 0, 0, 0, 64, 0, 35] ++
    .replicate 132 0 ++ [0, 1] ++ .replicate 12 0

def winterBlock : List UInt8 := stampCrc (Mirror.header ++ winterRegisters)

/-- A winter's block is pushed, and the next execution pushes nothing. -/
theorem bridge_pushes_new_winter : ∃ events y, Run (Uptime.boot, boot) events y ∧
    y.2.executions.map Execution.calls = [frameCalls winterBlock, []] ∧
    made events = frameCalls winterBlock ∧ frameCalls winterBlock ≠ [] ∧
    Labelled.Accounted PushesNew y.2.executions ∧ Quiet y := by
  obtain ⟨before, x, run, current, executions, _⟩ :=
    block_pushed Uptime.boot (show winterRegisters.length = 170 from rfl)
  have silent : x.work.due = [] := (polled_run run (polled_boot _)).work_due current.1
  have pushed := run.trans (.next (le_refl _) (.work current.2) (.refl _))
  obtain ⟨accounted, all, quiet⟩ := bridge_pushes_new pushed
  have calls : x.work.executions.map Execution.calls = [frameCalls winterBlock, []] := by
    rw [← silent]
    change (x.executions ++ [_]).map Execution.calls = _
    rw [executions]
    rfl
  refine ⟨_, _, pushed, calls, ?_, pushes_ne_nil _, accounted, quiet⟩
  change _ ++ x.work.due = x.work.executions.flatMap Execution.calls at all
  rw [silent, List.append_nil, List.flatMap_def, calls] at all
  exact all.trans (List.append_nil _)

end FlexitCs60.Bridge
