import FlexitCs60.Zigbee.Tables

/-! `publish_tick` in its two parts: the latches are copied and cleared under the
lock, then written to the attributes without it. -/
namespace FlexitCs60.Zigbee

def tempStaleMs : ℤ := 60000

/-- What the tick owns, and the attributes it writes to. -/
structure Published where
  attrs : Attributes
  tempStale : TempChannel → Bool
  /-- The last state written to the connectivity input, if any. -/
  cs60LinkState : Option Bool

def bootPublished : Published where
  attrs := bootAttributes
  tempStale _ := true
  cs60LinkState := none

/-- The locked part: the copy and the pending values with clean flags. -/
def copyLatches (p : Pending) : Latches × Pending :=
  (p.toLatches, { p with
    temp := fun ch => (p.temp ch).taken
    analog := fun ch => (p.analog ch).taken
    binary := fun ch => (p.binary ch).taken
    setpoint := p.setpoint.taken
    mode := p.mode.taken })

def writeMeasuredValue (ep : Endpoint) (v : Int16) (a : Attributes) : Attributes :=
  { a with measuredValue := Function.update a.measuredValue ep v }

def writeAnalogInput (ep : Endpoint) (v : ℚ) (a : Attributes) : Attributes :=
  { a with analogInput := Function.update a.analogInput ep v }

def writeBinaryInput (ep : Endpoint) (v : Bool) (a : Attributes) : Attributes :=
  { a with binaryInput := Function.update a.binaryInput ep v }

def writeAnalogValue (ep : Endpoint) (v : ℚ) (a : Attributes) : Attributes :=
  { a with analogValue := Function.update a.analogValue ep v }

def writeFanMode (ep : Endpoint) (v : UInt8) (a : Attributes) : Attributes :=
  { a with fanMode := Function.update a.fanMode ep v }

def publishTemp (now : ℤ) (copy : Latches) (x : Published) (ch : TempChannel) : Published :=
  if (copy.temp ch).dirty then
    { x with
      attrs := writeMeasuredValue (tempEpId ch) (copy.temp ch).val x.attrs
      tempStale := Function.update x.tempStale ch false }
  else if x.tempStale ch = false ∧ copy.tempLastMs ch ≠ 0 ∧
      now - copy.tempLastMs ch > tempStaleMs then
    -- the source went silent: the sentinel is written once
    { x with
      attrs := writeMeasuredValue (tempEpId ch) valueUnknown x.attrs
      tempStale := Function.update x.tempStale ch true }
  else x

def publishAnalog (copy : Latches) (a : Attributes) (ch : AnalogChannel) : Attributes :=
  if (copy.analog ch).dirty then writeAnalogInput (analogEpId ch) (copy.analog ch).val a else a

def publishBinary (copy : Latches) (a : Attributes) (ch : BinaryChannel) : Attributes :=
  if (copy.binary ch).dirty then writeBinaryInput (binaryEpId ch) (copy.binary ch).val a else a

/-- The connectivity input of the setpoint endpoint, written on a change only. -/
def publishLink (linkUp : Bool) (x : Published) : Published :=
  if x.cs60LinkState = some linkUp then x
  else { x with
    attrs := writeBinaryInput .setpoint linkUp x.attrs
    cs60LinkState := some linkUp }

def publishSetpoint (copy : Latches) (a : Attributes) : Attributes :=
  if copy.setpoint.dirty then writeAnalogValue .setpoint copy.setpoint.val a else a

def publishMode (copy : Latches) (a : Attributes) : Attributes :=
  if copy.mode.dirty then writeFanMode .ctrl copy.mode.val a else a

/-- The channels in the order of their loops. -/
def analogChannels : List AnalogChannel := [.heatExchanger, .heating, .intakeTemp]

def binaryChannels : List BinaryChannel :=
  [.supplySensor, .outdoorSensor, .heatExchanger, .overheat, .filter]

/-- The unlocked part, given the uptime and what `panel_mirror_cs60_link_up`
answers. -/
def publishCopy (now : ℤ) (linkUp : Bool) (copy : Latches) (x : Published) : Published :=
  let x := publishTemp now copy x .supply
  let x := { x with attrs := analogChannels.foldl (publishAnalog copy) x.attrs }
  let x := { x with attrs := binaryChannels.foldl (publishBinary copy) x.attrs }
  let x := publishLink linkUp x
  { x with attrs := publishMode copy (publishSetpoint copy x.attrs) }

/-! Each attribute table is written from its own latches. -/

namespace Latch
variable {α C : Type}

/-- A table of attributes after the latch was written to its endpoint. -/
def into (l : Latch α) (ep : Endpoint) (table : Endpoint → α) : Endpoint → α :=
  if l.dirty then Function.update table ep l.val else table

theorem into_self (l : Latch α) (ep : Endpoint) (table : Endpoint → α) :
    l.into ep table ep = if l.dirty then l.val else table ep := by
  unfold into
  split
  · simp
  · rfl

theorem into_of_ne (l : Latch α) {ep other : Endpoint} (apart : other ≠ ep)
    (table : Endpoint → α) : l.into ep table other = table other := by
  unfold into
  split
  · exact Function.update_of_ne apart ..
  · rfl

variable (latch : C → Latch α) (epId : C → Endpoint)

/-- The latches of the channels, written one after the other. -/
def allInto (channels : List C) (table : Endpoint → α) : Endpoint → α :=
  channels.foldl (fun table ch => (latch ch).into (epId ch) table) table

theorem allInto_of_ne (channels : List C) {ep : Endpoint} (apart : ∀ ch, ep ≠ epId ch)
    (table : Endpoint → α) : allInto latch epId channels table ep = table ep := by
  induction channels generalizing table with
  | nil => rfl
  | cons ch rest ih => exact (ih _).trans ((latch ch).into_of_ne (apart ch) table)

variable {epId}

/-- Channels with endpoints of their own do not write over each other. -/
theorem allInto_apply [DecidableEq C] (distinct : Function.Injective epId) (channels : List C)
    (ch : C) (table : Endpoint → α) :
    allInto latch epId channels table (epId ch) =
      if ch ∈ channels ∧ (latch ch).dirty then (latch ch).val else table (epId ch) := by
  induction channels generalizing table with
  | nil => simp [allInto]
  | cons first rest ih =>
    refine (ih _).trans ?_
    dsimp only
    by_cases same : ch = first
    · rw [← same, into_self]
      by_cases dirty : (latch ch).dirty = true
      · simp [dirty]
      · simp [dirty]
    · rw [into_of_ne _ (distinct.ne same)]
      simp [same]

end Latch

theorem analogEpId_injective : Function.Injective analogEpId := by
  intro a b
  cases a <;> cases b <;> decide

theorem binaryEpId_injective : Function.Injective binaryEpId := by
  intro a b
  cases a <;> cases b <;> decide

theorem mem_analogChannels (ch : AnalogChannel) : ch ∈ analogChannels := by
  cases ch <;> decide

theorem mem_binaryChannels (ch : BinaryChannel) : ch ∈ binaryChannels := by
  cases ch <;> decide

section
variable (now : ℤ) (linkUp : Bool) (copy : Latches) (x : Published)

theorem publishAnalogs (channels : List AnalogChannel) (a : Attributes) :
    channels.foldl (publishAnalog copy) a =
      { a with analogInput := Latch.allInto copy.analog analogEpId channels a.analogInput } := by
  induction channels generalizing a with
  | nil => rfl
  | cons ch rest ih =>
    refine (ih _).trans ?_
    simp only [publishAnalog, Latch.allInto, List.foldl_cons, Latch.into]
    split <;> rfl

theorem publishBinaries (channels : List BinaryChannel) (a : Attributes) :
    channels.foldl (publishBinary copy) a =
      { a with binaryInput := Latch.allInto copy.binary binaryEpId channels a.binaryInput } := by
  induction channels generalizing a with
  | nil => rfl
  | cons ch rest ih =>
    refine (ih _).trans ?_
    simp only [publishBinary, Latch.allInto, List.foldl_cons, Latch.into]
    split <;> rfl

/-- The temperature part writes the measured value and the staleness. -/
theorem publishTemp_eq (ch : TempChannel) : ∃ measured stale,
    publishTemp now copy x ch =
      { x with attrs := { x.attrs with measuredValue := measured }, tempStale := stale } := by
  unfold publishTemp
  split
  · exact ⟨_, _, rfl⟩
  · split
    · exact ⟨_, _, rfl⟩
    · exact ⟨_, _, rfl⟩

/-- The connectivity input as the tick leaves it. -/
theorem publishLink_eq : publishLink linkUp x =
    { x with
      attrs := { x.attrs with
        binaryInput := if x.cs60LinkState = some linkUp then x.attrs.binaryInput
          else Function.update x.attrs.binaryInput .setpoint linkUp }
      cs60LinkState := some linkUp } := by
  unfold publishLink
  split
  · rename_i same
    rw [← same]
  · rfl

/-- A tick, table by table. -/
theorem publishCopy_eq : publishCopy now linkUp copy x =
    { attrs :=
        { measuredValue := (publishTemp now copy x .supply).attrs.measuredValue
          analogInput := Latch.allInto copy.analog analogEpId analogChannels x.attrs.analogInput
          binaryInput :=
            let table := Latch.allInto copy.binary binaryEpId binaryChannels x.attrs.binaryInput
            if x.cs60LinkState = some linkUp then table else Function.update table .setpoint linkUp
          analogValue := copy.setpoint.into .setpoint x.attrs.analogValue
          fanMode := copy.mode.into .ctrl x.attrs.fanMode }
      tempStale := (publishTemp now copy x .supply).tempStale
      cs60LinkState := some linkUp } := by
  obtain ⟨measured, stale, temp⟩ := publishTemp_eq now copy x .supply
  have setpoint : ∀ a, publishSetpoint copy a =
      { a with analogValue := copy.setpoint.into .setpoint a.analogValue } := by
    intro a
    unfold publishSetpoint Latch.into
    split <;> rfl
  have mode : ∀ a, publishMode copy a =
      { a with fanMode := copy.mode.into .ctrl a.fanMode } := by
    intro a
    unfold publishMode Latch.into
    split <;> rfl
  simp only [publishCopy, temp, publishAnalogs, publishBinaries, publishLink_eq, setpoint, mode]

/-- The tick writes the setpoint attribute from the setpoint latch alone. -/
theorem publishCopy_analogValue :
    (publishCopy now linkUp copy x).attrs.analogValue .setpoint =
      if copy.setpoint.dirty then copy.setpoint.val else x.attrs.analogValue .setpoint := by
  rw [publishCopy_eq]
  exact copy.setpoint.into_self ..

/-- A value found in the temperature latch is published whatever its age. -/
theorem publishCopy_measuredValue (dirty : (copy.temp .supply).dirty = true) :
    (publishCopy now linkUp copy x).attrs.measuredValue .supply = (copy.temp .supply).val := by
  rw [publishCopy_eq]
  change (publishTemp now copy x .supply).attrs.measuredValue .supply = _
  rw [publishTemp, if_pos dirty]
  simp [writeMeasuredValue, tempEpId]

theorem publishCopy_analogInput (ch : AnalogChannel) :
    (publishCopy now linkUp copy x).attrs.analogInput (analogEpId ch) =
      if (copy.analog ch).dirty then (copy.analog ch).val
        else x.attrs.analogInput (analogEpId ch) := by
  rw [publishCopy_eq]
  refine (Latch.allInto_apply copy.analog analogEpId_injective _ ch _).trans ?_
  simp only [mem_analogChannels, true_and]

theorem publishCopy_binaryInput (ch : BinaryChannel) :
    (publishCopy now linkUp copy x).attrs.binaryInput (binaryEpId ch) =
      if (copy.binary ch).dirty then (copy.binary ch).val
        else x.attrs.binaryInput (binaryEpId ch) := by
  have apart : binaryEpId ch ≠ .setpoint := by cases ch <;> decide
  have table := Latch.allInto_apply copy.binary binaryEpId_injective binaryChannels ch
    x.attrs.binaryInput
  simp only [mem_binaryChannels, true_and] at table
  rw [publishCopy_eq, ← table]
  dsimp only
  split
  · rfl
  · exact Function.update_of_ne apart ..

/-- The connectivity input after a tick: the link's state, unless the cache
already held it. -/
theorem publishCopy_link : (publishCopy now linkUp copy x).attrs.binaryInput .setpoint =
    if x.cs60LinkState = some linkUp then x.attrs.binaryInput .setpoint else linkUp := by
  have apart : ∀ ch, Endpoint.setpoint ≠ binaryEpId ch := by intro ch; cases ch <;> decide
  rw [publishCopy_eq]
  dsimp only
  split
  · exact Latch.allInto_of_ne copy.binary binaryEpId _ apart _
  · exact Function.update_self ..

@[simp] theorem publishCopy_cs60LinkState :
    (publishCopy now linkUp copy x).cs60LinkState = some linkUp := by
  rw [publishCopy_eq]

end

end FlexitCs60.Zigbee
