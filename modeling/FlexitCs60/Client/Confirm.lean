import FlexitCs60.Client.Values
import Mathlib.Data.List.Induction
import Mathlib.Tactic.Common

/-! Which image `confirm` makes permanent, from a decoded image-state response. -/
namespace FlexitCs60.Client

inductive HashError where
  | nonInteger
  | unexpectedType
  deriving DecidableEq, Repr

inductive SlotError where
  | noImages
  | imagesType
  | slot (slot : UInt64) (e : HashError)
  deriving DecidableEq, Repr

structure ImageSlot where
  slot : UInt64
  hash : List UInt8
  active : Bool
  confirmed : Bool
  pending : Bool
  permanent : Bool
  deriving DecidableEq, Repr

/-- A hash array, each element cut to a byte. -/
def byteArray : List Value → Except HashError (List UInt8)
  | [] => .ok []
  | .uint n :: rest => (byteArray rest).map (n.toUInt8 :: ·)
  | _ :: _ => .error .nonInteger

def toByteSlice : Option Value → Except HashError (List UInt8)
  | some (.bytes val) => .ok val
  | some (.list val) => byteArray val
  | _ => .error .unexpectedType

/-- `get` on an entry that is a map. -/
def getter : Value → Option (String → Option Value)
  | .textMap e => some fun k => e.lookup k
  | .anyMap e => some fun k => lookupAny k e
  | _ => none

def flag (get : String → Option Value) (k : String) : Bool :=
  match get k with
  | some (.bool b) => b
  | _ => false

/-- `get("slot").(uint64)`, zero where that fails. -/
def slotOf (get : String → Option Value) : UInt64 :=
  match get "slot" with
  | some (.uint n) => n
  | _ => 0

def parseEntry (get : String → Option Value) : Except SlotError ImageSlot :=
  match toByteSlice (get "hash") with
  | .error e => .error (.slot (slotOf get) e)
  | .ok hash => .ok {
      slot := slotOf get
      hash
      active := flag get "active"
      confirmed := flag get "confirmed"
      pending := flag get "pending"
      permanent := flag get "permanent" }

/-- The entries in order, those that are no maps passed over. -/
def parseEntries : List Value → Except SlotError (List ImageSlot)
  | [] => .ok []
  | img :: rest =>
    match getter img with
    | none => parseEntries rest
    | some get =>
      match parseEntry get with
      | .error e => .error e
      | .ok slot => (parseEntries rest).map (slot :: ·)

def parseImageSlots (m : List (String × Value)) : Except SlotError (List ImageSlot) :=
  match m.lookup "images" with
  | none => .error .noImages
  | some (.list list) => parseEntries list
  | some _ => .error .imagesType

/-- The last entry of slot 0. -/
def running (slots : List ImageSlot) : Option ImageSlot :=
  slots.foldl (fun running s => if s.slot = 0 then some s else running) none

/-- Where `cmdConfirm` ends: in a refusal, with nothing to do, or with a request. -/
inductive Confirm where
  | slotsFailed (e : SlotError)
  | noRunning
  | inSlot (slot : UInt64)
  | notOnDevice
  | notActive
  | alreadyConfirmed
  | imageConfirm (hash : List UInt8)
  deriving DecidableEq, Repr

/-- Why a hash that is not running is refused. -/
def notRunning (slots : List ImageSlot) (hash : List UInt8) : Confirm :=
  match slots.find? fun s => s.slot ≠ 0 ∧ s.hash = hash with
  | some s => .inSlot s.slot
  | none => .notOnDevice

def cmdConfirm (m : List (String × Value)) (hash : List UInt8) : Confirm :=
  match parseImageSlots m with
  | .error e => .slotsFailed e
  | .ok slots =>
    match running slots with
    | none => .noRunning
    | some running =>
      if running.hash ≠ hash then notRunning slots hash
      else if !running.active then .notActive
      else if running.confirmed then .alreadyConfirmed
      else .imageConfirm hash

/-- The running entry is the last of those with slot 0. -/
theorem running_eq (slots : List ImageSlot) :
    running slots = (slots.filter fun s => s.slot = 0).getLast? := by
  induction slots using List.reverseRecOn with
  | nil => rfl
  | append_singleton slots s ih =>
    rw [running, List.foldl_append, ← running, ih, List.filter_append]
    by_cases zero : s.slot = 0
    · simp [zero]
    · simp [zero]

theorem mem_of_running {slots : List ImageSlot} {s : ImageSlot} (last : running slots = some s) :
    s ∈ slots ∧ s.slot = 0 := by
  rw [running_eq] at last
  simpa using List.mem_of_getLast? last

/-- A parsed entry comes from a map of the list. -/
theorem parseEntries_mem {list : List Value} {slots : List ImageSlot} {s : ImageSlot}
    (parsed : parseEntries list = .ok slots) (among : s ∈ slots) :
    ∃ img ∈ list, ∃ get, getter img = some get ∧ parseEntry get = .ok s := by
  induction list generalizing slots with
  | nil =>
    obtain rfl := Except.ok.inj parsed
    simp at among
  | cons img rest ih =>
    rw [parseEntries] at parsed
    cases map : getter img with
    | none =>
      rw [map] at parsed
      obtain ⟨img', mem, found⟩ := ih parsed among
      exact ⟨img', List.mem_cons_of_mem _ mem, found⟩
    | some get =>
      rw [map] at parsed
      cases entry : parseEntry get with
      | error e => simp [entry] at parsed
      | ok slot =>
        simp only [entry] at parsed
        cases later : parseEntries rest with
        | error e => simp [later, Except.map] at parsed
        | ok out =>
          rw [later] at parsed
          obtain rfl := Except.ok.inj parsed
          rcases List.mem_cons.mp among with rfl | behind
          · exact ⟨img, List.mem_cons_self, get, map, entry⟩
          · obtain ⟨img', mem, found⟩ := ih later behind
            exact ⟨img', List.mem_cons_of_mem _ mem, found⟩

theorem parseEntry_ok {get : String → Option Value} {s : ImageSlot}
    (parsed : parseEntry get = .ok s) : s.slot = slotOf get ∧ toByteSlice (get "hash") = .ok s.hash := by
  rw [parseEntry] at parsed
  cases hash : toByteSlice (get "hash") with
  | error e => simp [hash] at parsed
  | ok bytes =>
    simp only [hash] at parsed
    obtain rfl := Except.ok.inj parsed
    exact ⟨rfl, rfl⟩

theorem notRunning_ne (slots : List ImageSlot) (hash other : List UInt8) :
    notRunning slots hash ≠ .imageConfirm other := by
  rw [notRunning]
  cases slots.find? fun s => s.slot ≠ 0 ∧ s.hash = hash with
  | none => simp
  | some s => simp

theorem cmdConfirm_eq {m : List (String × Value)} {hash : List UInt8} {slots : List ImageSlot}
    {s : ImageSlot} (parsed : parseImageSlots m = .ok slots) (last : running slots = some s) :
    cmdConfirm m hash = if s.hash ≠ hash then notRunning slots hash
      else if !s.active then .notActive
      else if s.confirmed then .alreadyConfirmed
      else .imageConfirm hash := by
  simp only [cmdConfirm, parsed, last]

theorem imageConfirm_iff (m : List (String × Value)) (hash other : List UInt8) :
    cmdConfirm m hash = .imageConfirm other ↔ other = hash ∧ ∃ slots last,
      parseImageSlots m = .ok slots ∧ running slots = some last ∧ last.hash = hash ∧
        last.active = true ∧ last.confirmed = false := by
  constructor
  · intro confirmed
    cases parsed : parseImageSlots m with
    | error e => simp [cmdConfirm, parsed] at confirmed
    | ok slots =>
      cases last : running slots with
      | none => simp [cmdConfirm, parsed, last] at confirmed
      | some s =>
        rw [cmdConfirm_eq parsed last] at confirmed
        split_ifs at confirmed with differs inactive done
        · exact absurd confirmed (notRunning_ne slots hash other)
        · refine ⟨(Confirm.imageConfirm.inj confirmed).symm, slots, s, rfl, last, ?_, ?_, ?_⟩
          · exact not_not.mp differs
          · simpa using inactive
          · simpa using done
  · rintro ⟨rfl, slots, s, parsed, last, same, active, unconfirmed⟩
    rw [cmdConfirm_eq parsed last, if_neg (not_not.mpr same), active, unconfirmed]
    rfl

/-- A response confirms a hash exactly when its last entry of slot 0 has that hash, is
active and is not confirmed yet. A hash that stands only beside other slots is never
confirmed. -/
theorem confirms_running (m : List (String × Value)) (hash : List UInt8) :
    (cmdConfirm m hash = .imageConfirm hash ↔ ∃ slots last, parseImageSlots m = .ok slots ∧
      (slots.filter fun s => s.slot = 0).getLast? = some last ∧ last.hash = hash ∧
        last.active = true ∧ last.confirmed = false) ∧
    (∀ other, other ≠ hash → cmdConfirm m hash ≠ .imageConfirm other) ∧
    (∀ list, m.lookup "images" = some (.list list) →
      (∀ img ∈ list, ∀ get, getter img = some get → toByteSlice (get "hash") = .ok hash →
        ∃ n, get "slot" = some (.uint n) ∧ n ≠ 0) →
      ∀ other, cmdConfirm m hash ≠ .imageConfirm other) := by
  refine ⟨?_, ?_, ?_⟩
  · simp only [imageConfirm_iff, running_eq, true_and]
  · intro other differs confirmed
    exact differs ((imageConfirm_iff m hash other).mp confirmed).1
  · intro list images elsewhere other confirmed
    obtain ⟨-, slots, last, parsed, ran, same, -⟩ := (imageConfirm_iff m hash other).mp confirmed
    obtain ⟨among, zero⟩ := mem_of_running ran
    simp only [parseImageSlots, images] at parsed
    obtain ⟨img, mem, get, map, entry⟩ := parseEntries_mem parsed among
    obtain ⟨slot, bytes⟩ := parseEntry_ok entry
    obtain ⟨n, reported, nonzero⟩ := elsewhere img mem get map (by rw [bytes, same])
    rw [slotOf, reported] at slot
    exact nonzero (slot.symm.trans zero)

end FlexitCs60.Client
