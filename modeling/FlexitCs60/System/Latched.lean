import Mathlib.Data.List.Induction
import Mathlib.Tactic.Common

/-! One channel of a publisher. Setters latch a value and raise a dirty flag; the
publisher copies and clears it, and writes its copy out some time later. -/
namespace Latched
variable {A V : Type*}

/-- The latest entry of a history that yields something. -/
def latest (f : A → Option V) (history : List A) : Option V := history.reverse.findSome? f

theorem latest_concat (f : A → Option V) (history : List A) (a : A) :
    latest f (history ++ [a]) = (f a).or (latest f history) := by
  unfold latest
  rw [List.reverse_append, List.reverse_singleton, List.singleton_append, List.findSome?_cons]
  cases f a with
  | none => rfl
  | some v => rfl

theorem latest_filterMap {B : Type*} (view : A → Option B) (f : B → Option V) (history : List A) :
    latest f (history.filterMap view) = latest (fun a => (view a).bind f) history := by
  induction history using List.reverseRecOn with
  | nil => rfl
  | append_singleton before a ih =>
    rw [List.filterMap_append, latest_concat, ← ih]
    cases seen : view a with
    | none => simp [seen]
    | some b => simp [seen, latest_concat]

inductive Event (V : Type*) where
  | set (v : V)
  | copy
  | publish

/-- The value an event sets. -/
def Event.value? : Event V → Option V
  | .set v => some v
  | _ => none

structure Cell (V : Type*) where
  latched : V
  dirty : Bool
  /-- The value the publisher still has to write. -/
  copied : Option V
  shown : V

namespace Cell

def step (c : Cell V) : Event V → Cell V
  | .set v => { c with latched := v, dirty := true }
  | .copy => { c with dirty := false, copied := if c.dirty then some c.latched else c.copied }
  | .publish => { c with copied := none, shown := c.copied.getD c.shown }

def run (c : Cell V) (events : List (Event V)) : Cell V := events.foldl step c

/-- A value that was set is dirty, copied or shown. -/
structure Keeps (c : Cell V) (v : V) : Prop where
  latched : c.latched = v
  kept : c.dirty = true ∨ c.copied = some v ∨ c.copied = none ∧ c.shown = v

theorem keeps_set (c : Cell V) (v : V) : (c.step (.set v)).Keeps v := ⟨rfl, .inl rfl⟩

theorem Keeps.step {c : Cell V} {v : V} (keeps : c.Keeps v) {e : Event V}
    (other : e.value? = none) : (c.step e).Keeps v := by
  obtain ⟨latched, kept⟩ := keeps
  cases e with
  | set w => contradiction
  | copy =>
    refine ⟨latched, .inr ?_⟩
    cases dirty : c.dirty with
    | true => exact .inl (by simp only [Cell.step, dirty, if_true, latched])
    | false =>
      rw [dirty] at kept
      simp only [Cell.step, dirty, Bool.false_eq_true, if_false]
      exact kept.resolve_left (by decide)
  | publish =>
    refine ⟨latched, ?_⟩
    rcases kept with dirty | copied | ⟨nothing, shown⟩
    · exact .inl dirty
    · exact .inr (.inr ⟨rfl, by simp only [Cell.step, copied, Option.getD_some]⟩)
    · exact .inr (.inr ⟨rfl, by simp only [Cell.step, nothing, Option.getD_none, shown]⟩)

/-- No set value is lost on the way out. -/
theorem run_keeps (c : Cell V) (events : List (Event V)) {v : V}
    (last : latest Event.value? events = some v) : (c.run events).Keeps v := by
  induction events using List.reverseRecOn generalizing v with
  | nil => contradiction
  | append_singleton before e ih =>
    rw [run, List.foldl_append]
    change ((c.run before).step e).Keeps v
    rw [latest_concat] at last
    cases sets : e.value? with
    | none =>
      rw [sets, Option.none_or] at last
      exact (ih last).step sets
    | some w =>
      rw [sets, Option.some_or] at last
      cases e with
      | set u =>
        cases sets
        cases last
        exact keeps_set ..
      | _ => contradiction

theorem Keeps.run {c : Cell V} {v : V} (keeps : c.Keeps v) {events : List (Event V)}
    (silent : ∀ e ∈ events, e.value? = none) : (c.run events).Keeps v := by
  induction events generalizing c with
  | nil => exact keeps
  | cons e rest ih =>
    have later : ∀ e ∈ rest, e.value? = none := fun e member =>
      silent e (List.mem_cons_of_mem _ member)
    exact ih (keeps.step (silent e List.mem_cons_self)) later

/-- Without a set a clean channel stays clean. -/
theorem run_clean {c : Cell V} (clean : c.dirty = false) {events : List (Event V)}
    (silent : ∀ e ∈ events, e.value? = none) : (c.run events).dirty = false := by
  induction events generalizing c with
  | nil => exact clean
  | cons e rest ih =>
    have later : ∀ e ∈ rest, e.value? = none := fun e member =>
      silent e (List.mem_cons_of_mem _ member)
    refine ih ?_ later
    cases e with
    | set v => exact absurd (silent _ List.mem_cons_self) nofun
    | copy => rfl
    | publish => exact clean

/-- A clean channel with nothing to publish keeps what it shows. -/
theorem run_shown {c : Cell V} (clean : c.dirty = false) (nothing : c.copied = none)
    {events : List (Event V)} (silent : ∀ e ∈ events, e.value? = none) :
    (c.run events).shown = c.shown := by
  induction events generalizing c with
  | nil => rfl
  | cons e rest ih =>
    have later : ∀ e ∈ rest, e.value? = none := fun e member =>
      silent e (List.mem_cons_of_mem _ member)
    cases e with
    | set v => exact absurd (silent _ List.mem_cons_self) nofun
    | copy =>
      have same : c.step .copy = { c with dirty := false } := by
        simp only [Cell.step, clean, Bool.false_eq_true, if_false]
      exact (ih (c := c.step .copy) rfl (by rw [same]; exact nothing) later).trans (by rw [same])
    | publish =>
      have same : (c.step .publish).shown = c.shown := by
        simp only [Cell.step, nothing, Option.getD_none]
      exact (ih (c := c.step .publish) clean rfl later).trans same

/-- Once set no more, a value is shown after a copy and the publication that follows. -/
theorem Keeps.flushes {c : Cell V} {v : V} (keeps : c.Keeps v)
    {before during after : List (Event V)}
    (silent : ∀ e ∈ before ++ during ++ after, e.value? = none) :
    (c.run (before ++ [.copy] ++ during ++ [.publish] ++ after)).shown = v := by
  have first : ∀ e ∈ before, e.value? = none := fun e member => silent e (by simp [member])
  have second : ∀ e ∈ during, e.value? = none := fun e member => silent e (by simp [member])
  have third : ∀ e ∈ after, e.value? = none := fun e member => silent e (by simp [member])
  have split : c.run (before ++ [.copy] ++ during ++ [.publish] ++ after) =
      (((((c.run before).step .copy).run during).step .publish).run after) := by
    simp [Cell.run]
  have copied := ((keeps.run first).step (e := .copy) rfl).run second
  have clean : ((((c.run before).step .copy).run during)).dirty = false := run_clean rfl second
  have published := copied.step (e := .publish) rfl
  rw [split, run_shown (c := Cell.step _ .publish) clean rfl third]
  rcases published.kept with dirty | again | ⟨_, shown⟩
  · exact absurd (clean.symm.trans dirty) (by decide)
  · exact absurd again nofun
  · exact shown

/-- All that is still to be shown is what is shown. -/
structure Settled (c : Cell V) (v : V) : Prop where
  shown : c.shown = v
  latched : c.dirty = true → c.latched = v
  copied : ∀ w, c.copied = some w → w = v

theorem Settled.step {c : Cell V} {v : V} (settled : c.Settled v) {e : Event V}
    (other : e.value? = none) : (c.step e).Settled v := by
  obtain ⟨shown, latched, copied⟩ := settled
  cases e with
  | set w => contradiction
  | copy =>
    refine ⟨shown, fun dirty => absurd dirty Bool.false_ne_true, fun w same => ?_⟩
    change (if c.dirty then some c.latched else c.copied) = some w at same
    split at same
    · rename_i dirty
      exact (Option.some.inj same).symm.trans (latched dirty)
    · exact copied w same
  | publish =>
    refine ⟨?_, latched, nofun⟩
    change c.copied.getD c.shown = v
    cases due : c.copied with
    | none => exact shown
    | some w => exact copied w due

theorem Settled.run {c : Cell V} {v : V} (settled : c.Settled v) {events : List (Event V)}
    (silent : ∀ e ∈ events, e.value? = none) : (c.run events).Settled v := by
  induction events generalizing c with
  | nil => exact settled
  | cons e rest ih =>
    have later : ∀ e ∈ rest, e.value? = none := fun e member =>
      silent e (List.mem_cons_of_mem _ member)
    exact ih (settled.step (silent e List.mem_cons_self)) later

end Cell
end Latched
