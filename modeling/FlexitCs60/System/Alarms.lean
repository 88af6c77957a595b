import Mathlib.Data.List.Basic

/-! A queue of one-shot alarms: each is a callback with the time it is due. A due
alarm is taken off the queue as it runs. -/
namespace Alarms
variable {C : Type*} [DecidableEq C]

abbrev Queue (C : Type*) := List (ℕ × C)

def schedule (queue : Queue C) (due : ℕ) (callback : C) : Queue C := queue ++ [(due, callback)]

def take (queue : Queue C) (due : ℕ) (callback : C) : Queue C := queue.erase (due, callback)

/-- When a callback is due, for each time it was scheduled. -/
def dues (queue : Queue C) (callback : C) : List ℕ :=
  queue.filterMap fun a => if a.2 = callback then some a.1 else none

variable (queue : Queue C) (due : ℕ) (callback other : C)

@[simp] theorem dues_schedule_self :
    dues (schedule queue due callback) callback = dues queue callback ++ [due] := by
  simp [dues, schedule]

theorem dues_schedule_other (differ : callback ≠ other) :
    dues (schedule queue due callback) other = dues queue other := by
  simp [dues, schedule, differ]

@[simp] theorem dues_take_self : dues (take queue due callback) callback =
    (dues queue callback).erase due := by
  induction queue with
  | nil => rfl
  | cons first rest ih =>
    obtain ⟨time, name⟩ := first
    unfold dues take at ih ⊢
    by_cases same : name = callback
    · subst same
      by_cases now : time = due
      · subst now
        simp
      · simp [now, ih]
    · simp [same, ih]

theorem dues_take_other (differ : callback ≠ other) :
    dues (take queue due callback) other = dues queue other := by
  induction queue with
  | nil => rfl
  | cons first rest ih =>
    obtain ⟨time, name⟩ := first
    unfold dues take at ih ⊢
    by_cases same : name = callback
    · subst same
      by_cases now : time = due
      · subst now
        simp [differ]
      · simp [now, differ, ih]
    · simp [same, List.filterMap_cons, ih]

theorem mem_dues {queue : Queue C} {due : ℕ} {callback : C} :
    due ∈ dues queue callback ↔ (due, callback) ∈ queue := by
  simp [dues]

/-- Nothing on the queue is due yet. -/
def Quiet (queue : Queue C) (now : ℕ) : Prop := ∀ a ∈ queue, now < a.1

theorem Quiet.before {queue : Queue C} {now : ℕ} (quiet : Quiet queue now) {due : ℕ} {callback : C}
    (pending : due ∈ dues queue callback) : now < due :=
  quiet _ (mem_dues.mp pending)

end Alarms
