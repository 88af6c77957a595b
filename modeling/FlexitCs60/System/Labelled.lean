import Mathlib.Tactic.Common

/-! Runs of a labelled transition system, and runs all of whose steps meet a
condition on the state before them. -/
namespace Labelled
variable {S A : Type*} {step : S → A → S → Prop}

/-- From a state through a list of actions. -/
inductive Run (step : S → A → S → Prop) : S → List A → S → Prop where
  | refl (s) : Run step s [] s
  | next {s t u : S} {a : A} {rest : List A} :
      step s a t → Run step t rest u → Run step s (a :: rest) u

/-- The steps that meet a condition. -/
def Guarded (meets : S → A → Prop) (step : S → A → S → Prop) (s : S) (a : A) (t : S) : Prop :=
  meets s a ∧ step s a t

namespace Run
variable {s t u : S} {before after : List A} {meets : S → A → Prop}

theorem trans (first : Run step s before t) (second : Run step t after u) :
    Run step s (before ++ after) u := by
  induction first with
  | refl => exact second
  | next head _ ih => exact .next head (ih second)

theorem invariant (P : S → Prop) (preserves : ∀ {s a t}, step s a t → P s → P t)
    (run : Run step s before t) (initial : P s) : P t := by
  induction run with
  | refl => exact initial
  | next head _ ih => exact ih (preserves head initial)

/-- What every step keeps of a state and the history behind it. -/
theorem history (P : List A → S → Prop)
    (preserves : ∀ {past s a t}, step s a t → P past s → P (past ++ [a]) t)
    (run : Run step s after t) (past : List A) (initial : P past s) : P (past ++ after) t := by
  induction run generalizing past with
  | refl => rwa [List.append_nil]
  | next head _ ih =>
    rw [List.append_cons]
    exact ih _ (preserves head initial)

theorem imp {step' : S → A → S → Prop} (weaker : ∀ {s a t}, step s a t → step' s a t)
    (run : Run step s before t) : Run step' s before t := by
  induction run with
  | refl => exact .refl _
  | next head _ ih => exact .next (weaker head) ih

theorem unguarded (run : Run (Guarded meets step) s before t) : Run step s before t :=
  run.imp fun guarded => guarded.2

/-- A measure that every step decreases bounds the length of a run. -/
theorem bounded (P : S → Prop) (measure : S → ℕ)
    (decreases : ∀ {s a t}, step s a t → P s → P t ∧ measure t < measure s)
    (run : Run step s before t) (initial : P s) : before.length + measure t ≤ measure s := by
  induction run with
  | refl => simp
  | next head _ ih =>
    obtain ⟨kept, less⟩ := decreases head initial
    have rest := ih kept
    rw [List.length_cons]
    omega

/-- A run seen through an abstraction of its states, where each action is a list
of actions of the other system. -/
theorem project {S' A' : Type*} {step' : S' → A' → S' → Prop} (abs : S → S') (view : A → List A')
    (simulates : ∀ {s a t}, step s a t → Run step' (abs s) (view a) (abs t))
    (run : Run step s before t) : Run step' (abs s) (before.flatMap view) (abs t) := by
  induction run with
  | refl => exact .refl _
  | next head _ ih =>
    rw [List.flatMap_cons]
    exact (simulates head).trans ih

end Run

/-! Histories whose entries are each accounted for by the ones before. -/

def Accounted {M : Type*} (due : List M → M → Prop) (history : List M) : Prop :=
  ∀ earlier m later, history = earlier ++ m :: later → due earlier m

theorem accounted_nil {M : Type*} (due : List M → M → Prop) : Accounted due [] := by
  intro earlier m later same
  simp at same

theorem Accounted.concat {M : Type*} {due : List M → M → Prop} {history : List M} {m : M}
    (accounted : Accounted due history) (last : due history m) :
    Accounted due (history ++ [m]) := by
  intro earlier n later same
  rcases List.eq_nil_or_concat later with rfl | ⟨before, final, rfl⟩
  · obtain ⟨front, back⟩ := List.append_inj' same rfl
    rw [← front, ← List.singleton_inj.mp back]
    exact last
  · rw [List.concat_eq_append, ← List.cons_append, ← List.append_assoc] at same
    exact accounted _ _ _ (List.append_inj' same rfl).1

theorem Accounted.init {M : Type*} {due : List M → M → Prop} {history : List M} {m : M}
    (accounted : Accounted due (history ++ [m])) : Accounted due history := by
  intro earlier n later same
  exact accounted earlier n (later ++ [m]) (by rw [same, List.append_assoc, List.cons_append])

end Labelled
