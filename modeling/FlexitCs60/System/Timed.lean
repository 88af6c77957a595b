import FlexitCs60.System.Labelled
import Mathlib.Order.Monotone.Defs

/-! Runs of a labelled transition system whose events carry nondecreasing times. -/
namespace Timed
variable {T S A : Type*} [LE T] {step : T → S → A → S → Prop}

/-- From a state and the time it was reached at, through a list of timed events. -/
inductive Run (step : T → S → A → S → Prop) : T × S → List (T × A) → T × S → Prop where
  | refl (x) : Run step x [] x
  | next {now t : T} {s s' : S} {a : A} {rest : List (T × A)} {y : T × S} :
      now ≤ t → step t s a s' → Run step (t, s') rest y →
      Run step (now, s) ((t, a) :: rest) y

namespace Run
variable {x y z : T × S} {before after : List (T × A)}

theorem trans (first : Run step x before y) (second : Run step y after z) :
    Run step x (before ++ after) z := by
  induction first with
  | refl => exact second
  | next ordered head _ ih => exact .next ordered head (ih second)

theorem single {t later : T} {a : A} {s : S} (run : Run step x [(t, a)] (later, s)) :
    step t x.2 a s := by
  cases run with
  | next _ head rest =>
    cases rest
    exact head

theorem ordered {T : Type*} [Preorder T] {step : T → S → A → S → Prop} {x y : T × S}
    {events : List (T × A)} (run : Run step x events y) : x.1 ≤ y.1 := by
  induction run with
  | refl => exact le_refl _
  | next first _ _ ih => exact first.trans ih

/-- What every allowed event keeps, a run of allowed events keeps. -/
theorem keeps (P : S → Prop) (Allowed : T → A → Prop)
    (preserves : ∀ {t s a s'}, Allowed t a → step t s a s' → P s → P s')
    (run : Run step x before y) (allowed : ∀ e ∈ before, Allowed e.1 e.2) (initial : P x.2) :
    P y.2 := by
  induction run with
  | refl => exact initial
  | next _ head _ ih =>
    apply ih
    · exact fun e member => allowed e (List.mem_cons_of_mem _ member)
    · exact preserves (allowed _ (List.mem_cons_self ..)) head initial

theorem invariant (P : S → Prop) (preserves : ∀ {t s a s'}, step t s a s' → P s → P s')
    (run : Run step x before y) (initial : P x.2) : P y.2 :=
  run.keeps P (fun _ _ => True) (fun _ => preserves) (fun _ _ => trivial) initial

/-- What every step keeps of a state and the history behind it. -/
theorem history (P : List (T × A) → T × S → Prop)
    (preserves : ∀ {past now t s a s'}, now ≤ t → step t s a s' → P past (now, s) →
      P (past ++ [(t, a)]) (t, s'))
    (run : Run step x after y) (past : List (T × A)) (initial : P past x) :
    P (past ++ after) y := by
  induction run generalizing past with
  | refl => rwa [List.append_nil]
  | next ordered head _ ih =>
    rw [List.append_cons]
    exact ih _ (preserves ordered head initial)

theorem split {before after : List (T × A)} (run : Run step x (before ++ after) y) :
    ∃ m, Run step x before m ∧ Run step m after y := by
  induction before generalizing x with
  | nil => exact ⟨x, .refl x, run⟩
  | cons first before ih =>
    cases run with
    | next ordered head rest =>
      obtain ⟨m, earlier, later⟩ := ih rest
      exact ⟨m, .next ordered head earlier, later⟩

/-- A run replayed from a related state, no later than the first. -/
theorem replay {T S' : Type*} [Preorder T] {step : T → S → A → S → Prop}
    {step' : T → S' → A → S' → Prop} {R : S → S' → Prop}
    (follows : ∀ {t s a s' r}, step t s a s' → R s r → ∃ r', step' t r a r' ∧ R s' r')
    {x y : T × S} {events : List (T × A)} (run : Run step x events y) {now : T} {r : S'}
    (ordered : now ≤ x.1) (related : R x.2 r) :
    ∃ later r', later ≤ y.1 ∧ Run step' (now, r) events (later, r') ∧ R y.2 r' := by
  induction run generalizing now r with
  | refl => exact ⟨now, r, ordered, .refl _, related⟩
  | next first head _ ih =>
    obtain ⟨r', taken, related⟩ := follows head related
    obtain ⟨later, final, bound, rest, related⟩ := ih (le_refl _) related
    exact ⟨later, final, bound, .next (ordered.trans first) taken rest, related⟩

/-- A run seen through an abstraction of its states, where each action is an
action of the other system or none at all. -/
theorem project {T T' S' A' : Type*} [Preorder T] [Preorder T'] {step : T → S → A → S → Prop}
    {step' : T' → S' → A' → S' → Prop} {time : T → T'} (abs : S → S') (view : A → Option A')
    (monotone : Monotone time)
    (simulates : ∀ {t s a s'}, step t s a s' →
      match view a with
      | some b => step' (time t) (abs s) b (abs s')
      | none => abs s' = abs s)
    {x y : T × S} {events : List (T × A)} (run : Run step x events y) {now : T'}
    (ordered : now ≤ time x.1) :
    ∃ later ≤ time y.1, Run step' (now, abs x.2)
      (events.filterMap fun e => (view e.2).map (time e.1, ·)) (later, abs y.2) := by
  induction run generalizing now with
  | refl => exact ⟨now, ordered, .refl _⟩
  | @next _ t s s' a _ _ first head _ ih =>
    have taken := simulates head
    cases seen : view a with
    | none =>
      rw [seen] at taken
      obtain ⟨later, bound, rest⟩ := ih (ordered.trans (monotone first))
      refine ⟨later, bound, ?_⟩
      rw [List.filterMap_cons_none (by rw [seen]; rfl), ← show abs s' = abs s from taken]
      exact rest
    | some b =>
      rw [seen] at taken
      obtain ⟨later, bound, rest⟩ := ih (le_refl (time t))
      refine ⟨later, bound, ?_⟩
      rw [List.filterMap_cons_some (by rw [seen]; rfl)]
      exact .next (ordered.trans (monotone first)) taken rest

/-- The same without the times. -/
theorem untimed {S' A' : Type*} {step' : S' → A' → S' → Prop} (abs : S → S') (view : A → Option A')
    (simulates : ∀ {t s a s'}, step t s a s' →
      match view a with
      | some b => step' (abs s) b (abs s')
      | none => abs s' = abs s)
    (run : Run step x before y) :
    Labelled.Run step' (abs x.2) (before.filterMap fun e => view e.2) (abs y.2) := by
  induction run with
  | refl => exact .refl _
  | next _ head _ ih =>
    have taken := simulates head
    rw [List.filterMap_cons]
    dsimp only
    split
    · rename_i unseen
      rw [unseen] at taken
      rw [← show abs _ = abs _ from taken]
      exact ih
    · rename_i seen
      rw [seen] at taken
      exact .next taken ih

end Run
end Timed
