import FlexitCs60.System.Labelled

/-! A queue that producers fill and one work item empties. A producer puts first
and submits the item afterwards; submitting an item that runs queues it again. -/
namespace Mailbox
open Labelled
variable {α : Type*}

/-- Where the item's handler is. -/
inductive Handler where
  | idle
  | looping
  /-- It found nothing, and has yet to return. -/
  | returning
  deriving DecidableEq, Repr

structure State (α : Type*) where
  waiting : List α
  /-- How many producers have put and have yet to submit. -/
  submitting : Nat
  queued : Bool
  handler : Handler

inductive Act (α : Type*) where
  | put (items : List α)
  | submit
  | start
  | take (items : List α)
  | findNothing
  | finish

inductive Step (s : State α) : Act α → State α → Prop where
  | put (items : List α) : Step s (.put items)
      { s with waiting := s.waiting ++ items, submitting := s.submitting + 1 }
  | submit {others : Nat} : s.submitting = others + 1 →
      Step s .submit { s with submitting := others, queued := true }
  | start : s.queued = true → s.handler = .idle →
      Step s .start { s with queued := false, handler := .looping }
  | take {items rest : List α} : s.handler = .looping → s.waiting = items ++ rest →
      Step s (.take items) { s with waiting := rest }
  | findNothing : s.handler = .looping → s.waiting = [] →
      Step s .findNothing { s with handler := .returning }
  | finish : s.handler = .returning → Step s .finish { s with handler := .idle }

def empty : State α := ⟨[], 0, false, .idle⟩

/-- Nothing waits unseen: the item is queued or its handler loops, or a producer is
about to submit it. -/
def Awake (s : State α) : Prop :=
  s.waiting ≠ [] → s.queued = true ∨ s.handler = .looping ∨ 0 < s.submitting

theorem awake_step {s t : State α} {a : Act α} (step : Step s a t) (awake : Awake s) : Awake t := by
  intro some
  cases step with
  | put items => exact .inr (.inr (Nat.succ_pos _))
  | submit _ => exact .inl rfl
  | start _ _ => exact .inr (.inl rfl)
  | take looping _ => exact .inr (.inl looping)
  | findNothing _ nothing => exact absurd nothing some
  | finish returning =>
    rcases awake some with queued | looping | submitting
    · exact .inl queued
    · exact Handler.noConfusion (returning.symm.trans looping)
    · exact .inr (.inr submitting)

def Act.put? : Act α → List α
  | .put items => items
  | _ => []

def Act.taken? : Act α → List α
  | .take items => items
  | _ => []

theorem fifo_step {s t : State α} {a : Act α} {earlier taken : List α} (step : Step s a t)
    (fifo : earlier = taken ++ s.waiting) :
    earlier ++ a.put? = taken ++ a.taken? ++ t.waiting := by
  subst fifo
  cases step with
  | put items => simp [Act.put?, Act.taken?]
  | take running split => simp [Act.put?, Act.taken?, split]
  | submit _ | start _ _ | findNothing _ _ | finish _ => simp [Act.put?, Act.taken?]

variable {acts : List (Act α)} {s : State α}

theorem awake_run (run : Run Step empty acts s) : Awake s :=
  run.invariant Awake awake_step fun some => absurd rfl some

/-- What was put is what was taken and what still waits, in order. -/
theorem fifo_run (run : Run Step empty acts s) :
    acts.flatMap Act.put? = acts.flatMap Act.taken? ++ s.waiting := by
  refine run.history (fun past s => past.flatMap Act.put? = past.flatMap Act.taken? ++ s.waiting)
    ?_ [] rfl
  intro past s a t step fifo
  simpa using fifo_step step fifo

/-- Once the item is at rest and no producer is about to submit it, nothing waits. -/
theorem Awake.quiet (awake : Awake s) (submitted : s.submitting = 0) (unqueued : s.queued = false)
    (idle : s.handler = .idle) : s.waiting = [] := by
  by_contra some
  rcases awake some with queued | looping | submitting
  · exact Bool.noConfusion (unqueued.symm.trans queued)
  · exact Handler.noConfusion (idle.symm.trans looping)
  · exact Nat.lt_irrefl 0 (submitted ▸ submitting)

end Mailbox
