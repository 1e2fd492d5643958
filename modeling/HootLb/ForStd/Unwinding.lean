import Mathlib.Data.List.Basic

/-!
# Unwinding

When an observer of a deterministic machine sees only some of its actions, it may
be that the others do not matter to it: that the outputs it gets from a run are
those of the run with the other actions taken out. The argument is a relation
between the states that look the same to the observer, which an unseen action
does not leave and a seen one keeps, with the same output on both sides.
-/

namespace Unwinding

variable {σ α β : Type}

/-- The outputs of a run, from the actions that have one. -/
def outputs (step : σ → α → σ) (out : σ → α → Option β) : σ → List α → List β
  | _, [] => []
  | s, a :: run => (out s a).toList ++ outputs step out (step s a) run

/-- States that look the same to an observer of the actions in `sees`. -/
structure LooksSame (step : σ → α → σ) (out : σ → α → Option β) (sees : α → Bool)
    (R : σ → σ → Prop) : Prop where
  /-- An unseen action has no output and leaves the observer's view of the state. -/
  unseen : ∀ {s t : σ} {a : α}, R s t → sees a = false → out s a = none ∧ R (step s a) t
  /-- A seen one has the same output in states that look the same. -/
  seen : ∀ {s t : σ} {a : α}, R s t → sees a = true →
    out s a = out t a ∧ R (step s a) (step t a)

variable {step : σ → α → σ} {out : σ → α → Option β} {sees : α → Bool} {R : σ → σ → Prop}

/-- The outputs of a run are those of the actions that are seen. -/
theorem LooksSame.outputs_filter (h : LooksSame step out sees R) {s t : σ} (hst : R s t)
    (run : List α) : outputs step out s run = outputs step out t (run.filter sees) := by
  induction run generalizing s t with
  | nil => rfl
  | cons a run ih =>
    cases ha : sees a with
    | false =>
      obtain ⟨hout, hstep⟩ := h.unseen hst ha
      rw [List.filter_cons_of_neg (by simp [ha]), outputs, hout]
      exact ih hstep
    | true =>
      obtain ⟨hout, hstep⟩ := h.seen hst ha
      rw [List.filter_cons_of_pos ha, outputs, outputs, hout, ih hstep]

/-- Two runs with the same seen actions have the same outputs. -/
theorem LooksSame.outputs_congr (h : LooksSame step out sees R) {s t : σ} (hst : R s t)
    (ht : R t t) {run run' : List α} (hrun : run.filter sees = run'.filter sees) :
    outputs step out s run = outputs step out t run' := by
  rw [h.outputs_filter hst run, h.outputs_filter ht run', hrun]

end Unwinding
