import HootLb.ForStd.List

/-!
# Traces of a transition function

A run of a transition function, written down with the state before and after each
step. Statements about what a step does in the light of everything that happened
before it quantify over the places `past ++ t :: rest` at which a trace can be cut.

Where a step may be impossible, a run is `foldlM` of the step function.
-/

/-- One step of a run. -/
structure Transition (σ α : Type) where
  before : σ
  action : α
  after : σ
  deriving DecidableEq

namespace Transition

variable {σ α : Type}

/-- The steps of a run from a state. -/
def trace (step : σ → α → σ) : σ → List α → List (Transition σ α)
  | _, [] => []
  | s, a :: run => ⟨s, a, step s a⟩ :: trace step (step s a) run

@[simp] theorem map_action_trace (step : σ → α → σ) (s : σ) (run : List α) :
    (trace step s run).map action = run := by
  induction run generalizing s with
  | nil => rfl
  | cons a run ih => rw [trace, List.map_cons, ih]

/-- A property of the state and of the steps so far that every step extends holds
    wherever the trace is cut. `P` is what is known of the steps of the run. -/
theorem trace_cut (step : σ → α → σ) (P : σ → α → Prop) (I : σ → List (Transition σ α) → Prop)
    (hstep : ∀ s past a, P s a → I s past → I (step s a) (past ++ [⟨s, a, step s a⟩])) (s : σ)
    (seen : List (Transition σ α)) (h : I s seen) (run : List α) (hrun : List.Along step P s run)
    (past : List (Transition σ α)) (t : Transition σ α) (rest : List (Transition σ α))
    (hcut : trace step s run = past ++ t :: rest) :
    I t.before (seen ++ past) ∧ P t.before t.action ∧ t.after = step t.before t.action := by
  induction run generalizing s seen past with
  | nil => exact absurd hcut (by simp [trace])
  | cons a run ih =>
    cases past with
    | nil =>
      obtain ⟨rfl, -⟩ := List.cons.inj hcut
      exact ⟨by simpa using h, hrun.1, rfl⟩
    | cons u past =>
      obtain ⟨rfl, htail⟩ := List.cons.inj hcut
      have hrest := ih (step s a) (seen ++ [⟨s, a, step s a⟩]) (hstep s seen a hrun.1 h) hrun.2
        past htail
      simpa using hrest

/-- Along an abstraction under which every step is one of `perform`, with the same answer, a
    run is a run of `perform`, and gives the same answers. -/
theorem trace_simulates {τ β : Type} (step : σ → α → σ) (out : σ → α → β)
    (perform : τ → α → β × τ) (abs : σ → τ) {I : σ → Prop} (hI : ∀ s a, I s → I (step s a))
    (hstep : ∀ s a, I s → (out s a, abs (step s a)) = perform (abs s) a)
    (run : List α) (s : σ) (h : I s) :
    abs (run.foldl step s) = run.foldl (fun t a => (perform t a).2) (abs s) ∧
      (trace step s run).map (fun t => out t.before t.action) =
        (trace (fun t a => (perform t a).2) (abs s) run).map fun t =>
          (perform t.before t.action).1 := by
  induction run generalizing s with
  | nil => exact ⟨rfl, rfl⟩
  | cons a run ih =>
    obtain ⟨hlast, houts⟩ := ih (step s a) (hI s a h)
    rw [trace, trace, List.map_cons, List.map_cons, List.foldl_cons, List.foldl_cons,
      ← hstep s a h]
    exact ⟨hlast, congrArg _ houts⟩

end Transition

/-- What every possible step keeps, every run keeps. -/
theorem List.foldlM_invariant {σ α : Type} {step : σ → α → Option σ} {I : σ → Prop}
    (hstep : ∀ s a s', I s → step s a = some s' → I s') (run : List α) (s s' : σ) (h : I s)
    (hrun : run.foldlM step s = some s') : I s' := by
  induction run generalizing s with
  | nil =>
    cases hrun
    exact h
  | cons a run ih =>
    rw [List.foldlM_cons] at hrun
    obtain ⟨next, hnext, hrest⟩ := Option.bind_eq_some_iff.mp hrun
    exact ih next (hstep s a next h hnext) hrest

/-- The same for the steps that meet a condition, which is known wherever the run is cut. -/
theorem List.foldlM_invariant_of_cuts {σ α : Type} {step : σ → α → Option σ} {I : σ → Prop}
    {P : σ → α → Prop} (hstep : ∀ s a s', I s → P s a → step s a = some s' → I s')
    (run : List α) (s s' : σ) (h : I s)
    (hcuts : ∀ past a rest t, run = past ++ a :: rest → past.foldlM step s = some t → P t a)
    (hrun : run.foldlM step s = some s') : I s' := by
  induction run generalizing s with
  | nil =>
    cases hrun
    exact h
  | cons a run ih =>
    rw [List.foldlM_cons] at hrun
    obtain ⟨next, hnext, hrest⟩ := Option.bind_eq_some_iff.mp hrun
    refine ih next (hstep s a next h (hcuts [] a run s rfl rfl) hnext) ?_ hrest
    intro past b rest t hcut hpast
    refine hcuts (a :: past) b rest t (by rw [hcut, List.cons_append]) ?_
    rw [List.foldlM_cons, hnext]
    exact hpast

/-- Steps of some kind can lead to a state with a property. -/
def CanReach {σ α : Type} (step : σ → α → Option σ) (kind : α → Bool) (Q : σ → Prop) (s : σ) :
    Prop :=
  ∃ run s', (∀ a ∈ run, kind a) ∧ List.foldlM step s run = some s' ∧ Q s'

namespace CanReach

variable {σ α : Type} {step : σ → α → Option σ} {kind : α → Bool} {Q : σ → Prop} {s : σ}

theorem here (h : Q s) : CanReach step kind Q s := ⟨[], s, by simp, rfl, h⟩

theorem next {a : α} {s' : σ} (hkind : kind a) (hstep : step s a = some s')
    (h : CanReach step kind Q s') : CanReach step kind Q s := by
  obtain ⟨run, t, hrun, hsteps, hQ⟩ := h
  refine ⟨a :: run, t, List.forall_mem_cons.mpr ⟨hkind, hrun⟩, ?_, hQ⟩
  rw [List.foldlM_cons, hstep]
  exact hsteps

/-- What the steps of this kind keep still holds there. -/
theorem of_invariant {I : σ → Prop} (hstep : ∀ s a s', I s → kind a → step s a = some s' → I s')
    (hI : I s) (h : CanReach step kind Q s) : ∃ s', I s' ∧ Q s' := by
  obtain ⟨run, s', hrun, hsteps, hQ⟩ := h
  refine ⟨s', List.foldlM_invariant_of_cuts hstep run s s' hI ?_ hsteps, hQ⟩
  rintro past a rest - rfl -
  exact hrun a (by simp)

end CanReach
