import Mathlib.Data.List.Nodup
import Mathlib.Logic.Function.Basic

/-!
# Updaters of a shared cell

Any number of updaters share a cell. An updater looks at the cell once, and from
what it sees computes an answer and perhaps a new value. `SerialBy` says that the
updaters that have answered so far could have run one after another in a given
order. It is kept when an updater answers with what it computes from the present
value of the cell and leaves the new value there; how it came to do so, and what
it did before, does not matter.

## Key results

- `SerialBy.finish`: the next updater comes last in the order
- `SerialBy.split`, `runSerial_invariant`: what an updater leaves and no later one
  destroys is there in the end
-/

namespace AtomicCell

variable {ι V A : Type}

/-- What an updater makes of the value it sees: an answer, and a new value unless
    it leaves the cell alone. -/
abbrev Updater (V A : Type) := V → A × Option V

/-- An updater that runs undisturbed. -/
def Updater.run (u : Updater V A) (v : V) : A × V := ((u v).1, (u v).2.getD v)

/-- Updaters one after another, with their answers. -/
def runSerial (us : ι → Updater V A) : List ι → V → List (ι × A) × V
  | [], v => ([], v)
  | i :: rest, v =>
    let r := runSerial us rest ((us i).run v).2
    ((i, ((us i).run v).1) :: r.1, r.2)

theorem runSerial_append (us : ι → Updater V A) (a b : List ι) (v : V) :
    runSerial us (a ++ b) v =
      ((runSerial us a v).1 ++ (runSerial us b (runSerial us a v).2).1,
        (runSerial us b (runSerial us a v).2).2) := by
  induction a generalizing v with
  | nil => rfl
  | cons i rest ih => simp only [List.cons_append, runSerial, ih]

/-- What each updater of a list keeps, the list keeps. -/
theorem runSerial_invariant (us : ι → Updater V A) (P : V → Prop) (order : List ι)
    (hstep : ∀ i ∈ order, ∀ v, P v → P ((us i).run v).2) (v : V) (hv : P v) :
    P (runSerial us order v).2 := by
  induction order generalizing v with
  | nil => exact hv
  | cons i rest ih =>
    obtain ⟨hi, hrest⟩ := List.forall_mem_cons.mp hstep
    exact ih hrest ((us i).run v).2 (hi v hv)

/-- Only updaters that ran have answers. -/
private theorem mem_of_answer (us : ι → Updater V A) (order : List ι) (v : V) (i : ι) (a : A)
    (h : (i, a) ∈ (runSerial us order v).1) : i ∈ order := by
  induction order generalizing v with
  | nil => exact nomatch h
  | cons j rest ih =>
    rcases List.mem_cons.mp h with heq | hrest
    · rw [(Prod.mk.inj heq).1]
      exact List.mem_cons_self
    · exact List.mem_cons_of_mem _ (ih _ hrest)

/-- The cell and the answers given so far. -/
structure State (ι V A : Type) where
  cell : V
  answer : ι → Option A

/-- Running the updaters that have answered in this order explains the cell and
    all answers. -/
structure SerialBy (us : ι → Updater V A) (v₀ : V) (s : State ι V A) (order : List ι) : Prop where
  nodup : order.Nodup
  answered : ∀ i, i ∈ order ↔ (s.answer i).isSome
  cell : (runSerial us order v₀).2 = s.cell
  answers : ∀ i a, (i, a) ∈ (runSerial us order v₀).1 → s.answer i = some a

variable {us : ι → Updater V A} {v₀ : V} {s : State ι V A} {order : List ι}

theorem SerialBy.init (us : ι → Updater V A) (v₀ : V) :
    SerialBy us v₀ { cell := v₀, answer := fun _ => none } [] :=
  ⟨List.nodup_nil, fun _ => by simp, rfl, fun _ _ h => nomatch h⟩

/-- An updater that answers with what it computes from the present value comes
    last in the order. -/
theorem SerialBy.finish [DecidableEq ι] (h : SerialBy us v₀ s order) (i : ι) (a : A) (v : V)
    (hi : s.answer i = none) (hrun : (us i).run s.cell = (a, v)) :
    SerialBy us v₀ { cell := v, answer := Function.update s.answer i (some a) } (order ++ [i]) := by
  have hnot : i ∉ order := by
    rw [h.answered i, hi]
    simp
  have hserial : runSerial us (order ++ [i]) v₀ = ((runSerial us order v₀).1 ++ [(i, a)], v) := by
    rw [runSerial_append, h.cell]
    simp only [runSerial, hrun]
  refine ⟨?_, fun j => ?_, by rw [hserial], fun j b hj => ?_⟩
  · rw [← List.concat_eq_append]
    exact h.nodup.concat hnot
  · dsimp only
    by_cases hji : j = i
    · subst hji
      simp
    · rw [Function.update_of_ne hji, ← h.answered j]
      simp [hji]
  · dsimp only
    rw [hserial] at hj
    rcases List.mem_append.mp hj with hold | hnew
    · -- an earlier answer, of another updater
      have hji : j ≠ i := by
        rintro rfl
        exact hnot (mem_of_answer us order v₀ j b hold)
      rw [Function.update_of_ne hji]
      exact h.answers j b hold
    · obtain ⟨rfl, rfl⟩ := Prod.mk.inj (List.mem_singleton.mp hnew)
      rw [Function.update_self]

/-- An updater answered from some value of the cell, and the later ones went on
    from what it left. -/
theorem SerialBy.split {i : ι} {before after : List ι}
    (h : SerialBy us v₀ s (before ++ i :: after)) :
    ∃ v, s.answer i = some ((us i).run v).1 ∧
      s.cell = (runSerial us after ((us i).run v).2).2 := by
  have hserial := runSerial_append us before (i :: after) v₀
  refine ⟨(runSerial us before v₀).2, h.answers i _ ?_, ?_⟩
  · rw [hserial]
    exact List.mem_append_right _ List.mem_cons_self
  · rw [← h.cell, hserial]
    rfl

end AtomicCell
