import Mathlib.Logic.Basic

/-!
# Postconditions of computations that may fail

`x.Ends err post`: if `x` ends with a value, `post` holds of it, and if it ends with
an error, `err` holds of that. With `err` saying which errors are acceptable this is
partial correctness together with the absence of the other errors.

`exists_of_bind_eq_ok` takes apart a computation that is known to end with a value.
-/

namespace Except

variable {ε α β : Type} {err : ε → Prop} {post : α → Prop}

theorem exists_of_bind_eq_ok {x : Except ε α} {f : α → Except ε β} {b : β}
    (h : x >>= f = .ok b) : ∃ a, x = .ok a ∧ f a = .ok b := by
  cases x with
  | ok a => exact ⟨a, rfl, h⟩
  | error e => cases h

def Ends (err : ε → Prop) (post : α → Prop) : Except ε α → Prop
  | .ok a => post a
  | .error e => err e

namespace Ends

/-- One computation after the other. -/
theorem bind {x : Except ε α} {f : α → Except ε β} {Q : β → Prop} (hx : x.Ends err post)
    (hf : ∀ a, post a → (f a).Ends err Q) : (x >>= f).Ends err Q := by
  cases x with
  | ok a => exact hf a hx
  | error e => exact hx

theorem mono {x : Except ε α} {Q : α → Prop} (hx : x.Ends err post) (h : ∀ a, post a → Q a) :
    x.Ends err Q := by
  cases x with
  | ok a => exact h a hx
  | error e => exact hx

theorem ite {c : Prop} [Decidable c] {x y : Except ε α} (hx : c → x.Ends err post)
    (hy : ¬ c → y.Ends err post) : (if c then x else y).Ends err post := by
  by_cases hc : c
  · rw [if_pos hc]
    exact hx hc
  · rw [if_neg hc]
    exact hy hc

theorem mapError {ε' : Type} {err' : ε' → Prop} {x : Except ε α} {f : ε → ε'}
    (hx : x.Ends err post) (hf : ∀ e, err e → err' (f e)) : (x.mapError f).Ends err' post := by
  cases x with
  | ok a => exact hx
  | error e => exact hf e hx

theorem of_ok {x : Except ε α} {a : α} (hx : x.Ends err post) (h : x = .ok a) : post a := by
  rw [h] at hx
  exact hx

end Ends

end Except
