import Mathlib.Data.List.Basic

/-!
# Readers

A reader is called with the size of a buffer and returns some elements, perhaps an
error, and its next state. `Delivers` says that a reader hands out a given list piece
by piece: as long as something is pending, every call with room for an element
returns a nonempty piece of it that fits, and no error. How the list is cut into
pieces is left to the reader.
-/

/-- One call of a reader with states `σ`, given the size of the buffer. -/
abbrev Reader (σ β ε : Type) := σ → Nat → (List β × Option ε) × σ

namespace Reader

variable {σ β ε : Type}

/-- The reader hands out `pending`, in order and with nothing lost or repeated. -/
def Delivers (read : Reader σ β ε) (pending : σ → List β) : Prop :=
  ∀ s n, 0 < n → pending s ≠ [] → ∃ piece s', read s n = ((piece, none), s') ∧ piece ≠ [] ∧
    piece.length ≤ n ∧ pending s = piece ++ pending s'

/-! ## A number of calls -/

/-- What `k` calls with buffers of the sizes `sizes 0`, `sizes 1`, … return together. -/
def readTimes (read : Reader σ β ε) : Nat → (Nat → Nat) → σ → Except ε (List β × σ)
  | 0, _, s => .ok ([], s)
  | k + 1, sizes, s =>
    match read s (sizes 0) with
    | ((_, some e), _) => .error e
    | ((piece, none), s) =>
      (read.readTimes k (fun i => sizes (i + 1)) s).map fun (rest, s) => (piece ++ rest, s)

/-- Calls with nonempty buffers get all that is pending: each call gets the next
    elements, and no more calls are needed than there are elements. -/
theorem Delivers.readTimes {read : Reader σ β ε} {pending : σ → List β}
    (h : read.Delivers pending) (s : σ) (sizes : Nat → Nat) (hsizes : ∀ i, 0 < sizes i) :
    ∃ k ≤ (pending s).length,
      (∃ s', read.readTimes k sizes s = .ok (pending s, s') ∧ pending s' = []) ∧
      ∀ j ≤ k, ∃ got s', read.readTimes j sizes s = .ok (got, s') ∧ j ≤ got.length ∧
        pending s = got ++ pending s' := by
  -- each call makes what is pending shorter
  induction hlen : (pending s).length using Nat.strongRecOn generalizing s sizes with
  | _ len ih =>
    by_cases hnil : pending s = []
    · refine ⟨0, Nat.zero_le _, ⟨s, by rw [hnil]; rfl, hnil⟩, ?_⟩
      intro j hj
      obtain rfl : j = 0 := by omega
      exact ⟨[], s, rfl, Nat.le_refl _, rfl⟩
    · obtain ⟨piece, s₁, hread, hpiece, -, hsplit⟩ := h s (sizes 0) (hsizes 0) hnil
      have hpos : 0 < piece.length := List.length_pos_iff.mpr hpiece
      have hsum : len = piece.length + (pending s₁).length := by
        rw [← hlen, hsplit, List.length_append]
      have hnext (j : Nat) (got : List β) (s' : σ)
          (hgot : read.readTimes j (fun i => sizes (i + 1)) s₁ = .ok (got, s')) :
          read.readTimes (j + 1) sizes s = .ok (piece ++ got, s') := by
        rw [Reader.readTimes, hread]
        simp [hgot, Except.map]
      obtain ⟨k, hk, ⟨s₂, hall, hdone⟩, hpart⟩ :=
        ih _ (by omega) s₁ (fun i => sizes (i + 1)) (fun i => hsizes (i + 1)) rfl
      refine ⟨k + 1, by omega, ⟨s₂, by rw [hnext k _ _ hall, ← hsplit], hdone⟩, ?_⟩
      intro j hj
      cases j with
      | zero => exact ⟨[], s, rfl, Nat.le_refl _, rfl⟩
      | succ j =>
        obtain ⟨got, s', hgot, hle, hrest⟩ := hpart j (by omega)
        refine ⟨piece ++ got, s', hnext j got s' hgot, ?_, ?_⟩
        · rw [List.length_append]
          omega
        · rw [hsplit, hrest, List.append_assoc]

/-! ## Reading up to a length -/

/-- What a loop of reads has when it ends. What comes together with an error is kept
    apart. -/
structure Filled (σ β ε : Type) where
  got : List β
  failed : Option (List β × ε)
  state : σ

/-- Read until `target` elements are there, with buffers of at most `most` elements and
    never for more than is missing. A reader may return nothing any number of times, so
    the rounds are bounded by `fuel`. -/
def fill (read : Reader σ β ε) (target most : Nat) :
    Nat → List β → σ → Option (Filled σ β ε)
  | 0, _, _ => none
  | fuel + 1, got, s =>
    if got.length < target then
      let want := min (target - got.length) most
      match read s want with
      | ((piece, some e), s) => some { got, failed := some (piece.take want, e), state := s }
      | ((piece, none), s) => read.fill target most fuel (got ++ piece.take want) s
    else some { got, failed := none, state := s }

/-- Enough being pending, exactly what is missing is read. -/
theorem Delivers.fill {read : Reader σ β ε} {pending : σ → List β} (h : read.Delivers pending)
    (target most : Nat) (hmost : 0 < most) (got : List β) (s : σ)
    (henough : target ≤ got.length + (pending s).length) :
    ∃ s', pending s' = (pending s).drop (target - got.length) ∧
      ∀ fuel, target - got.length < fuel → read.fill target most fuel got s =
        some { got := got ++ (pending s).take (target - got.length), failed := none,
               state := s' } := by
  -- the measure is what is missing
  induction hmiss : target - got.length using Nat.strongRecOn generalizing got s with
  | _ missing ih =>
    by_cases hlt : got.length < target
    · have hwant : 0 < min (target - got.length) most := by omega
      have hne : pending s ≠ [] := by
        intro hnil
        rw [hnil, List.length_nil] at henough
        omega
      obtain ⟨piece, s₁, hread, hpiece, hfits, hsplit⟩ := h s _ hwant hne
      have hpos : 0 < piece.length := List.length_pos_iff.mpr hpiece
      have hmiss' : target - (got ++ piece).length = missing - piece.length := by
        rw [List.length_append]
        omega
      obtain ⟨s₂, hrest, hfill⟩ := ih (missing - piece.length) (by omega) (got ++ piece) s₁
        (by rw [hsplit, List.length_append] at henough; rw [List.length_append]; omega) hmiss'
      have hle : piece.length ≤ missing := by omega
      refine ⟨s₂, ?_, ?_⟩
      · rw [hrest, hsplit, List.drop_append, List.drop_eq_nil_of_le hle, List.nil_append]
      · intro fuel hfuel
        obtain ⟨fuel, rfl⟩ := Nat.exists_eq_add_of_lt (Nat.lt_of_le_of_lt (Nat.zero_le _) hfuel)
        rw [Nat.zero_add, Reader.fill, if_pos hlt]
        simp only [hread, List.take_of_length_le hfits]
        rw [hfill fuel (by omega), hsplit, List.take_append, List.take_of_length_le hle,
          List.append_assoc]
    · have hzero : missing = 0 := by omega
      subst hzero
      refine ⟨s, rfl, ?_⟩
      intro fuel hfuel
      obtain ⟨fuel, rfl⟩ := Nat.exists_eq_add_of_lt hfuel
      rw [Nat.zero_add, Reader.fill, if_neg hlt, List.take_zero, List.append_nil]

end Reader
