import HootLb.ForStd.List
import Mathlib.Data.List.AList
import Mathlib.Logic.Function.Basic

/-!
# Maps of references into a growing heap

A map whose values are positions in a heap that is only ever appended to or
modified in place. `deref` reads through the map; the lemmas say how the
dereferenced map changes when an object is allocated and bound to a key, when
unrelated objects are allocated, and when an object is modified in place.
-/

namespace RefMap

variable {κ α : Type} [DecidableEq κ]

/-- The object behind a key. -/
def deref (m : AList (fun _ : κ => Nat)) (heap : List α) (k : κ) : Option α :=
  (m.lookup k).bind fun r => heap[r]?

/-- Every reference of the map points into the heap. -/
def Valid (m : AList (fun _ : κ => Nat)) (heap : List α) : Prop :=
  ∀ k r, m.lookup k = some r → r < heap.length

/-- No two keys share an object. -/
def Injective (m : AList (fun _ : κ => Nat)) : Prop :=
  ∀ k k' r, m.lookup k = some r → m.lookup k' = some r → k = k'

theorem lookup_insert_eq {β : Type*} (m : AList (fun _ : κ => β)) (k k' : κ) (r : β) :
    (m.insert k r).lookup k' = if k' = k then some r else m.lookup k' := by
  by_cases h : k' = k
  · subst h; rw [AList.lookup_insert, if_pos rfl]
  · rw [AList.lookup_insert_ne h, if_neg h]

/-- A map filled by a loop over keyed values: the last value of a key stays. -/
theorem lookup_foldl_insert {β : Type} (key : β → κ) (l : List β) (k : κ) :
    (l.foldl (fun m b => m.insert (key b) b) (∅ : AList fun _ : κ => β)).lookup k =
      l.reverse.find? fun b => key b = k := by
  -- from any map: keys that do not occur keep their old entry
  suffices h : ∀ m : AList fun _ : κ => β,
      (l.foldl (fun m b => m.insert (key b) b) m).lookup k =
        ((l.reverse.find? fun b => key b = k) <|> m.lookup k) by
    rw [h ∅]
    cases l.reverse.find? fun b => key b = k <;> rfl
  induction l with
  | nil => intro m; rfl
  | cons b rest ih =>
    intro m
    rw [List.foldl_cons, ih, List.find?_reverse_cons, lookup_insert_eq]
    cases rest.reverse.find? fun b => key b = k with
    | some _ => rfl
    | none =>
      by_cases hk : key b = k
      · simp [hk]
      · simp [hk, Ne.symm hk]

/-- With different keys every value stays. -/
theorem lookup_foldl_insert_of_mem {β : Type} (key : β → κ) (l : List β)
    (hnd : (l.map key).Nodup) (b : β) (hb : b ∈ l) :
    (l.foldl (fun m b => m.insert (key b) b) (∅ : AList fun _ : κ => β)).lookup (key b) =
      some b := by
  rw [lookup_foldl_insert, List.find?_eq_of_unique _ b _ (List.mem_reverse.mpr hb)]
  · simp
  · intro x hx hkey
    exact List.inj_on_of_nodup_map hnd (List.mem_reverse.mp hx) hb (by simpa using hkey)

/-- The entries whose keys pass a test. -/
def filterKeys {β : Type} (keep : κ → Bool) (m : AList (fun _ : κ => β)) :
    AList (fun _ : κ => β) :=
  { entries := m.entries.filter fun e => keep e.1
    nodupKeys := m.nodupKeys.sublist List.filter_sublist }

theorem lookup_filterKeys {β : Type} (keep : κ → Bool) (m : AList (fun _ : κ => β)) (k : κ) :
    (filterKeys keep m).lookup k = if keep k then m.lookup k else none := by
  apply Option.ext
  intro b
  have hmem : (filterKeys keep m).lookup k = some b ↔ m.lookup k = some b ∧ keep k = true := by
    rw [← Option.mem_def, ← Option.mem_def, AList.mem_lookup_iff, AList.mem_lookup_iff]
    exact List.mem_filter
  by_cases hk : keep k = true
  · rw [hmem, if_pos hk, and_iff_left hk]
  · rw [hmem, if_neg hk]
    exact ⟨fun h => absurd h.2 hk, fun h => nomatch h⟩

theorem valid_empty (heap : List α) : Valid (∅ : AList (fun _ : κ => Nat)) heap :=
  fun _ _ h => nomatch h

theorem injective_empty : Injective (∅ : AList (fun _ : κ => Nat)) :=
  fun _ _ _ h => nomatch h

variable {m : AList (fun _ : κ => Nat)} {heap : List α}

/-- A key of a valid map has an object behind it. -/
theorem Valid.deref_isSome (h : Valid m heap) (k : κ) :
    (deref m heap k).isSome = (m.lookup k).isSome := by
  unfold deref
  cases hk : m.lookup k with
  | none => rfl
  | some r => simp [h k r hk]

theorem Valid.filterKeys (h : Valid m heap) (keep : κ → Bool) :
    Valid (filterKeys keep m) heap := by
  intro k r hk
  rw [lookup_filterKeys] at hk
  split at hk
  · exact h k r hk
  · exact nomatch hk

theorem Injective.filterKeys (hinj : Injective m) (keep : κ → Bool) :
    Injective (filterKeys keep m) := by
  intro k k' r hk hk'
  rw [lookup_filterKeys] at hk hk'
  split at hk
  · split at hk'
    · exact hinj k k' r hk hk'
    · exact nomatch hk'
  · exact nomatch hk

/-! ## Allocation -/

theorem Valid.append (h : Valid m heap) (extra : List α) : Valid m (heap ++ extra) := by
  intro k r hk
  have := h k r hk
  rw [List.length_append]
  omega

/-- Allocating other objects changes nothing. -/
theorem Valid.deref_append (h : Valid m heap) (extra : List α) :
    deref m (heap ++ extra) = deref m heap := by
  funext k
  unfold deref
  cases hk : m.lookup k with
  | none => rfl
  | some r => exact List.getElem?_append_left (h k r hk)

theorem Valid.alloc (h : Valid m heap) (k : κ) (a : α) :
    Valid (m.insert k heap.length) (heap ++ [a]) := by
  intro k' r hk'
  rw [lookup_insert_eq] at hk'
  split at hk'
  · cases hk'; simp
  · exact h.append [a] k' r hk'

theorem Injective.alloc (hinj : Injective m) (h : Valid m heap) (k : κ) :
    Injective (m.insert k heap.length) := by
  intro k₁ k₂ r h₁ h₂
  rw [lookup_insert_eq] at h₁ h₂
  split at h₁ <;> split at h₂
  · rename_i e₁ e₂; rw [e₁, e₂]
  · cases h₁; exact absurd (h k₂ _ h₂) (Nat.lt_irrefl _)
  · cases h₂; exact absurd (h k₁ _ h₁) (Nat.lt_irrefl _)
  · exact hinj k₁ k₂ r h₁ h₂

/-- Binding a key to a new object. -/
theorem Valid.deref_alloc (h : Valid m heap) (k : κ) (a : α) :
    deref (m.insert k heap.length) (heap ++ [a]) = Function.update (deref m heap) k (some a) := by
  funext k'
  by_cases hk : k' = k
  · subst hk
    simp [deref, AList.lookup_insert]
  · rw [Function.update_of_ne hk, ← h.deref_append [a]]
    simp only [deref, AList.lookup_insert_ne hk]

/-! ## Modification in place -/

theorem Valid.modify (h : Valid m heap) (r : Nat) (f : α → α) : Valid m (heap.modify r f) := by
  intro k r' hk
  rw [List.length_modify]
  exact h k r' hk

/-- Modifying an object changes what the keys that point at it read. -/
theorem deref_modify (m : AList (fun _ : κ => Nat)) (heap : List α) (r : Nat) (f : α → α) (k : κ) :
    deref m (heap.modify r f) k =
      if m.lookup k = some r then (deref m heap k).map f else deref m heap k := by
  unfold deref
  cases hk : m.lookup k with
  | none => rfl
  | some r' =>
    by_cases h : r = r'
    · subst h; simp
    · simp [h, Ne.symm h]

end RefMap
