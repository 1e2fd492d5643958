import Mathlib.Algebra.BigOperators.Group.List.Basic
import Mathlib.Algebra.Ring.Int.Defs
import Mathlib.Data.List.DropRight
import Mathlib.Data.List.Infix

/-!
# List lemmas

Facts about runs of equal elements, in-place modification, sums and left folds that
the standard library does not have.
-/

namespace List

variable {α β σ : Type}

/-! ## Runs of equal elements -/

/-- How many copies of `v` the list ends in. -/
def streak [BEq α] (v : α) (l : List α) : Nat := (l.rtakeWhile (· == v)).length

@[simp] theorem streak_nil [BEq α] (v : α) : streak v [] = 0 := by simp [streak]

section Streak

variable [BEq α] [LawfulBEq α]

@[simp] theorem streak_concat_self (v : α) (l : List α) :
    streak v (l ++ [v]) = streak v l + 1 := by
  simp [streak]

theorem streak_concat_of_ne (v w : α) (l : List α) (h : w ≠ v) : streak v (l ++ [w]) = 0 := by
  simp [streak, h]

/-- A list ends in `n` copies of `v` exactly when its streak is at least `n`. -/
theorem replicate_suffix_iff (n : Nat) (v : α) (l : List α) :
    replicate n v <:+ l ↔ n ≤ streak v l := by
  induction l using List.reverseRecOn generalizing n with
  | nil => simp
  | append_singleton l w ih =>
    cases n with
    | zero => simp
    | succ n =>
      rw [suffix_concat_iff, replicate_succ']
      by_cases hw : w = v
      · subst hw
        simp [ih]
      · rw [streak_concat_of_ne v w l hw]
        simp [Ne.symm hw]

/-- A run that appears when one element is appended was there before or ends at
    that element. -/
theorem replicate_infix_concat_iff (n : Nat) (v w : α) (l : List α) :
    replicate n v <:+: l ++ [w] ↔ replicate n v <:+: l ∨ n ≤ streak v (l ++ [w]) := by
  rw [infix_concat_iff, replicate_suffix_iff, or_comm]

end Streak

/-! ## Last match -/

/-- The last match of a list that has one more element in front. -/
theorem find?_reverse_cons (q : α → Bool) (a : α) (l : List α) :
    (a :: l).reverse.find? q = (l.reverse.find? q <|> if q a then some a else none) := by
  rw [reverse_cons, find?_append]
  cases h : q a <;> simp [h]

/-- A search that only one element can satisfy. -/
theorem find?_eq_of_unique (q : α → Bool) (a : α) (l : List α) (ha : a ∈ l)
    (hu : ∀ x ∈ l, q x → x = a) : l.find? q = if q a then some a else none := by
  cases h : l.find? q with
  | none => rw [if_neg (List.find?_eq_none.mp h a ha)]
  | some x =>
    obtain rfl := hu x (List.mem_of_find?_eq_some h) (List.find?_some h)
    rw [if_pos (List.find?_some h)]

/-! ## Sublists -/

/-- A part of a list without duplicates is what a filter by membership leaves. -/
theorem Nodup.filter_mem_sublist [BEq α] [LawfulBEq α] {l l' : List α} (h : l.Nodup)
    (hsub : l'.Sublist l) : (l.filter fun a => l'.contains a) = l' := by
  induction hsub with
  | slnil => rfl
  | @cons l₁ l₂ a hsub ih =>
    obtain ⟨ha, hnd⟩ := List.nodup_cons.mp h
    have hnot : a ∉ l₁ := fun hmem => ha (hsub.subset hmem)
    rw [List.filter_cons_of_neg (by simpa using hnot), ih hnd]
  | @cons_cons l₁ l₂ a hsub ih =>
    obtain ⟨ha, hnd⟩ := List.nodup_cons.mp h
    rw [List.filter_cons_of_pos (by simp)]
    congr 1
    refine (List.filter_congr fun x hx => ?_).trans (ih hnd)
    have hne : x ≠ a := fun heq => ha (heq ▸ hx)
    simp [hne]

/-! ## Modification -/

/-- Projection commutes with modification. -/
theorem map_modify (g : α → β) (f : α → α) (f' : β → β) (i : Nat) (l : List α)
    (h : ∀ a, g (f a) = f' (g a)) : (l.modify i f).map g = (l.map g).modify i f' := by
  apply List.ext_getElem?
  intro k
  simp only [getElem?_map, getElem?_modify]
  cases l[k]? with
  | none => rfl
  | some a => by_cases hk : i = k <;> simp [hk, h]

/-- Modifying an element in a way the projection does not see leaves the
    projected list alone. -/
theorem map_modify_eq_map (g : α → β) (f : α → α) (i : Nat) (l : List α)
    (h : ∀ a, g (f a) = g a) : (l.modify i f).map g = l.map g := by
  rw [map_modify g f id i l h, modify_id]

/-- Modification by a function that fixes the element does nothing. -/
theorem modify_of_fixed (f : α → α) (i : Nat) (l : List α) (h : ∀ a, l[i]? = some a → f a = a) :
    l.modify i f = l := by
  apply List.ext_getElem?
  intro k
  by_cases hk : i = k
  · subst hk
    rw [getElem?_modify_eq]
    cases ha : l[i]? with
    | none => rfl
    | some a => exact congrArg some (h a ha)
  · rw [getElem?_modify_ne f l hk]

/-- The first match, when it is the element that was modified. -/
theorem find?_modify_findIdx? {p : α → Bool} {f : α → α} (hp : ∀ a, p (f a) = p a) {i : Nat}
    {l : List α} (hi : l.findIdx? p = some i) : (l.modify i f).find? p = (l.find? p).map f := by
  induction l generalizing i with
  | nil => cases hi
  | cons a rest ih =>
    rw [findIdx?_cons] at hi
    split at hi
    · rename_i ha
      cases hi
      rw [modify_zero_cons, find?_cons_of_pos (by rw [hp]; exact ha), find?_cons_of_pos ha]
      rfl
    · rename_i ha
      obtain ⟨j, hj, rfl⟩ := Option.map_eq_some_iff.mp hi
      rw [modify_succ_cons, find?_cons_of_neg ha, find?_cons_of_neg ha, ih hj]

/-- A modified element that is filtered out before and after. -/
theorem filter_modify_of_not (p : α → Bool) (f : α → α) (i : Nat) (l : List α)
    (h : ∀ a, l[i]? = some a → p a = false ∧ p (f a) = false) :
    (l.modify i f).filter p = l.filter p := by
  induction l generalizing i with
  | nil => rw [modify_nil]
  | cons a rest ih =>
    cases i with
    | zero =>
      obtain ⟨hbefore, hafter⟩ := h a rfl
      rw [modify_zero_cons, filter_cons_of_neg (by simp [hafter]),
        filter_cons_of_neg (by simp [hbefore])]
    | succ i => rw [modify_succ_cons, filter_cons, filter_cons, ih i h]

/-! ## Runs of a transition function -/

/-- Invariant rule for a run: a property of the state and of the steps taken so
    far holds after the whole run when every step extends it. -/
theorem foldl_history (step : σ → α → σ) (I : σ → List α → Prop)
    (hstep : ∀ s past a, I s past → I (step s a) (past ++ [a])) (s : σ) (past run : List α)
    (h : I s past) : I (run.foldl step s) (past ++ run) := by
  induction run generalizing s past with
  | nil => simpa using h
  | cons a rest ih =>
    have := ih (step s a) (past ++ [a]) (hstep s past a h)
    simpa using this

/-! ## Partial maps -/

theorem mapM_option_eq_some_map (f : α → Option β) (g : α → β) (l : List α)
    (h : ∀ a ∈ l, f a = some (g a)) : l.mapM f = some (l.map g) := by
  induction l with
  | nil => rfl
  | cons a rest ih =>
    obtain ⟨ha, hrest⟩ := List.forall_mem_cons.mp h
    rw [mapM_cons, ha, ih hrest]
    rfl

theorem mapM_option_isSome (f : α → Option β) (l : List α) :
    (l.mapM f).isSome ↔ ∀ a ∈ l, (f a).isSome := by
  induction l with
  | nil => simp
  | cons a rest ih =>
    rw [List.forall_mem_cons, ← ih, mapM_cons]
    cases f a with
    | none => simp
    | some b => cases rest.mapM f <;> simp

/-- A map that tells the elements of two lists apart tells the lists apart. -/
theorem eq_of_map_eq_map (g : α → β) (l l' : List α)
    (hinj : ∀ a ∈ l, ∀ b ∈ l', g a = g b → a = b) (h : l.map g = l'.map g) : l = l' := by
  induction l generalizing l' with
  | nil => exact (List.map_eq_nil_iff.mp h.symm).symm
  | cons a rest ih =>
    cases l' with
    | nil => exact nomatch h
    | cons b rest' =>
      rw [map_cons, map_cons, List.cons.injEq] at h
      rw [hinj a mem_cons_self b mem_cons_self h.1,
        ih rest' (fun x hx y hy => hinj x (mem_cons_of_mem _ hx) y (mem_cons_of_mem _ hy)) h.2]

/-! ## Sums and counts -/

/-- Writing back what is there. -/
theorem set_of_getElem? {l : List α} {i : Nat} {a : α} (h : l[i]? = some a) : l.set i a = l := by
  obtain ⟨hlt, rfl⟩ := getElem?_eq_some_iff.mp h
  exact set_getElem_self hlt

/-- How a count changes with one element. -/
theorem countP_set_add {l : List α} {i : Nat} {a : α} (p : α → Bool) (b : α)
    (hi : l[i]? = some a) :
    (l.set i b).countP p + (if p a then 1 else 0) = l.countP p + (if p b then 1 else 0) := by
  obtain ⟨hlt, rfl⟩ := getElem?_eq_some_iff.mp hi
  rw [countP_set hlt]
  by_cases ha : p l[i] = true
  · have hpos : 0 < l.countP p := countP_pos_iff.mpr ⟨_, getElem_mem hlt, ha⟩
    simp only [ha, if_true]
    omega
  · simp only [ha, Bool.false_eq_true, if_false]
    omega

/-- Changing one term of a sum. -/
theorem sum_map_change [DecidableEq α] {l : List α} (hnd : l.Nodup) {a : α}
    (ha : a ∈ l) (f g : α → Int) (hfg : ∀ x ∈ l, x ≠ a → g x = f x) :
    (l.map g).sum = (l.map f).sum + (g a - f a) := by
  have hperm := perm_cons_erase ha
  rw [(hperm.map g).sum_eq, (hperm.map f).sum_eq, map_cons, map_cons, sum_cons,
    sum_cons]
  have hrest : (l.erase a).map g = (l.erase a).map f := by
    refine map_congr_left fun x hx => ?_
    obtain ⟨hne, hmem⟩ := (hnd.mem_erase_iff).mp hx
    exact hfg x hmem hne
  rw [hrest]
  omega

/-! ## Splitting -/

/-- Texts joined by a separator that is in none of them. -/
theorem map_ofList_splitOn_intercalate (sep : String) (c : Char) (hsep : sep.toList = [c])
    (pieces : List String) (hne : pieces ≠ []) (h : ∀ s ∈ pieces, c ∉ s.toList) :
    ((sep.intercalate pieces).toList.splitOn c).map String.ofList = pieces := by
  rw [String.toList_intercalate, hsep, splitOn_intercalate _ (by simpa using h)
    (by simpa using hne)]
  simp

/-- No piece of a split contains the separator. -/
theorem not_mem_of_mem_splitOn [BEq α] [LawfulBEq α] (x : α) (l piece : List α)
    (h : piece ∈ l.splitOn x) : x ∉ piece := by
  induction l generalizing piece with
  | nil =>
    rw [splitOn_nil, mem_singleton] at h
    simp [h]
  | cons a rest ih =>
    rw [splitOn_cons_eq_if_modifyHead] at h
    split at h
    · rcases mem_cons.mp h with rfl | h
      · simp
      · exact ih piece h
    · rename_i ha
      obtain ⟨first, others, hsplit⟩ := exists_cons_of_ne_nil (splitOn_ne_nil x rest)
      rw [hsplit, modifyHead_cons] at h
      rw [hsplit] at ih
      rcases mem_cons.mp h with rfl | h
      · have hfirst := ih first mem_cons_self
        simp only [mem_cons, not_or]
        exact ⟨by rintro rfl; simp at ha, hfirst⟩
      · exact ih piece (mem_cons_of_mem _ h)

/-- A text without the separator is a piece of what it was joined to. -/
theorem mem_splitOn_intercalate [BEq α] [LawfulBEq α] {x : α} {piece : List α}
    {pieces : List (List α)} (h : piece ∈ pieces) (hx : x ∉ piece) :
    piece ∈ ([x].intercalate pieces).splitOn x := by
  induction pieces with
  | nil => cases h
  | cons l rest ih =>
    cases rest with
    | nil =>
      obtain rfl := mem_singleton.mp h
      rw [intercalate_singleton, splitOn_eq_singleton hx]
      exact mem_singleton_self _
    | cons l' rest =>
      rw [intercalate_cons_cons, append_assoc, singleton_append, splitOn_append_cons_self]
      rcases mem_cons.mp h with rfl | h
      · rw [splitOn_eq_singleton hx]
        exact mem_append_left _ (mem_singleton_self _)
      · exact mem_append_right _ (ih h)

/-- Joined texts have a separator between any two of them, and no more than that
    exactly if none of them contains it. -/
theorem count_intercalate [BEq α] [LawfulBEq α] (c : α) (pieces : List (List α))
    (hne : pieces ≠ []) :
    pieces.length ≤ ([c].intercalate pieces).count c + 1 ∧
      (([c].intercalate pieces).count c + 1 = pieces.length ↔ ∀ l ∈ pieces, c ∉ l) := by
  induction pieces with
  | nil => exact absurd rfl hne
  | cons l rest ih =>
    cases rest with
    | nil => simp [intercalate, count_eq_zero]
    | cons l' rest =>
      obtain ⟨hle, hiff⟩ := ih (cons_ne_nil _ _)
      rw [forall_mem_cons, ← hiff, ← count_eq_zero, intercalate_cons_cons]
      simp only [count_append, count_singleton_self, length_cons] at hle ⊢
      omega

/-! ## Runs -/

/-- A condition on the state before a step and the step, at every step of a run. -/
def Along (step : σ → α → σ) (P : σ → α → Prop) : σ → List α → Prop
  | _, [] => True
  | s, a :: rest => P s a ∧ Along step P (step s a) rest

instance decidableAlong (step : σ → α → σ) (P : σ → α → Prop) [∀ s a, Decidable (P s a)] (s : σ) :
    (run : List α) → Decidable (Along step P s run)
  | [] => instDecidableTrue
  | a :: rest => @instDecidableAnd _ _ _ (decidableAlong step P (step s a) rest)

/-- What holds of all actions holds along the run. -/
theorem along_of_forall (step : σ → α → σ) (R : α → Prop) (s : σ) (run : List α)
    (h : ∀ a ∈ run, R a) : Along step (fun _ a => R a) s run := by
  induction run generalizing s with
  | nil => trivial
  | cons a rest ih =>
    obtain ⟨ha, hrest⟩ := List.forall_mem_cons.mp h
    exact ⟨ha, ih (step s a) hrest⟩

theorem along_trivial (step : σ → α → σ) (s : σ) (run : List α) :
    Along step (fun _ _ => True) s run :=
  along_of_forall step (fun _ => True) s run fun _ _ => trivial

/-- A run in two parts. -/
theorem along_append (step : σ → α → σ) (P : σ → α → Prop) (s : σ) (run run' : List α) :
    Along step P s (run ++ run') ↔ Along step P s run ∧ Along step P (run.foldl step s) run' := by
  induction run generalizing s with
  | nil => simp [Along]
  | cons a rest ih => simp [Along, ih, and_assoc]

/-- Conditions that agree where an invariant holds agree along every run from
    there, when one of them keeps the invariant. `R` is what is known of the
    actions of the run. -/
theorem along_iff (step : σ → α → σ) (P Q : σ → α → Prop) (R : α → Prop) (I : σ → Prop)
    (hstep : ∀ s a, R a → I s → Q s a → I (step s a))
    (h : ∀ s a, R a → I s → (P s a ↔ Q s a)) (s : σ) (hs : I s) (run : List α)
    (hrun : ∀ a ∈ run, R a) : Along step P s run ↔ Along step Q s run := by
  induction run generalizing s with
  | nil => exact Iff.rfl
  | cons a rest ih =>
    have ha : R a := hrun a mem_cons_self
    have hrest : ∀ b ∈ rest, R b := fun b hb => hrun b (mem_cons_of_mem a hb)
    constructor
    · intro hrun
      have hq : Q s a := (h s a ha hs).mp hrun.1
      exact ⟨hq, (ih (step s a) (hstep s a ha hs hq) hrest).mp hrun.2⟩
    · intro hrun
      exact ⟨(h s a ha hs).mpr hrun.1, (ih (step s a) (hstep s a ha hs hrun.1) hrest).mpr hrun.2⟩

/-- The same for an invariant that every step keeps. -/
theorem along_congr (step : σ → α → σ) (P Q : σ → α → Prop) (I : σ → Prop)
    (hstep : ∀ s a, I s → I (step s a)) (h : ∀ s a, I s → (P s a ↔ Q s a)) (s : σ) (hs : I s)
    (run : List α) : Along step P s run ↔ Along step Q s run :=
  along_iff step P Q (fun _ => True) I (fun s a _ hs _ => hstep s a hs) (fun s a _ => h s a) s hs
    run (fun _ _ => trivial)

/-- A property of the state after each step, against a condition on each step. -/
theorem along_next_iff (step : σ → α → σ) (P : σ → Prop) (Q : σ → α → Prop) (I : σ → Prop)
    (hstep : ∀ s a, I s → Q s a → I (step s a)) (h : ∀ s a, I s → (P (step s a) ↔ Q s a)) (s : σ)
    (hs : I s) (run : List α) :
    Along step (fun s a => P (step s a)) s run ↔ Along step Q s run :=
  along_iff step _ Q (fun _ => True) I (fun s a _ => hstep s a) (fun s a _ => h s a) s hs run
    (fun _ _ => trivial)

/-- Invariant rule for the runs that meet a condition at every step. -/
theorem foldl_along (step : σ → α → σ) (P : σ → α → Prop) (I : σ → Prop)
    (hstep : ∀ s a, I s → P s a → I (step s a)) (s : σ) (hs : I s) (run : List α)
    (hrun : Along step P s run) : I (run.foldl step s) := by
  induction run generalizing s with
  | nil => exact hs
  | cons a rest ih => exact ih (step s a) (hstep s a hs hrun.1) hrun.2

end List
