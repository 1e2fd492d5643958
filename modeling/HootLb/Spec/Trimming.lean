import HootLb.Native.GoString
import Mathlib.Data.List.Find

/-!
# Space around a byte string

`strings.TrimSpace` and `strings.TrimRight` on a text with no space around it, and how
such texts are put together. Space runes beyond ASCII have several bytes, and a text may
begin or end in the middle of what would be one together with its neighbour; next to a
byte of ASCII it cannot.

## Key results

- `trimmed_of_visible`, `not_beginsWithSpace_append`, `not_endsWithSpace_append`: where
  there is no space
- `trimSpace_of_trimmed`, `trimRight_of_trimmed`: trimming changes nothing there
- `count_trimSpace`: trimming takes away nothing that is visible
- `trimSpace_append_blanks`, `trimSpace_append_visible`: a text with something behind it
-/

namespace HootLb.GoString

/-- The text begins with a space rune. -/
def BeginsWithSpace (s : GoString) : Prop := ∃ r ∈ spaceRunes, r <+: s

/-- The text ends with a space rune. -/
def EndsWithSpace (s : GoString) : Prop := ∃ r ∈ spaceRunes, r <:+ s

/-- A text with no space around it. -/
structure Trimmed (s : GoString) : Prop where
  ne_nil : s ≠ []
  begins : ¬ BeginsWithSpace s
  ends : ¬ EndsWithSpace s

/-- A printable ASCII byte other than the space. -/
def isVisible (b : UInt8) : Bool := 33 ≤ b && b ≤ 126

/-- A byte of ASCII in a space rune is the whole rune, and it is not visible. -/
theorem spaceRune_byte {r : GoString} (hr : r ∈ spaceRunes) {b : UInt8} (hb : b ∈ r)
    (hlt : b < 128) : r = [b] ∧ isVisible b = false := by
  have hall : spaceRunes.all fun r =>
      r.all fun b => b ≥ 128 || r == [b] && !isVisible b := by decide
  have hbyte := List.all_eq_true.mp (List.all_eq_true.mp hall r hr) b hb
  simpa [UInt8.not_le.mpr hlt] using hbyte

theorem spaceRune_ne_nil : ∀ r ∈ spaceRunes, r ≠ [] := by decide

theorem lt_of_isVisible {b : UInt8} (h : isVisible b) : b < 128 := by
  simp only [isVisible, Bool.and_eq_true, decide_eq_true_eq] at h
  exact UInt8.lt_of_le_of_lt h.2 (by decide)

theorem spaceRune_not_visible {r : GoString} (hr : r ∈ spaceRunes) {b : UInt8} (hb : b ∈ r) :
    ¬ isVisible b := by
  intro hvisible
  rw [(spaceRune_byte hr hb (lt_of_isVisible hvisible)).2] at hvisible
  cases hvisible

theorem not_beginsWithSpace_visible {b : UInt8} (hb : isVisible b) (s : GoString) :
    ¬ BeginsWithSpace (b :: s) := by
  rintro ⟨r, hr, hpre⟩
  cases r with
  | nil => exact spaceRune_ne_nil _ hr rfl
  | cons c r =>
    obtain ⟨rfl, -⟩ := List.cons_prefix_cons.mp hpre
    exact spaceRune_not_visible hr List.mem_cons_self hb

theorem not_endsWithSpace_visible {b : UInt8} (hb : isVisible b) (s : GoString) :
    ¬ EndsWithSpace (s ++ [b]) := by
  rintro ⟨r, hr, hsuf⟩
  have hmem : b ∈ r := by
    have hlast := hsuf.getLast (spaceRune_ne_nil r hr)
    rw [List.getLast_concat] at hlast
    exact hlast ▸ List.getLast_mem _
  exact spaceRune_not_visible hr hmem hb

/-- No space rune reaches from a text over a byte of ASCII after it. -/
theorem not_beginsWithSpace_append {s : GoString} (hs : Trimmed s) {b : UInt8} (hb : b < 128)
    (rest : GoString) : ¬ BeginsWithSpace (s ++ b :: rest) := by
  rintro ⟨r, hr, hpre⟩
  obtain hle | ⟨t, rfl⟩ := List.prefix_or_prefix_of_prefix hpre (List.prefix_append s (b :: rest))
  · exact hs.begins ⟨r, hr, hle⟩
  · -- the rune would hold the whole text and the byte after it
    have ht : t <+: b :: rest := (List.prefix_append_right_inj s).mp hpre
    cases t with
    | nil => exact hs.begins ⟨_, hr, by simp⟩
    | cons c t =>
      obtain ⟨rfl, -⟩ := List.cons_prefix_cons.mp ht
      have hsingle := (spaceRune_byte hr (b := c) (by simp) hb).1
      simp [List.append_eq_singleton_iff, hs.ne_nil] at hsingle

/-- No space rune reaches from a text over a byte of ASCII before it. -/
theorem not_endsWithSpace_append {s : GoString} (hs : Trimmed s) {b : UInt8} (hb : b < 128)
    (front : GoString) : ¬ EndsWithSpace (front ++ b :: s) := by
  rintro ⟨r, hr, hsuf⟩
  -- the byte counted with the front, so that both texts end the whole
  have hsplit : front ++ b :: s = (front ++ [b]) ++ s := by simp
  rw [hsplit] at hsuf
  obtain hle | ⟨t, rfl⟩ := List.suffix_or_suffix_of_suffix hsuf
    (List.suffix_append (front ++ [b]) s)
  · exact hs.ends ⟨r, hr, hle⟩
  · obtain rfl | ⟨t, rfl, -⟩ := List.suffix_concat_iff.mp (List.suffix_append_self_iff.mp hsuf)
    · exact hs.ends ⟨_, hr, by simp⟩
    · have hsingle := (spaceRune_byte hr (b := b) (by simp) hb).1
      simp [List.append_eq_singleton_iff, hs.ne_nil] at hsingle

/-- A text that begins and ends with a visible byte. -/
theorem trimmed_of_visible {s : GoString} (hhead : s.head?.any isVisible)
    (hlast : s.getLast?.any isVisible) : Trimmed s := by
  have hne : s ≠ [] := by
    rintro rfl
    cases hhead
  refine ⟨hne, ?_, ?_⟩
  · obtain ⟨b, t, rfl⟩ := List.exists_cons_of_ne_nil hne
    exact not_beginsWithSpace_visible (by simpa using hhead) t
  · obtain ⟨t, b, rfl⟩ := (List.eq_nil_or_concat' s).resolve_left hne
    exact not_endsWithSpace_visible (by simpa using hlast) t

/-! ## Trimming -/

/-- None of the runes is at the front, so none is dropped. -/
theorem dropRunes_eq_self {runes : List GoString} {s : GoString} (n : Nat)
    (h : ∀ r ∈ runes, ¬ r <+: s) : dropRunes runes n s = s := by
  cases n with
  | zero => rfl
  | succ n =>
    have hnone : runes.find? (fun r => r.isPrefixOf s) = none := by
      rw [List.find?_eq_none]
      intro r hr
      rw [List.isPrefixOf_iff_prefix]
      exact h r hr
    rw [dropRunes, hnone]

theorem trimSpace_of_trimmed {s : GoString} (h : Trimmed s) : trimSpace s = s := by
  have hleft := dropRunes_eq_self s.length fun r hr hpre => h.begins ⟨r, hr, hpre⟩
  have hright : dropRunes (spaceRunes.map List.reverse) s.length s.reverse = s.reverse := by
    refine dropRunes_eq_self s.length (List.forall_mem_map.mpr fun r hr hpre => ?_)
    exact h.ends ⟨r, hr, List.reverse_prefix.mp hpre⟩
  unfold trimSpace
  dsimp only
  rw [hleft, hright, List.reverse_reverse]

theorem trimSpace_space (s : GoString) : trimSpace (32 :: s) = trimSpace s := by
  have hfind : spaceRunes.find? (fun r => r.isPrefixOf (32 :: s)) = some [32] := by
    simp [spaceRunes]
  unfold trimSpace
  rw [List.length_cons, dropRunes, hfind]
  rfl

theorem trimSpace_indented (n : Nat) (s : GoString) :
    trimSpace (List.replicate n 32 ++ s) = trimSpace s := by
  induction n with
  | zero => rfl
  | succ n ih => rw [List.replicate_succ, List.cons_append, trimSpace_space, ih]

theorem count_dropRunes {runes : List GoString} {b : UInt8} (hb : ∀ r ∈ runes, b ∉ r) (n : Nat)
    (s : GoString) : (dropRunes runes n s).count b = s.count b := by
  induction n generalizing s with
  | zero => rfl
  | succ n ih =>
    rw [dropRunes]
    cases hfind : runes.find? fun r => r.isPrefixOf s with
    | none => rfl
    | some r =>
      have hpre := List.find?_some (p := fun r : GoString => r.isPrefixOf s) hfind
      obtain ⟨t, rfl⟩ := List.isPrefixOf_iff_prefix.mp hpre
      dsimp only
      rw [List.drop_left, ih, List.count_append,
        List.count_eq_zero_of_not_mem (hb r (List.mem_of_find?_eq_some hfind)), Nat.zero_add]

/-- What is trimmed away is not visible. -/
theorem count_trimSpace {b : UInt8} (hb : isVisible b) (s : GoString) :
    (trimSpace s).count b = s.count b := by
  have hrunes : ∀ r ∈ spaceRunes, b ∉ r := fun r hr hmem => spaceRune_not_visible hr hmem hb
  unfold trimSpace
  dsimp only
  rw [List.count_reverse, count_dropRunes, List.count_reverse, count_dropRunes hrunes]
  intro r hr
  obtain ⟨r', hr', rfl⟩ := List.mem_map.mp hr
  rw [List.mem_reverse]
  exact hrunes r' hr'

/-- A text with a visible byte is not all space. -/
theorem trimSpace_ne_nil {b : UInt8} (hb : isVisible b) {s : GoString} (hmem : b ∈ s) :
    trimSpace s ≠ [] := by
  intro hnil
  have hcount := count_trimSpace hb s
  have hpos : 0 < s.count b := List.count_pos_iff.mpr hmem
  rw [hnil, List.count_nil] at hcount
  omega

theorem trimRight_of_trimmed {s cutset : GoString} (h : Trimmed s) (front : GoString)
    (hcut : cutset.all fun b => [b] ∈ spaceRunes) :
    trimRight (front ++ s) cutset = front ++ s := by
  obtain ⟨t, b, rfl⟩ := (List.eq_nil_or_concat' s).resolve_left h.ne_nil
  have hmem : b ∉ cutset := by
    intro hmem
    have hspace : [b] ∈ spaceRunes := by simpa using List.all_eq_true.mp hcut b hmem
    exact h.ends ⟨[b], hspace, List.suffix_append t [b]⟩
  unfold trimRight
  rw [← List.append_assoc, List.rdropWhile_concat_neg _ _ _ (by simpa using hmem)]

/-- A byte that is not trimmed protects what is before it. -/
theorem trimRight_append_cons {cutset : GoString} {b : UInt8} (hb : b ∉ cutset)
    (front rest : GoString) :
    trimRight (front ++ b :: rest) cutset = front ++ b :: trimRight rest cutset := by
  induction rest using List.reverseRecOn with
  | nil => exact List.rdropWhile_concat_neg _ _ _ (by simpa using hb)
  | append_singleton rest c ih =>
    unfold trimRight at ih ⊢
    rw [← List.cons_append, ← List.append_assoc, List.rdropWhile_concat, List.rdropWhile_concat,
      ih]
    split <;> simp

/-- What is trimmed at the end of a text. -/
theorem exists_trimRight_append (s cutset : GoString) :
    ∃ cut, s = trimRight s cutset ++ cut ∧ ∀ b ∈ cut, b ∈ cutset := by
  refine ⟨s.rtakeWhile fun b => b ∈ cutset, List.rdropWhile_append_rtakeWhile.symm, ?_⟩
  intro b hb
  simpa using List.mem_rtakeWhile_imp hb

theorem trimRight_idem (s cutset : GoString) :
    trimRight (trimRight s cutset) cutset = trimRight s cutset :=
  List.rdropWhile_idempotent _ s

/-- A part at the end of a text is trimmed as the text is. -/
theorem trimRight_of_append {front s cutset : GoString} (hs : s ≠ [])
    (h : trimRight (front ++ s) cutset = front ++ s) : trimRight s cutset = s := by
  unfold trimRight at h ⊢
  rw [List.rdropWhile_eq_self_iff] at h ⊢
  intro hne
  have hlast := h (List.append_ne_nil_of_right_ne_nil front hs)
  rwa [List.getLast_append_of_ne_nil _ hs] at hlast

/-! ## Text behind a text -/

/-- The spaces, tabs and carriage returns that are trimmed at the end of a line. -/
def isBlank (b : UInt8) : Bool := b = 9 || b = 13 || b = 32

theorem isBlank_of_mem {cutset : GoString} (hcut : cutset.all isBlank) {b : UInt8}
    (hb : b ∈ cutset) : isBlank b :=
  List.all_eq_true.mp hcut b hb

theorem lt_of_isBlank {b : UInt8} (h : isBlank b) : b < 128 := by
  simp only [isBlank, Bool.or_eq_true, decide_eq_true_eq] at h
  rcases h with (rfl | rfl) | rfl <;> decide

/-- Enough fuel is enough. -/
theorem dropRunes_fuel {runes : List GoString} (hne : ∀ r ∈ runes, r ≠ []) {n m : Nat}
    {s : GoString} (hn : s.length ≤ n) (hm : s.length ≤ m) :
    dropRunes runes n s = dropRunes runes m s := by
  have hnil (k : Nat) : dropRunes runes k [] = [] := by
    refine dropRunes_eq_self k fun r hr hpre => hne r hr ?_
    exact List.prefix_nil.mp hpre
  induction n generalizing m s with
  | zero =>
    obtain rfl : s = [] := List.length_eq_zero_iff.mp (by omega)
    rw [hnil, hnil]
  | succ n ih =>
    cases m with
    | zero =>
      obtain rfl : s = [] := List.length_eq_zero_iff.mp (by omega)
      rw [hnil, hnil]
    | succ m =>
      rw [dropRunes, dropRunes]
      cases hfind : runes.find? fun r => r.isPrefixOf s with
      | none => rfl
      | some r =>
        have hpos : 0 < r.length :=
          List.length_pos_iff.mpr (hne r (List.mem_of_find?_eq_some hfind))
        apply ih
        · rw [List.length_drop]
          omega
        · rw [List.length_drop]
          omega

/-- A text begins with the same space rune when something is behind it that begins with
    a byte of ASCII. -/
theorem spaceRune_prefix_append_iff {r s tail : GoString} (hr : r ∈ spaceRunes) (hs : s ≠ [])
    (htail : ∀ b ∈ tail.head?, b < 128) : r <+: s ++ tail ↔ r <+: s := by
  constructor
  · intro hpre
    obtain hle | ⟨t, rfl⟩ := List.prefix_or_prefix_of_prefix hpre (List.prefix_append s tail)
    · exact hle
    · cases t with
      | nil => exact (List.append_nil s).symm ▸ List.prefix_refl s
      | cons b t =>
        -- the rune would reach over the first byte behind the text
        have htl : b :: t <+: tail := (List.prefix_append_right_inj s).mp hpre
        obtain ⟨u, rfl⟩ := htl
        have hsingle := (spaceRune_byte hr (b := b) (by simp) (htail b rfl)).1
        simp [List.append_eq_singleton_iff, hs] at hsingle
  · intro hpre
    exact hpre.trans (List.prefix_append s tail)

/-- What is behind a text stays behind it when space is dropped from the front, unless
    all of the text is space. -/
theorem dropRunes_append {s tail : GoString} (htail : ∀ b ∈ tail.head?, b < 128) {n : Nat}
    (hn : s.length + tail.length ≤ n) :
    dropRunes spaceRunes n (s ++ tail) =
      if dropRunes spaceRunes s.length s = [] then dropRunes spaceRunes tail.length tail
      else dropRunes spaceRunes s.length s ++ tail := by
  induction n generalizing s with
  | zero =>
    obtain rfl : s = [] := List.length_eq_zero_iff.mp (by omega)
    obtain rfl : tail = [] := List.length_eq_zero_iff.mp (by omega)
    rfl
  | succ n ih =>
    cases s with
    | nil =>
      have hnil : dropRunes spaceRunes ([] : GoString).length [] = [] := rfl
      rw [List.nil_append, if_pos hnil]
      exact dropRunes_fuel spaceRune_ne_nil (by simpa using hn) (le_refl _)
    | cons b s =>
      have hfind : spaceRunes.find? (fun r => r.isPrefixOf (b :: s ++ tail)) =
          spaceRunes.find? fun r => r.isPrefixOf (b :: s) := by
        apply List.find?_congr
        intro r hr
        rw [Bool.eq_iff_iff, List.isPrefixOf_iff_prefix, List.isPrefixOf_iff_prefix]
        exact spaceRune_prefix_append_iff hr (List.cons_ne_nil b s) htail
      cases hcase : spaceRunes.find? fun r => r.isPrefixOf (b :: s) with
      | none =>
        have hself : dropRunes spaceRunes (b :: s).length (b :: s) = b :: s := by
          rw [List.length_cons, dropRunes, hcase]
        rw [dropRunes, hfind, hcase, hself, if_neg (List.cons_ne_nil b s)]
      | some r =>
        have hr := List.mem_of_find?_eq_some hcase
        have hpre := List.find?_some (p := fun r : GoString => r.isPrefixOf (b :: s)) hcase
        have hle : r.length ≤ (b :: s).length :=
          (List.isPrefixOf_iff_prefix.mp hpre).length_le
        have hpos : 0 < r.length := List.length_pos_iff.mpr (spaceRune_ne_nil r hr)
        have hlen : ((b :: s).drop r.length).length ≤ s.length := by
          rw [List.length_drop, List.length_cons]
          omega
        have hrest : dropRunes spaceRunes (b :: s).length (b :: s) =
            dropRunes spaceRunes ((b :: s).drop r.length).length ((b :: s).drop r.length) := by
          rw [List.length_cons, dropRunes, hcase]
          exact dropRunes_fuel spaceRune_ne_nil hlen (le_refl _)
        rw [dropRunes, hfind, hcase, hrest]
        dsimp only
        rw [List.drop_append_of_le_length hle]
        apply ih
        rw [List.length_cons] at hn
        omega

theorem dropRunes_suffix (runes : List GoString) (n : Nat) (s : GoString) :
    dropRunes runes n s <:+ s := by
  induction n generalizing s with
  | zero => exact List.suffix_refl s
  | succ n ih =>
    rw [dropRunes]
    cases runes.find? fun r => r.isPrefixOf s with
    | none => exact List.suffix_refl s
    | some r => exact (ih (s.drop r.length)).trans (List.drop_suffix r.length s)

/-- Blanks are dropped one by one. -/
theorem dropRunes_blanks {runes : List GoString} (hrunes : ∀ b, isBlank b → ∀ s,
      runes.find? (fun r => r.isPrefixOf (b :: s)) = some [b])
    {blanks : GoString} (hblanks : ∀ b ∈ blanks, isBlank b) (n : Nat) (s : GoString) :
    dropRunes runes (blanks.length + n) (blanks ++ s) = dropRunes runes n s := by
  induction blanks with
  | nil => rw [List.length_nil, Nat.zero_add, List.nil_append]
  | cons b blanks ih =>
    obtain ⟨hb, hrest⟩ := List.forall_mem_cons.mp hblanks
    rw [List.cons_append, List.length_cons, Nat.add_right_comm, dropRunes, hrunes b hb]
    exact ih hrest

theorem find?_blank {b : UInt8} (hb : isBlank b) (s : GoString) :
    spaceRunes.find? (fun r => r.isPrefixOf (b :: s)) = some [b] := by
  simp only [isBlank, Bool.or_eq_true, decide_eq_true_eq] at hb
  rcases hb with (rfl | rfl) | rfl <;> simp [spaceRunes]

theorem find?_blank_reverse {b : UInt8} (hb : isBlank b) (s : GoString) :
    (spaceRunes.map List.reverse).find? (fun r => r.isPrefixOf (b :: s)) = some [b] := by
  simp only [isBlank, Bool.or_eq_true, decide_eq_true_eq] at hb
  rcases hb with (rfl | rfl) | rfl <;> simp [spaceRunes]

/-- Blanks at the end are trimmed away with the rest of the space there. -/
theorem trimSpace_append_blanks (s : GoString) {blanks : GoString}
    (hblanks : ∀ b ∈ blanks, isBlank b) : trimSpace (s ++ blanks) = trimSpace s := by
  have hhead : ∀ b ∈ blanks.head?, b < 128 := fun b hb =>
    lt_of_isBlank (hblanks b (List.mem_of_mem_head? hb))
  have hall : dropRunes spaceRunes blanks.length blanks = [] := by
    have hdrop := dropRunes_blanks (fun b hb => find?_blank hb) hblanks 0 []
    rwa [Nat.add_zero, List.append_nil] at hdrop
  unfold trimSpace
  dsimp only
  rw [dropRunes_append hhead (by simp), hall]
  split
  · rename_i hnil
    rw [hnil]
  · rw [List.reverse_append, List.length_append, Nat.add_comm, ← List.length_reverse,
      dropRunes_blanks (fun b hb => find?_blank_reverse hb) (by simpa using hblanks)]

/-- A text behind which something ends in a visible byte keeps all but the space before
    it, and what is behind it. -/
theorem trimSpace_append_visible {s : GoString} (hs : trimSpace s ≠ []) {tail : GoString}
    (hhead : ∀ b ∈ tail.head?, b < 128) {b : UInt8} (hb : isVisible b) :
    ∃ space, trimSpace (s ++ (tail ++ [b])) = trimSpace s ++ space ++ (tail ++ [b]) := by
  have hhead' : ∀ c ∈ (tail ++ [b]).head?, c < 128 := by
    cases tail with
    | nil => simpa using lt_of_isVisible hb
    | cons c tail => simpa using hhead
  have hne : dropRunes spaceRunes s.length s ≠ [] := by
    intro hnil
    apply hs
    unfold trimSpace
    dsimp only
    rw [hnil]
    rfl
  -- the front is that of the text alone, and the end is visible
  obtain ⟨space, hspace⟩ : trimSpace s <+: dropRunes spaceRunes s.length s := by
    unfold trimSpace
    dsimp only
    rw [← List.reverse_suffix, List.reverse_reverse]
    exact dropRunes_suffix _ _ _
  refine ⟨space, ?_⟩
  rw [hspace]
  unfold trimSpace
  dsimp only
  rw [dropRunes_append hhead' (by simp), if_neg hne]
  generalize dropRunes spaceRunes s.length s = rest
  have hends : ¬ EndsWithSpace (rest ++ tail ++ [b]) := not_endsWithSpace_visible hb _
  rw [dropRunes_eq_self, List.reverse_reverse]
  refine List.forall_mem_map.mpr fun r hr hpre => ?_
  rw [← List.append_assoc] at hpre
  exact hends ⟨r, hr, List.reverse_prefix.mp hpre⟩

end HootLb.GoString
