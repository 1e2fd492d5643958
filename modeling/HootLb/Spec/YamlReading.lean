import HootLb.Native.Yaml

/-!
# What a document says

`Reads` is the grammar of the documents the parser is for: how a list of lines is
read as a tree, every line in its place. A block is a run of lines at one
indentation with deeper lines below them; an entry without an inline value may
have a block below it, and so may a bare dash; a sequence may stand at the
indentation of its key; an item that begins a mapping goes on two columns past
its dash. Keys are distinct within a mapping.

The parser finds every reading, with the fuel `parseYAML` gives it, and it never
runs out of fuel.

## Key results

- `Reads`: a list of lines as a tree
- `Reads.parseMapping`: the parser returns the reading of a mapping
- `parseYAML_isSome`: the parser is total
-/

namespace HootLb.Config

/-! ## The grammar -/

/-- What a list of lines is read as: the entries of a mapping, the items of a
    sequence, or what stands below a key or a dash that has no value of its own. -/
inductive Part where
  | entries
  | items
  | belowKey
  | belowDash

/-- The first line of a mapping that begins at a dash. -/
def RawLine.afterDash (l : RawLine) : RawLine :=
  { l with indent := l.indent + 2, content := itemText l.content }

/-- A list of lines as a tree, at an indentation. -/
inductive Reads : Part → Nat → List RawLine → Yaml → Prop where
  | noEntries (n : Nat) : Reads .entries n [] (.map [])
  | inlineEntry {l : RawLine} {key val : GoString} {rest : List RawLine}
      {es : List (GoString × Yaml)} (hitem : isSeqItem l.content = false)
      (hsplit : splitKeyVal l.content l.lineNo = .ok (key, some val))
      (hrest : Reads .entries l.indent rest (.map es)) (hfresh : key ∉ es.map Prod.fst) :
      Reads .entries l.indent (l :: rest) (.map ((key, .scalar (parseScalar val)) :: es))
  | entry {l : RawLine} {key : GoString} {sub rest : List RawLine} {v : Yaml}
      {es : List (GoString × Yaml)} (hitem : isSeqItem l.content = false)
      (hsplit : splitKeyVal l.content l.lineNo = .ok (key, none))
      (hsub : Reads .belowKey l.indent sub v)
      (hrest : Reads .entries l.indent rest (.map es)) (hfresh : key ∉ es.map Prod.fst) :
      Reads .entries l.indent (l :: (sub ++ rest)) (.map ((key, v) :: es))
  | noValue (n : Nat) : Reads .belowKey n [] (.scalar [])
  | mappingBelowKey {n m : Nat} {sub : List RawLine} {v : Yaml} (hlt : n < m) (hne : sub ≠ [])
      (hsub : Reads .entries m sub v) : Reads .belowKey n sub v
  | sequenceBelowKey {n m : Nat} {sub : List RawLine} {v : Yaml} (hle : n ≤ m) (hne : sub ≠ [])
      (hsub : Reads .items m sub v) : Reads .belowKey n sub v
  | noItems (n : Nat) : Reads .items n [] (.seq [])
  | scalarItem {l : RawLine} {rest : List RawLine} {vs : List Yaml}
      (hitem : isSeqItem l.content) (htext : itemText l.content ≠ [])
      (hscalar : looksLikeMapEntry (itemText l.content) = false)
      (hrest : Reads .items l.indent rest (.seq vs)) :
      Reads .items l.indent (l :: rest) (.seq (.scalar (parseScalar (itemText l.content)) :: vs))
  | mappingItem {l : RawLine} {sub rest : List RawLine} {v : Yaml} {vs : List Yaml}
      (hitem : isSeqItem l.content) (htext : itemText l.content ≠ [])
      (hentry : looksLikeMapEntry (itemText l.content))
      (hsub : Reads .entries (l.indent + 2) (l.afterDash :: sub) v)
      (hrest : Reads .items l.indent rest (.seq vs)) :
      Reads .items l.indent (l :: (sub ++ rest)) (.seq (v :: vs))
  | bareItem {l : RawLine} {sub rest : List RawLine} {v : Yaml} {vs : List Yaml}
      (hitem : isSeqItem l.content) (htext : itemText l.content = [])
      (hsub : Reads .belowDash l.indent sub v)
      (hrest : Reads .items l.indent rest (.seq vs)) :
      Reads .items l.indent (l :: (sub ++ rest)) (.seq (v :: vs))
  | noItem (n : Nat) : Reads .belowDash n [] .null
  | mappingBelowDash {n m : Nat} {sub : List RawLine} {v : Yaml} (hlt : n < m) (hne : sub ≠ [])
      (hsub : Reads .entries m sub v) : Reads .belowDash n sub v
  | sequenceBelowDash {n m : Nat} {sub : List RawLine} {v : Yaml} (hlt : n < m) (hne : sub ≠ [])
      (hsub : Reads .items m sub v) : Reads .belowDash n sub v

namespace Reads

/-- No line of a block stands to the left of it. -/
theorem le_indent {p : Part} {n : Nat} {lines : List RawLine} {v : Yaml} (h : Reads p n lines v) :
    ∀ l ∈ lines, n ≤ l.indent := by
  induction h with
  | noEntries n | noValue n | noItems n | noItem n =>
    intro l hl
    cases hl
  | inlineEntry hitem hsplit hrest hfresh ih =>
    exact List.forall_mem_cons.mpr ⟨le_refl _, ih⟩
  | scalarItem hitem htext hscalar hrest ih =>
    exact List.forall_mem_cons.mpr ⟨le_refl _, ih⟩
  | entry hitem hsplit hsub hrest hfresh ihsub ihrest =>
    exact List.forall_mem_cons.mpr ⟨le_refl _, List.forall_mem_append.mpr ⟨ihsub, ihrest⟩⟩
  | bareItem hitem htext hsub hrest ihsub ihrest =>
    exact List.forall_mem_cons.mpr ⟨le_refl _, List.forall_mem_append.mpr ⟨ihsub, ihrest⟩⟩
  | mappingItem hitem htext hentry hsub hrest ihsub ihrest =>
    refine List.forall_mem_cons.mpr ⟨le_refl _, List.forall_mem_append.mpr ⟨?_, ihrest⟩⟩
    intro l' hl'
    have hle := ihsub l' (List.mem_cons_of_mem _ hl')
    omega
  | mappingBelowKey hlt hne hsub ih | mappingBelowDash hlt hne hsub ih
  | sequenceBelowDash hlt hne hsub ih =>
    intro l hl
    exact le_trans (le_of_lt hlt) (ih l hl)
  | sequenceBelowKey hle hne hsub ih =>
    intro l hl
    exact le_trans hle (ih l hl)

/-- The first line of a mapping is an entry at its indentation. -/
theorem head_entries {p : Part} {n : Nat} {l : RawLine} {lines : List RawLine} {v : Yaml}
    (h : Reads p n (l :: lines) v) (hp : p = .entries) :
    l.indent = n ∧ isSeqItem l.content = false := by
  cases h with
  | inlineEntry hitem _ _ _ | entry hitem _ _ _ _ => exact ⟨rfl, hitem⟩
  | _ => cases hp

/-- The first line of a sequence is an item at its indentation. -/
theorem head_items {p : Part} {n : Nat} {l : RawLine} {lines : List RawLine} {v : Yaml}
    (h : Reads p n (l :: lines) v) (hp : p = .items) : l.indent = n ∧ isSeqItem l.content := by
  cases h with
  | scalarItem hitem _ _ _ | mappingItem hitem _ _ _ _ | bareItem hitem _ _ _ => exact ⟨rfl, hitem⟩
  | _ => cases hp

theorem entries_map {n : Nat} {lines : List RawLine} {v : Yaml} (h : Reads .entries n lines v) :
    ∃ es, v = .map es := by
  cases h with
  | noEntries n => exact ⟨_, rfl⟩
  | inlineEntry _ _ _ _ => exact ⟨_, rfl⟩
  | entry _ _ _ _ _ => exact ⟨_, rfl⟩

theorem items_seq {n : Nat} {lines : List RawLine} {v : Yaml} (h : Reads .items n lines v) :
    ∃ vs, v = .seq vs := by
  cases h with
  | noItems n => exact ⟨_, rfl⟩
  | scalarItem _ _ _ _ => exact ⟨_, rfl⟩
  | mappingItem _ _ _ _ _ => exact ⟨_, rfl⟩
  | bareItem _ _ _ _ => exact ⟨_, rfl⟩

end Reads

/-! ## One line of the parser -/

/-- What `parseMapping` does below a key without inline value. -/
def parseBelowKey (fuel : Nat) (lines : List RawLine) (indent : Nat) : Parsed Yaml :=
  match lines with
  | [] => some (.ok (.scalar [], []))
  | next :: more =>
    if next.indent > indent then parseValue fuel (next :: more) next.indent
    else if next.indent = indent ∧ isSeqItem next.content then
      Parsed.andThen (parseSequence fuel (next :: more) indent []) fun items rest =>
        some (.ok (.seq items, rest))
    else some (.ok (.scalar [], next :: more))

/-- What `parseSequence` does below a bare dash. -/
def parseBelowDash (fuel : Nat) (lines : List RawLine) (indent : Nat) : Parsed Yaml :=
  match lines with
  | [] => some (.ok (.null, []))
  | next :: more =>
    if next.indent > indent then parseValue fuel (next :: more) next.indent
    else some (.ok (.null, next :: more))

theorem Parsed.andThen_assoc {α β γ : Type} (r : Parsed α) (f : α → List RawLine → Parsed β)
    (g : β → List RawLine → Parsed γ) :
    (r.andThen f).andThen g = r.andThen fun a rest => (f a rest).andThen g := by
  cases r with
  | none => rfl
  | some r =>
    cases r with
    | error e => rfl
    | ok p => rfl

@[simp] theorem Parsed.andThen_ok {α β : Type} (a : α) (rest : List RawLine)
    (f : α → List RawLine → Parsed β) :
    Parsed.andThen (some (.ok (a, rest))) f = f a rest := rfl

/-- The line after a part does not go on with it: the next line of the file, if
    there is one, stands to the left, or at the same column as one of the other kind. -/
def Ends (p : Part) (n : Nat) (rest : List RawLine) : Prop :=
  ∀ l, rest.head? = some l →
    match p with
    | .entries => l.indent < n
    | .items | .belowKey => l.indent < n ∨ l.indent = n ∧ isSeqItem l.content = false
    | .belowDash => l.indent ≤ n

section

variable {l : RawLine} {rest : List RawLine} (fuel : Nat) (m : List (GoString × Yaml))
  (result : List Yaml)

theorem parseMapping_inline {key val : GoString} (hitem : isSeqItem l.content = false)
    (hsplit : splitKeyVal l.content l.lineNo = .ok (key, some val)) :
    parseMapping (fuel + 1) (l :: rest) l.indent m =
      parseMapping fuel rest l.indent (assign m key (.scalar (parseScalar val))) := by
  rw [parseMapping]
  simp only [hitem, hsplit, ne_eq, not_true_eq_false, if_false, Bool.false_eq_true]

theorem parseMapping_key {key : GoString} (hitem : isSeqItem l.content = false)
    (hsplit : splitKeyVal l.content l.lineNo = .ok (key, none)) :
    parseMapping (fuel + 1) (l :: rest) l.indent m =
      (parseBelowKey fuel rest l.indent).andThen fun v rest =>
        parseMapping fuel rest l.indent (assign m key v) := by
  rw [parseMapping]
  simp only [hitem, hsplit, ne_eq, not_true_eq_false, if_false, Bool.false_eq_true]
  unfold parseBelowKey
  cases rest with
  | nil => rfl
  | cons next more =>
    dsimp only
    split
    · rfl
    · split
      · rw [Parsed.andThen_assoc]
        rfl
      · rfl

/-- A line at another column, or a sequence item, is left to the caller. -/
theorem parseMapping_other {n : Nat} (h : l.indent ≠ n ∨ isSeqItem l.content) :
    parseMapping (fuel + 1) (l :: rest) n m = some (.ok (m, l :: rest)) := by
  rw [parseMapping]
  by_cases hn : l.indent = n
  · rw [if_neg (not_not.mpr hn), if_pos (h.resolve_left (not_not.mpr hn))]
  · rw [if_pos hn]

theorem parseMapping_stop {n : Nat} (h : Ends .entries n rest) :
    parseMapping (fuel + 1) rest n m = some (.ok (m, rest)) := by
  cases rest with
  | nil => rw [parseMapping]
  | cons l rest => exact parseMapping_other fuel m (.inl (ne_of_lt (h l rfl)))

theorem parseSequence_scalar (hitem : isSeqItem l.content) (htext : itemText l.content ≠ [])
    (hscalar : looksLikeMapEntry (itemText l.content) = false) :
    parseSequence (fuel + 1) (l :: rest) l.indent result =
      parseSequence fuel rest l.indent
        (result ++ [.scalar (parseScalar (itemText l.content))]) := by
  rw [parseSequence.eq_def]
  simp [hitem, htext, hscalar]

theorem parseSequence_dash (hitem : isSeqItem l.content) (htext : itemText l.content = []) :
    parseSequence (fuel + 1) (l :: rest) l.indent result =
      (parseBelowDash fuel rest l.indent).andThen fun v rest =>
        parseSequence fuel rest l.indent (result ++ [v]) := by
  rw [parseSequence.eq_def]
  simp only [hitem, htext, ne_eq, not_true_eq_false, or_self, if_false, if_true]
  unfold parseBelowDash
  cases rest with
  | nil => rfl
  | cons next more =>
    dsimp only
    split <;> rfl

/-- The lines of an item that begins a mapping are those at its columns. -/
theorem parseSequence_mapping (hitem : isSeqItem l.content) (htext : itemText l.content ≠ [])
    (hentry : looksLikeMapEntry (itemText l.content)) :
    parseSequence (fuel + 1) (l :: rest) l.indent result =
      Parsed.andThen (parseMapping fuel
          (l.afterDash :: rest.takeWhile fun l' => l.indent + 2 ≤ l'.indent) (l.indent + 2) [])
        fun m _ => parseSequence fuel (rest.dropWhile fun l' => l.indent + 2 ≤ l'.indent) l.indent
          (result ++ [.map m]) := by
  have hdrop : rest.drop (rest.takeWhile fun l' => l'.indent ≥ l.indent + 2).length =
      rest.dropWhile fun l' => l.indent + 2 ≤ l'.indent := by
    induction rest with
    | nil => rfl
    | cons l' rest ih =>
      by_cases hdeep : l.indent + 2 ≤ l'.indent
      · simpa [hdeep] using ih
      · simp [hdeep]
  rw [parseSequence.eq_def]
  simp only [hitem, htext, hentry, hdrop, ne_eq, not_true_eq_false, or_self, if_false, if_true]
  rfl

theorem parseSequence_entry {sub : List RawLine} (hitem : isSeqItem l.content)
    (htext : itemText l.content ≠ []) (hentry : looksLikeMapEntry (itemText l.content))
    (hsub : ∀ l' ∈ sub, l.indent + 2 ≤ l'.indent)
    (hrest : Ends .entries (l.indent + 2) rest) :
    parseSequence (fuel + 1) (l :: (sub ++ rest)) l.indent result =
      Parsed.andThen (parseMapping fuel (l.afterDash :: sub) (l.indent + 2) []) fun m _ =>
        parseSequence fuel rest l.indent (result ++ [.map m]) := by
  have hdeep : ∀ l' ∈ sub, decide (l.indent + 2 ≤ l'.indent) = true :=
    fun l' hl' => decide_eq_true (hsub l' hl')
  rw [parseSequence_mapping fuel result hitem htext hentry, List.takeWhile_append_of_pos hdeep,
    List.dropWhile_append_of_pos hdeep]
  cases rest with
  | nil => rw [List.takeWhile_nil, List.dropWhile_nil, List.append_nil]
  | cons next more =>
    have hlt : next.indent < l.indent + 2 := hrest next rfl
    have hnot : ¬ l.indent + 2 ≤ next.indent := by omega
    simp [hnot]

/-- A line at another column, or one that is no item, is left to the caller. -/
theorem parseSequence_other {n : Nat} (h : l.indent ≠ n ∨ ¬ isSeqItem l.content) :
    parseSequence (fuel + 1) (l :: rest) n result = some (.ok (result, l :: rest)) := by
  rw [parseSequence.eq_def]
  exact if_pos h

theorem parseSequence_stop {n : Nat} (h : Ends .items n rest) :
    parseSequence (fuel + 1) rest n result = some (.ok (result, rest)) := by
  cases rest with
  | nil => rw [parseSequence.eq_def]
  | cons l rest =>
    obtain hlt | ⟨-, hitem⟩ := h l rfl
    · exact parseSequence_other fuel result (.inl (ne_of_lt hlt))
    · exact parseSequence_other fuel result (.inr (by simp [hitem]))

end

/-! ## The parser finds the reading -/

theorem assign_fresh {m : List (GoString × Yaml)} {key : GoString} (val : Yaml)
    (h : key ∉ m.map Prod.fst) : assign m key val = m ++ [(key, val)] := if_neg h

/-- The keys of the entries still to come stay new after one more entry. -/
theorem fresh_append {m es : List (GoString × Yaml)} {key : GoString} {v : Yaml}
    (hkeys : ∀ k ∈ ((key, v) :: es).map Prod.fst, k ∉ m.map Prod.fst)
    (hfresh : key ∉ es.map Prod.fst) :
    ∀ k ∈ es.map Prod.fst, k ∉ (m ++ [(key, v)]).map Prod.fst := by
  intro k hk
  have hne : k ≠ key := fun he => hfresh (he ▸ hk)
  simpa [hne] using hkeys k (List.mem_cons_of_mem _ hk)

/-- What is below a key ends where the next entry begins. -/
theorem Reads.ends_entries {n : Nat} {lines rest : List RawLine} {v : Yaml}
    (h : Reads .entries n lines v) (hrest : Ends .entries n rest) :
    Ends .belowKey n (lines ++ rest) := by
  intro l hl
  cases lines with
  | nil => exact .inl (hrest l hl)
  | cons l' _ =>
    cases hl
    exact .inr (h.head_entries rfl)

/-- What is below a dash ends where the next item begins. -/
theorem Reads.ends_items {n : Nat} {lines rest : List RawLine} {v : Yaml}
    (h : Reads .items n lines v) (hrest : Ends .items n rest) :
    Ends .belowDash n (lines ++ rest) := by
  intro l hl
  cases lines with
  | nil => exact (hrest l hl).elim le_of_lt fun h => le_of_eq h.1
  | cons l' _ =>
    cases hl
    exact le_of_eq (h.head_items rfl).1

/-- A line that does not go on with what is below a key ends the blocks there. -/
theorem Ends.belowKey_lt {n m : Nat} {rest : List RawLine} (h : Ends .belowKey n rest)
    (hlt : n < m) : Ends .entries m rest := by
  intro l hl
  obtain hlt' | ⟨heq, -⟩ := h l hl
  · exact lt_trans hlt' hlt
  · exact heq ▸ hlt

theorem Ends.belowDash_lt {n m : Nat} {rest : List RawLine} (h : Ends .belowDash n rest)
    (hlt : n < m) : Ends .entries m rest :=
  fun l hl => lt_of_le_of_lt (h l hl) hlt

theorem Ends.items_of_entries {n : Nat} {rest : List RawLine} (h : Ends .entries n rest) :
    Ends .items n rest :=
  fun l hl => .inl (h l hl)

/-- What the parser returns on the lines of a part that are followed by a rest,
    with fuel for the lines of the part. -/
def Returns : Part → Nat → List RawLine → Yaml → Prop
  | .entries, n, lines, v => ∀ es, v = .map es → ∀ fuel rest m, 3 * lines.length + 1 ≤ fuel →
      Ends .entries n rest → (∀ key ∈ es.map Prod.fst, key ∉ m.map Prod.fst) →
      parseMapping fuel (lines ++ rest) n m = some (.ok (m ++ es, rest))
  | .items, n, lines, v => ∀ vs, v = .seq vs → ∀ fuel rest result, 3 * lines.length + 2 ≤ fuel →
      Ends .items n rest →
      parseSequence fuel (lines ++ rest) n result = some (.ok (result ++ vs, rest))
  | .belowKey, n, lines, v => ∀ fuel rest, 3 * lines.length + 3 ≤ fuel → Ends .belowKey n rest →
      parseBelowKey fuel (lines ++ rest) n = some (.ok (v, rest))
  | .belowDash, n, lines, v => ∀ fuel rest, 3 * lines.length + 3 ≤ fuel → Ends .belowDash n rest →
      parseBelowDash fuel (lines ++ rest) n = some (.ok (v, rest))

/-- A nested mapping is parsed as one. -/
theorem parseValue_entries {m : Nat} {l : RawLine} {sub rest : List RawLine} {v : Yaml} {fuel : Nat}
    (hsub : Reads .entries m (l :: sub) v) (ih : Returns .entries m (l :: sub) v)
    (hfuel : 3 * (l :: sub).length + 3 ≤ fuel) (hrest : Ends .entries m rest) :
    parseValue fuel (l :: sub ++ rest) l.indent = some (.ok (v, rest)) := by
  obtain ⟨rfl, hitem⟩ := hsub.head_entries rfl
  obtain ⟨es, rfl⟩ := hsub.entries_map
  obtain ⟨fuel, rfl⟩ : ∃ k, fuel = k + 1 := ⟨fuel - 1, by omega⟩
  have hparse := ih es rfl fuel rest [] (by omega) hrest (fun _ _ h => by cases h)
  rw [List.cons_append, parseValue, hitem]
  rw [List.cons_append] at hparse
  simp [hparse]

/-- A nested sequence is parsed as one. -/
theorem parseValue_items {m : Nat} {l : RawLine} {sub rest : List RawLine} {v : Yaml} {fuel : Nat}
    (hsub : Reads .items m (l :: sub) v) (ih : Returns .items m (l :: sub) v)
    (hfuel : 3 * (l :: sub).length + 3 ≤ fuel) (hrest : Ends .items m rest) :
    parseValue fuel (l :: sub ++ rest) l.indent = some (.ok (v, rest)) := by
  obtain ⟨rfl, hitem⟩ := hsub.head_items rfl
  obtain ⟨vs, rfl⟩ := hsub.items_seq
  obtain ⟨fuel, rfl⟩ : ∃ k, fuel = k + 1 := ⟨fuel - 1, by omega⟩
  have hparse := ih vs rfl fuel rest [] (by omega) hrest
  rw [List.cons_append, parseValue, if_pos hitem]
  rw [List.cons_append] at hparse
  simp [hparse]

/-- The parser returns the reading of a part. -/
theorem Reads.returns {p : Part} {n : Nat} {lines : List RawLine} {v : Yaml}
    (h : Reads p n lines v) : Returns p n lines v := by
  induction h with
  | noEntries n =>
    intro es hes fuel rest m hfuel hrest _
    cases hes
    obtain ⟨fuel, rfl⟩ : ∃ k, fuel = k + 1 := ⟨fuel - 1, by omega⟩
    simpa using parseMapping_stop fuel m hrest
  | @inlineEntry l key val sub es hitem hsplit hsub hfresh ih =>
    intro es' hes fuel rest m hfuel hrest hkeys
    cases hes
    rw [List.length_cons] at hfuel
    obtain ⟨fuel, rfl⟩ : ∃ k, fuel = k + 1 := ⟨fuel - 1, by omega⟩
    have hkey : key ∉ m.map Prod.fst := hkeys key (by simp)
    rw [List.cons_append, parseMapping_inline fuel m hitem hsplit, assign_fresh _ hkey,
      ih es rfl fuel rest _ (by omega) hrest]
    · simp
    · exact fresh_append hkeys hfresh
  | @entry l key sub rest' v es hitem hsplit hsub hrest' hfresh ihsub ihrest =>
    intro es' hes fuel rest m hfuel hrest hkeys
    cases hes
    rw [List.length_cons, List.length_append] at hfuel
    obtain ⟨fuel, rfl⟩ : ∃ k, fuel = k + 1 := ⟨fuel - 1, by omega⟩
    have hkey : key ∉ m.map Prod.fst := hkeys key (by simp)
    -- what is below the key ends where the next entry or the rest begins
    rw [List.cons_append, List.append_assoc, parseMapping_key fuel m hitem hsplit,
      ihsub fuel _ (by omega) (hrest'.ends_entries hrest), Parsed.andThen_ok, assign_fresh _ hkey,
      ihrest es rfl fuel rest _ (by omega) hrest]
    · simp
    · exact fresh_append hkeys hfresh
  | noValue n =>
    intro fuel rest hfuel hrest
    cases rest with
    | nil => rfl
    | cons l rest =>
      unfold parseBelowKey
      obtain hlt | ⟨heq, hitem⟩ := hrest l rfl
      · simp [Nat.not_lt_of_gt hlt, ne_of_lt hlt]
      · simp [heq, hitem]
  | @mappingBelowKey n m sub v hlt hne hsub ih =>
    intro fuel rest hfuel hrest
    obtain ⟨l, sub, rfl⟩ := List.exists_cons_of_ne_nil hne
    have hgt : l.indent > n := (hsub.head_entries rfl).1 ▸ hlt
    have hvalue := parseValue_entries hsub ih hfuel (hrest.belowKey_lt hlt)
    unfold parseBelowKey
    rw [List.cons_append] at hvalue ⊢
    simp only [if_pos hgt, hvalue]
  | @sequenceBelowKey n m sub v hle hne hsub ih =>
    intro fuel rest hfuel hrest
    obtain ⟨l, sub, rfl⟩ := List.exists_cons_of_ne_nil hne
    obtain ⟨rfl, hitem⟩ := hsub.head_items rfl
    -- deeper than its key the sequence is a nested value, at its column it is parsed directly
    obtain hlt | heq := lt_or_eq_of_le hle
    · have hvalue := parseValue_items hsub ih hfuel (hrest.belowKey_lt hlt).items_of_entries
      unfold parseBelowKey
      rw [List.cons_append] at hvalue ⊢
      simp only [if_pos hlt, hvalue]
    · obtain ⟨vs, rfl⟩ := hsub.items_seq
      have hparse := ih vs rfl fuel rest [] (by omega) (heq ▸ hrest)
      unfold parseBelowKey
      rw [List.cons_append] at hparse ⊢
      simp [heq, hitem, hparse]
  | noItems n =>
    intro vs hvs fuel rest result hfuel hrest
    cases hvs
    obtain ⟨fuel, rfl⟩ : ∃ k, fuel = k + 1 := ⟨fuel - 1, by omega⟩
    simpa using parseSequence_stop fuel result hrest
  | @scalarItem l sub vs hitem htext hscalar hsub ih =>
    intro vs' hvs fuel rest result hfuel hrest
    cases hvs
    rw [List.length_cons] at hfuel
    obtain ⟨fuel, rfl⟩ : ∃ k, fuel = k + 1 := ⟨fuel - 1, by omega⟩
    rw [List.cons_append, parseSequence_scalar fuel result hitem htext hscalar,
      ih vs rfl fuel rest _ (by omega) hrest]
    simp
  | @mappingItem l sub rest' v vs hitem htext hentry hsub hrest' ihsub ihrest =>
    intro vs' hvs fuel rest result hfuel hrest
    cases hvs
    rw [List.length_cons, List.length_append] at hfuel
    obtain ⟨fuel, rfl⟩ : ∃ k, fuel = k + 1 := ⟨fuel - 1, by omega⟩
    obtain ⟨es, rfl⟩ := hsub.entries_map
    have hends : Ends .entries (l.indent + 2) (rest' ++ rest) :=
      (hrest'.ends_items hrest).belowDash_lt (by omega)
    -- the mapping gets its own lines and no rest, so that where it stops is where they end
    have hmap := ihsub es rfl fuel [] [] (by rw [List.length_cons]; omega) (fun _ h => by cases h)
      (fun _ _ h => by cases h)
    rw [List.append_nil] at hmap
    rw [List.cons_append, List.append_assoc, parseSequence_entry fuel result hitem htext hentry
      (fun l' hl' => hsub.le_indent l' (List.mem_cons_of_mem _ hl')) hends, hmap,
      Parsed.andThen_ok, ihrest vs rfl fuel rest _ (by omega) hrest]
    simp
  | @bareItem l sub rest' v vs hitem htext hsub hrest' ihsub ihrest =>
    intro vs' hvs fuel rest result hfuel hrest
    cases hvs
    rw [List.length_cons, List.length_append] at hfuel
    obtain ⟨fuel, rfl⟩ : ∃ k, fuel = k + 1 := ⟨fuel - 1, by omega⟩
    rw [List.cons_append, List.append_assoc, parseSequence_dash fuel result hitem htext,
      ihsub fuel _ (by omega) (hrest'.ends_items hrest), Parsed.andThen_ok,
      ihrest vs rfl fuel rest _ (by omega) hrest]
    simp
  | noItem n =>
    intro fuel rest hfuel hrest
    cases rest with
    | nil => rfl
    | cons l rest =>
      unfold parseBelowDash
      exact if_neg (Nat.not_lt_of_ge (hrest l rfl))
  | @mappingBelowDash n m sub v hlt hne hsub ih =>
    intro fuel rest hfuel hrest
    obtain ⟨l, sub, rfl⟩ := List.exists_cons_of_ne_nil hne
    have hgt : l.indent > n := (hsub.head_entries rfl).1 ▸ hlt
    have hvalue := parseValue_entries hsub ih hfuel (hrest.belowDash_lt hlt)
    unfold parseBelowDash
    rw [List.cons_append] at hvalue ⊢
    simp only [if_pos hgt, hvalue]
  | @sequenceBelowDash n m sub v hlt hne hsub ih =>
    intro fuel rest hfuel hrest
    obtain ⟨l, sub, rfl⟩ := List.exists_cons_of_ne_nil hne
    have hgt : l.indent > n := (hsub.head_items rfl).1 ▸ hlt
    have hvalue := parseValue_items hsub ih hfuel (hrest.belowDash_lt hlt).items_of_entries
    unfold parseBelowDash
    rw [List.cons_append] at hvalue ⊢
    simp only [if_pos hgt, hvalue]

/-- The parser returns the reading of a mapping that is the whole file. -/
theorem Reads.parseMapping {n : Nat} {lines : List RawLine} {es : List (GoString × Yaml)}
    (h : Reads .entries n lines (.map es)) :
    Config.parseMapping (3 * lines.length + 1) lines n [] = some (.ok (es, [])) := by
  have hparse := h.returns es rfl (3 * lines.length + 1) [] [] (le_refl _)
    (fun _ h => by cases h) (fun _ _ h => by cases h)
  simpa using hparse

/-! ## The parser is total -/

/-- The parser came to an end, and what it left is at the end of its lines. -/
def Parsed.Finished {α : Type} (lines : List RawLine) (r : Parsed α) : Prop :=
  ∃ x, r = some x ∧ ∀ a rest, x = .ok (a, rest) → rest <:+ lines

namespace Parsed.Finished

variable {α β : Type} {lines : List RawLine}

theorem ok (a : α) {rest : List RawLine} (h : rest <:+ lines) :
    Finished lines (some (.ok (a, rest)) : Parsed α) :=
  ⟨_, rfl, by rintro _ _ ⟨⟩; exact h⟩

theorem error (e : YamlError) : Finished lines (some (.error e) : Parsed α) :=
  ⟨_, rfl, by rintro _ _ ⟨⟩⟩

theorem of_suffix {lines' : List RawLine} {r : Parsed α} (h : Finished lines' r)
    (hsuffix : lines' <:+ lines) : Finished lines r := by
  obtain ⟨x, rfl, hx⟩ := h
  exact ⟨x, rfl, fun a rest hok => (hx a rest hok).trans hsuffix⟩

theorem andThen {r : Parsed α} {next : α → List RawLine → Parsed β} {lines' : List RawLine}
    (h : Finished lines' r) (hnext : ∀ a rest, rest <:+ lines' → Finished lines (next a rest)) :
    Finished lines (r.andThen next) := by
  obtain ⟨x, rfl, hx⟩ := h
  cases x with
  | error e => exact error e
  | ok p => exact hnext p.1 p.2 (hx p.1 p.2 rfl)

end Parsed.Finished

/-- Every call with fuel for its lines comes to an end: three units a line, and
    one more for each function between two lines. -/
structure EnoughFuel (fuel : Nat) : Prop where
  value : ∀ lines n, 3 * lines.length + 3 ≤ fuel → (parseValue fuel lines n).Finished lines
  sequence : ∀ lines n result, 3 * lines.length + 2 ≤ fuel →
    (parseSequence fuel lines n result).Finished lines
  mapping : ∀ lines n m, 3 * lines.length + 1 ≤ fuel →
    (parseMapping fuel lines n m).Finished lines

namespace EnoughFuel

variable {fuel : Nat} (h : EnoughFuel fuel)

include h

theorem value_succ (lines : List RawLine) (n : Nat) (hfuel : 3 * lines.length + 3 ≤ fuel + 1) :
    (parseValue (fuel + 1) lines n).Finished lines := by
  cases lines with
  | nil =>
    rw [parseValue]
    exact .ok _ (List.suffix_refl _)
  | cons l rest =>
    rw [parseValue]
    split
    · exact (h.sequence _ n [] (by omega)).andThen fun _ _ hrest => .ok _ hrest
    · exact (h.mapping _ n [] (by omega)).andThen fun _ _ hrest => .ok _ hrest

theorem belowKey (lines : List RawLine) (n : Nat) (hfuel : 3 * lines.length + 3 ≤ fuel) :
    (parseBelowKey fuel lines n).Finished lines := by
  unfold parseBelowKey
  split
  · exact .ok _ (List.suffix_refl _)
  · split
    · exact h.value _ _ hfuel
    · split
      · exact (h.sequence _ n [] (by omega)).andThen fun _ _ hrest => .ok _ hrest
      · exact .ok _ (List.suffix_refl _)

theorem belowDash (lines : List RawLine) (n : Nat) (hfuel : 3 * lines.length + 3 ≤ fuel) :
    (parseBelowDash fuel lines n).Finished lines := by
  unfold parseBelowDash
  split
  · exact .ok _ (List.suffix_refl _)
  · split
    · exact h.value _ _ hfuel
    · exact .ok _ (List.suffix_refl _)

/-- A mapping goes past a line that is an entry of it. -/
theorem mapping_entry {l : RawLine} (hitem : isSeqItem l.content = false) (rest : List RawLine)
    (m : List (GoString × Yaml)) (hfuel : 3 * rest.length + 3 ≤ fuel) :
    (parseMapping (fuel + 1) (l :: rest) l.indent m).Finished rest := by
  cases hsplit : splitKeyVal l.content l.lineNo with
  | error e =>
    rw [parseMapping]
    simp only [hitem, hsplit, ne_eq, not_true_eq_false, if_false, Bool.false_eq_true]
    exact .error e
  | ok entry =>
    obtain ⟨key, _ | val⟩ := entry
    · rw [parseMapping_key fuel m hitem hsplit]
      refine (h.belowKey rest l.indent hfuel).andThen fun v left hleft => ?_
      have hle := hleft.length_le
      exact (h.mapping left _ _ (by omega)).of_suffix hleft
    · rw [parseMapping_inline fuel m hitem hsplit]
      exact h.mapping rest _ _ (by omega)

theorem mapping_succ (lines : List RawLine) (n : Nat) (m : List (GoString × Yaml))
    (hfuel : 3 * lines.length + 1 ≤ fuel + 1) :
    (parseMapping (fuel + 1) lines n m).Finished lines := by
  cases lines with
  | nil =>
    rw [parseMapping]
    exact .ok _ (List.suffix_refl _)
  | cons l rest =>
    rw [List.length_cons] at hfuel
    by_cases hother : l.indent ≠ n ∨ isSeqItem l.content
    · rw [parseMapping_other fuel m hother]
      exact .ok _ (List.suffix_refl _)
    · obtain ⟨hn, hitem⟩ := not_or.mp hother
      obtain rfl := not_not.mp hn
      have hentry := h.mapping_entry (by simpa using hitem) rest m (by omega)
      exact hentry.of_suffix (List.suffix_cons l rest)

/-- A sequence goes past a line that is an item of it. -/
theorem sequence_item {l : RawLine} (hitem : isSeqItem l.content) (rest : List RawLine)
    (result : List Yaml) (hfuel : 3 * rest.length + 4 ≤ fuel) :
    (parseSequence (fuel + 1) (l :: rest) l.indent result).Finished rest := by
  by_cases htext : itemText l.content = []
  · rw [parseSequence_dash fuel result hitem htext]
    refine (h.belowDash rest l.indent (by omega)).andThen fun v left hleft => ?_
    have hle := hleft.length_le
    exact (h.sequence left _ _ (by omega)).of_suffix hleft
  · cases hentry : looksLikeMapEntry (itemText l.content) with
    | false =>
      rw [parseSequence_scalar fuel result hitem htext hentry]
      exact h.sequence rest _ _ (by omega)
    | true =>
      have hle : (rest.takeWhile fun l' => l.indent + 2 ≤ l'.indent).length ≤ rest.length :=
        (List.takeWhile_prefix _).length_le
      have hle' : (rest.dropWhile fun l' => l.indent + 2 ≤ l'.indent).length ≤ rest.length :=
        (List.dropWhile_suffix _).length_le
      rw [parseSequence_mapping fuel result hitem htext hentry]
      -- the mapping is given no more lines than the sequence has left
      refine (h.mapping _ _ _ (by rw [List.length_cons]; omega)).andThen fun _ _ _ => ?_
      exact (h.sequence _ _ _ (by omega)).of_suffix (List.dropWhile_suffix _)

theorem sequence_succ (lines : List RawLine) (n : Nat) (result : List Yaml)
    (hfuel : 3 * lines.length + 2 ≤ fuel + 1) :
    (parseSequence (fuel + 1) lines n result).Finished lines := by
  cases lines with
  | nil =>
    rw [parseSequence.eq_def]
    exact .ok _ (List.suffix_refl _)
  | cons l rest =>
    rw [List.length_cons] at hfuel
    by_cases hother : l.indent ≠ n ∨ ¬ isSeqItem l.content
    · rw [parseSequence_other fuel result hother]
      exact .ok _ (List.suffix_refl _)
    · obtain ⟨hn, hitem⟩ := not_or.mp hother
      obtain rfl := not_not.mp hn
      have hentry := h.sequence_item (not_not.mp hitem) rest result (by omega)
      exact hentry.of_suffix (List.suffix_cons l rest)

end EnoughFuel

theorem enoughFuel (fuel : Nat) : EnoughFuel fuel := by
  induction fuel with
  | zero => exact ⟨fun _ _ h => by omega, fun _ _ _ h => by omega, fun _ _ _ h => by omega⟩
  | succ fuel ih => exact ⟨ih.value_succ, ih.sequence_succ, ih.mapping_succ⟩

/-- The parser answers on every input. -/
theorem parseYAML_isSome (data : GoString) : (parseYAML data).isSome := by
  unfold parseYAML
  split
  · rfl
  · rfl
  · rename_i l rest _
    split
    · rfl
    · obtain ⟨x, hx, -⟩ := (enoughFuel _).mapping (l :: rest) 0 [] (le_refl _)
      rw [hx]
      cases x with
      | error e => rfl
      | ok p => rfl

end HootLb.Config
