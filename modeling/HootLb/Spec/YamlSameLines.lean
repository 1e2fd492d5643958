import HootLb.Spec.YamlLines
import Mathlib.Data.List.Forall2

/-!
# Lines that the parser cannot tell apart

The parser looks at a line in four ways: its indentation, whether it is an item, the
text behind the dash, and its key and value. Documents whose lines agree in these have
the same tree. The agreement is needed only where the first document is read without
an error, since an error repeats the content of its line.

## Key results

- `SameLine`: lines that are read alike
- `sameParse`: the parsing functions step by step, with the same fuel
- `parseYAML_of_sameLines`: documents of such lines
-/

namespace HootLb.Config

/-- The second line is read as the first one is, if the first one can be read. -/
structure SameLine (l l' : RawLine) : Prop where
  indent : l'.indent = l.indent
  lineNo : l'.lineNo = l.lineNo
  isItem : isSeqItem l'.content = isSeqItem l.content
  text : itemText l'.content = itemText l.content
  split : ∀ entry, splitKeyVal l.content l.lineNo = .ok entry →
    splitKeyVal l'.content l'.lineNo = .ok entry

theorem SameLine.refl (l : RawLine) : SameLine l l := ⟨rfl, rfl, rfl, rfl, fun _ h => h⟩

theorem SameLine.afterDash {l l' : RawLine} (h : SameLine l l') : l'.afterDash = l.afterDash := by
  unfold RawLine.afterDash
  rw [h.indent, h.text, h.lineNo]

theorem SameLine.takeWhile {lines lines' : List RawLine} (h : List.Forall₂ SameLine lines lines')
    (n : Nat) :
    List.Forall₂ SameLine (lines.takeWhile fun l => n ≤ l.indent)
      (lines'.takeWhile fun l => n ≤ l.indent) ∧
    List.Forall₂ SameLine (lines.dropWhile fun l => n ≤ l.indent)
      (lines'.dropWhile fun l => n ≤ l.indent) := by
  induction h with
  | nil => exact ⟨.nil, .nil⟩
  | @cons l l' rest rest' hl hrest ih =>
    rw [List.takeWhile_cons, List.takeWhile_cons, List.dropWhile_cons, List.dropWhile_cons,
      hl.indent]
    split
    · exact ⟨.cons hl ih.1, ih.2⟩
    · exact ⟨.nil, .cons hl hrest⟩

/-- What the first parser returns without an error, the second one returns as well, with
    the same lines left. -/
def Parsed.Follows {α : Type} (r r' : Parsed α) : Prop :=
  ∀ a rest, r = some (.ok (a, rest)) →
    ∃ rest', r' = some (.ok (a, rest')) ∧ List.Forall₂ SameLine rest rest'

theorem Parsed.Follows.ok {α : Type} (a : α) {lines lines' : List RawLine}
    (h : List.Forall₂ SameLine lines lines') :
    Parsed.Follows (some (.ok (a, lines)) : Parsed α) (some (.ok (a, lines'))) := by
  intro b rest heq
  cases heq
  exact ⟨lines', rfl, h⟩

theorem Parsed.Follows.andThen {α β : Type} {r r' : Parsed α}
    {next next' : α → List RawLine → Parsed β} (h : r.Follows r')
    (hnext : ∀ a rest rest', List.Forall₂ SameLine rest rest' →
      (next a rest).Follows (next' a rest')) :
    (r.andThen next).Follows (r'.andThen next') := by
  intro b rest heq
  match r, heq with
  | some (.ok (a, left)), heq =>
    obtain ⟨left', rfl, hleft⟩ := h a left rfl
    exact hnext a left left' hleft b rest heq

/-- With the same fuel, lines that are read alike are parsed alike. -/
structure SameParse (fuel : Nat) : Prop where
  value : ∀ {lines lines'}, List.Forall₂ SameLine lines lines' → ∀ n,
    (parseValue fuel lines n).Follows (parseValue fuel lines' n)
  sequence : ∀ {lines lines'}, List.Forall₂ SameLine lines lines' → ∀ n result,
    (parseSequence fuel lines n result).Follows (parseSequence fuel lines' n result)
  mapping : ∀ {lines lines'}, List.Forall₂ SameLine lines lines' → ∀ n m,
    (parseMapping fuel lines n m).Follows (parseMapping fuel lines' n m)

namespace SameParse

variable {fuel : Nat} (h : SameParse fuel) {lines lines' : List RawLine}

include h

theorem value_succ (hlines : List.Forall₂ SameLine lines lines') (n : Nat) :
    (parseValue (fuel + 1) lines n).Follows (parseValue (fuel + 1) lines' n) := by
  cases hlines with
  | nil =>
    rw [parseValue]
    exact .ok _ .nil
  | @cons l l' rest rest' hl hrest =>
    rw [parseValue, parseValue, hl.isItem]
    split
    · exact (h.sequence (.cons hl hrest) n []).andThen fun _ _ _ hleft => .ok _ hleft
    · exact (h.mapping (.cons hl hrest) n []).andThen fun _ _ _ hleft => .ok _ hleft

theorem belowKey (hlines : List.Forall₂ SameLine lines lines') (n : Nat) :
    (parseBelowKey fuel lines n).Follows (parseBelowKey fuel lines' n) := by
  unfold parseBelowKey
  cases hlines with
  | nil => exact .ok _ .nil
  | @cons l l' rest rest' hl hrest =>
    dsimp only
    rw [hl.indent, hl.isItem]
    split
    · exact h.value (.cons hl hrest) _
    · split
      · exact (h.sequence (.cons hl hrest) n []).andThen fun _ _ _ hleft => .ok _ hleft
      · exact .ok _ (.cons hl hrest)

theorem belowDash (hlines : List.Forall₂ SameLine lines lines') (n : Nat) :
    (parseBelowDash fuel lines n).Follows (parseBelowDash fuel lines' n) := by
  unfold parseBelowDash
  cases hlines with
  | nil => exact .ok _ .nil
  | @cons l l' rest rest' hl hrest =>
    dsimp only
    rw [hl.indent]
    split
    · exact h.value (.cons hl hrest) _
    · exact .ok _ (.cons hl hrest)

theorem mapping_succ (hlines : List.Forall₂ SameLine lines lines') (n : Nat)
    (m : List (GoString × Yaml)) :
    (parseMapping (fuel + 1) lines n m).Follows (parseMapping (fuel + 1) lines' n m) := by
  cases hlines with
  | nil =>
    rw [parseMapping]
    exact .ok _ .nil
  | @cons l l' rest rest' hl hrest =>
    by_cases hother : l.indent ≠ n ∨ isSeqItem l.content
    · have hother' : l'.indent ≠ n ∨ isSeqItem l'.content := by rwa [hl.indent, hl.isItem]
      rw [parseMapping_other fuel m hother, parseMapping_other fuel m hother']
      exact .ok _ (.cons hl hrest)
    · obtain ⟨hn, hitem⟩ := not_or.mp hother
      obtain rfl := not_not.mp hn
      have hitem : isSeqItem l.content = false := by simpa using hitem
      have hitem' : isSeqItem l'.content = false := by rw [hl.isItem, hitem]
      cases hsplit : splitKeyVal l.content l.lineNo with
      | error e =>
        -- then the first parser fails
        intro a left heq
        rw [parseMapping] at heq
        simp [hitem, hsplit] at heq
      | ok entry =>
        have hsplit' := hl.split entry hsplit
        rw [← hl.indent]
        obtain ⟨key, _ | val⟩ := entry
        · rw [parseMapping_key fuel m hitem' hsplit', hl.indent,
            parseMapping_key fuel m hitem hsplit]
          exact (h.belowKey hrest _).andThen fun v left left' hleft => h.mapping hleft _ _
        · rw [parseMapping_inline fuel m hitem' hsplit', hl.indent,
            parseMapping_inline fuel m hitem hsplit]
          exact h.mapping hrest _ _

theorem sequence_succ (hlines : List.Forall₂ SameLine lines lines') (n : Nat)
    (result : List Yaml) :
    (parseSequence (fuel + 1) lines n result).Follows
      (parseSequence (fuel + 1) lines' n result) := by
  cases hlines with
  | nil =>
    rw [parseSequence.eq_def]
    exact .ok _ .nil
  | @cons l l' rest rest' hl hrest =>
    by_cases hother : l.indent ≠ n ∨ ¬ isSeqItem l.content
    · have hother' : l'.indent ≠ n ∨ ¬ isSeqItem l'.content := by rwa [hl.indent, hl.isItem]
      rw [parseSequence_other fuel result hother, parseSequence_other fuel result hother']
      exact .ok _ (.cons hl hrest)
    · obtain ⟨hn, hitem⟩ := not_or.mp hother
      obtain rfl := not_not.mp hn
      have hitem : isSeqItem l.content := not_not.mp hitem
      have hitem' : isSeqItem l'.content := by rw [hl.isItem, hitem]
      rw [← hl.indent]
      by_cases htext : itemText l.content = []
      · have htext' : itemText l'.content = [] := by rw [hl.text, htext]
        rw [parseSequence_dash fuel result hitem' htext', hl.indent,
          parseSequence_dash fuel result hitem htext]
        exact (h.belowDash hrest _).andThen fun v left left' hleft => h.sequence hleft _ _
      · have htext' : itemText l'.content ≠ [] := by rwa [hl.text]
        cases hentry : looksLikeMapEntry (itemText l.content) with
        | false =>
          have hentry' : looksLikeMapEntry (itemText l'.content) = false := by rw [hl.text, hentry]
          rw [parseSequence_scalar fuel result hitem' htext' hentry', hl.indent, hl.text,
            parseSequence_scalar fuel result hitem htext hentry]
          exact h.sequence hrest _ _
        | true =>
          have hentry' : looksLikeMapEntry (itemText l'.content) := by rw [hl.text, hentry]
          rw [parseSequence_mapping fuel result hitem' htext' hentry', hl.indent, hl.afterDash,
            parseSequence_mapping fuel result hitem htext hentry]
          -- the mapping that begins at the dash goes on in the lines further in
          have hsub := SameLine.takeWhile hrest (l.indent + 2)
          exact (h.mapping (.cons (SameLine.refl _) hsub.1) _ _).andThen fun m _ _ _ =>
            h.sequence hsub.2 _ _

end SameParse

theorem sameParse (fuel : Nat) : SameParse fuel := by
  induction fuel with
  | zero =>
    refine ⟨fun _ _ a rest h => ?_, fun _ _ _ a rest h => ?_, fun _ _ _ a rest h => ?_⟩
    · rw [parseValue] at h
      cases h
    · rw [parseSequence.eq_def] at h
      cases h
    · rw [parseMapping] at h
      cases h
  | succ fuel ih => exact ⟨ih.value_succ, ih.sequence_succ, ih.mapping_succ⟩

/-- Documents whose lines are read alike have the same tree. -/
theorem parseYAML_of_sameLines {data data' : GoString} {lines lines' : List RawLine}
    (hlines : preprocess data = .ok lines) (hlines' : preprocess data' = .ok lines')
    (hsame : List.Forall₂ SameLine lines lines') {tree : List (GoString × Yaml)}
    (h : parseYAML data = some (.ok tree)) : parseYAML data' = some (.ok tree) := by
  unfold parseYAML at h ⊢
  rw [hlines] at h
  rw [hlines']
  cases hsame with
  | nil => exact h
  | @cons l l' rest rest' hl hrest =>
    dsimp only at h ⊢
    have hlen : (l' :: rest').length = (l :: rest).length :=
      (List.Forall₂.length_eq (.cons hl hrest)).symm
    -- as many lines, so both parsers start with the same fuel
    rw [hl.indent, hlen]
    split at h
    · cases h
    · rename_i hindent
      rw [if_neg hindent]
      cases hparse : parseMapping (3 * (l :: rest).length + 1) (l :: rest) 0 [] with
      | none =>
        rw [hparse] at h
        cases h
      | some r =>
        rw [hparse] at h
        cases r with
        | error e => cases h
        | ok p =>
          obtain ⟨m, left⟩ := p
          obtain ⟨left', hparse', -⟩ :=
            (sameParse _).mapping (.cons hl hrest) 0 [] m left hparse
          rw [hparse']
          exact h

end HootLb.Config
