import HootLb.Spec.YamlReading

/-!
# The parser comes to an end

The three parsing functions call each other on the same lines at a later place, or on
the lines of one item with its dash cut off. Either way there is a line less before
the next call on the same kind of lines: what was called below a key or a dash begins
at the column it is told to read, and so goes past its first line.

A position is what is left of the lines in the model; here it is an index again.

## Key results

- `fuelKept`: with more fuel a parsing function answers the same
- `parser_progresses`: every call ends, in its lines and not before its start, and goes
  past a line that it is there for
-/

namespace HootLb.Config

/-! ## More fuel changes nothing -/

/-- What is answered here is answered there as well. -/
def Parsed.Kept {α : Type} (r r' : Parsed α) : Prop := ∀ x, r = some x → r' = some x

theorem Parsed.Kept.refl {α : Type} (r : Parsed α) : r.Kept r := fun _ h => h

theorem Parsed.Kept.trans {α : Type} {r₁ r₂ r₃ : Parsed α} (h : r₁.Kept r₂) (h' : r₂.Kept r₃) :
    r₁.Kept r₃ := fun x hx => h' x (h x hx)

theorem Parsed.Kept.andThen {α β : Type} {r r' : Parsed α}
    {next next' : α → List RawLine → Parsed β} (h : r.Kept r')
    (hnext : ∀ a rest, (next a rest).Kept (next' a rest)) :
    (r.andThen next).Kept (r'.andThen next') := by
  intro x hx
  cases r with
  | none => cases hx
  | some y =>
    rw [h y rfl]
    cases y with
    | error e => exact hx
    | ok p => exact hnext p.1 p.2 x hx

/-- One more unit of fuel changes no answer. -/
structure FuelKept (fuel : Nat) : Prop where
  value : ∀ lines n, (parseValue fuel lines n).Kept (parseValue (fuel + 1) lines n)
  sequence : ∀ lines n result,
    (parseSequence fuel lines n result).Kept (parseSequence (fuel + 1) lines n result)
  mapping : ∀ lines n m, (parseMapping fuel lines n m).Kept (parseMapping (fuel + 1) lines n m)

namespace FuelKept

variable {fuel : Nat} (h : FuelKept fuel)

include h

theorem value_succ (lines : List RawLine) (n : Nat) :
    (parseValue (fuel + 1) lines n).Kept (parseValue (fuel + 2) lines n) := by
  cases lines with
  | nil =>
    rw [parseValue, parseValue]
    exact .refl _
  | cons l rest =>
    rw [parseValue, parseValue]
    split
    · exact (h.sequence _ n []).andThen fun _ _ => .refl _
    · exact (h.mapping _ n []).andThen fun _ _ => .refl _

theorem belowKey (lines : List RawLine) (n : Nat) :
    (parseBelowKey fuel lines n).Kept (parseBelowKey (fuel + 1) lines n) := by
  unfold parseBelowKey
  split
  · exact .refl _
  · split
    · exact h.value _ _
    · split
      · exact (h.sequence _ n []).andThen fun _ _ => .refl _
      · exact .refl _

theorem belowDash (lines : List RawLine) (n : Nat) :
    (parseBelowDash fuel lines n).Kept (parseBelowDash (fuel + 1) lines n) := by
  unfold parseBelowDash
  split
  · exact .refl _
  · split
    · exact h.value _ _
    · exact .refl _

theorem mapping_succ (lines : List RawLine) (n : Nat) (m : List (GoString × Yaml)) :
    (parseMapping (fuel + 1) lines n m).Kept (parseMapping (fuel + 2) lines n m) := by
  cases lines with
  | nil =>
    rw [parseMapping, parseMapping]
    exact .refl _
  | cons l rest =>
    by_cases hother : l.indent ≠ n ∨ isSeqItem l.content
    · rw [parseMapping_other _ m hother, parseMapping_other _ m hother]
      exact .refl _
    · obtain ⟨hn, hitem⟩ := not_or.mp hother
      obtain rfl := not_not.mp hn
      have hitem : isSeqItem l.content = false := by simpa using hitem
      cases hsplit : splitKeyVal l.content l.lineNo with
      | error e =>
        rw [parseMapping, parseMapping]
        simp only [hitem, hsplit, ne_eq, not_true_eq_false, if_false, Bool.false_eq_true]
        exact .refl _
      | ok entry =>
        obtain ⟨key, _ | val⟩ := entry
        · rw [parseMapping_key _ m hitem hsplit, parseMapping_key _ m hitem hsplit]
          exact (h.belowKey rest _).andThen fun v left => h.mapping left _ _
        · rw [parseMapping_inline _ m hitem hsplit, parseMapping_inline _ m hitem hsplit]
          exact h.mapping rest _ _

theorem sequence_succ (lines : List RawLine) (n : Nat) (result : List Yaml) :
    (parseSequence (fuel + 1) lines n result).Kept (parseSequence (fuel + 2) lines n result) := by
  cases lines with
  | nil =>
    rw [parseSequence.eq_def, parseSequence.eq_def]
    exact .refl _
  | cons l rest =>
    by_cases hother : l.indent ≠ n ∨ ¬ isSeqItem l.content
    · rw [parseSequence_other _ result hother, parseSequence_other _ result hother]
      exact .refl _
    · obtain ⟨hn, hitem⟩ := not_or.mp hother
      obtain rfl := not_not.mp hn
      have hitem : isSeqItem l.content := not_not.mp hitem
      by_cases htext : itemText l.content = []
      · rw [parseSequence_dash _ result hitem htext, parseSequence_dash _ result hitem htext]
        exact (h.belowDash rest _).andThen fun v left => h.sequence left _ _
      · cases hentry : looksLikeMapEntry (itemText l.content) with
        | false =>
          rw [parseSequence_scalar _ result hitem htext hentry,
            parseSequence_scalar _ result hitem htext hentry]
          exact h.sequence rest _ _
        | true =>
          rw [parseSequence_mapping _ result hitem htext hentry,
            parseSequence_mapping _ result hitem htext hentry]
          exact (h.mapping _ _ _).andThen fun m _ => h.sequence _ _ _

end FuelKept

theorem fuelKept (fuel : Nat) : FuelKept fuel := by
  induction fuel with
  | zero =>
    refine ⟨fun _ _ x h => ?_, fun _ _ _ x h => ?_, fun _ _ _ x h => ?_⟩
    · rw [parseValue] at h
      cases h
    · rw [parseSequence.eq_def] at h
      cases h
    · rw [parseMapping] at h
      cases h
  | succ fuel ih => exact ⟨ih.value_succ, ih.sequence_succ, ih.mapping_succ⟩

/-- Nor does any amount of it. -/
theorem Parsed.Kept.of_le {α : Type} {call : Nat → Parsed α}
    (h : ∀ fuel, (call fuel).Kept (call (fuel + 1))) {fuel fuel' : Nat} (hle : fuel ≤ fuel') :
    (call fuel).Kept (call fuel') := by
  induction hle with
  | refl => exact .refl _
  | step _ ih => exact ih.trans (h _)

/-! ## Calls at an index -/

/-- A value that begins at the column it is read at goes past its first line. -/
theorem parseValue_line (l : RawLine) (rest : List RawLine) {fuel : Nat}
    (hfuel : 3 * rest.length + 4 ≤ fuel) :
    (parseValue (fuel + 2) (l :: rest) l.indent).Finished rest := by
  have henough := enoughFuel fuel
  rw [parseValue]
  split
  · rename_i hitem
    exact (henough.sequence_item hitem rest [] hfuel).andThen fun _ _ hleft => .ok _ hleft
  · rename_i hitem
    exact (henough.mapping_entry (by simpa using hitem) rest [] (by omega)).andThen
      fun _ _ hleft => .ok _ hleft

/-- A call at an index comes to an end, with one answer for all fuel that is enough. If
    that is a value, the index with it is in the lines and not before the given one, and
    it is past that one where the call is to move. -/
def Progresses {α : Type} (lines : List RawLine) (i : Nat) (moves : Prop)
    (call : Nat → Parsed α) : Prop :=
  ∃ answer, (∀ fuel, 3 * (lines.length - i) + 3 ≤ fuel → call fuel = some answer) ∧
    ∀ a rest, answer = .ok (a, rest) →
      ∃ j, rest = lines.drop j ∧ i ≤ j ∧ j ≤ lines.length ∧ (moves → i < j)

theorem exists_drop_of_suffix {lines rest : List RawLine} {i : Nat} (hi : i ≤ lines.length)
    (h : rest <:+ lines.drop i) : ∃ j, rest = lines.drop j ∧ i ≤ j ∧ j ≤ lines.length := by
  obtain ⟨front, hfront⟩ := h
  have hlen := congrArg List.length hfront
  rw [List.length_append, List.length_drop] at hlen
  refine ⟨i + front.length, ?_, by omega, by omega⟩
  rw [← List.drop_drop, ← hfront, List.drop_left]

theorem progresses_of_finished {α : Type} {lines : List RawLine} {i : Nat}
    (hi : i ≤ lines.length) {moves : Prop} {call : Nat → Parsed α}
    (hkept : ∀ fuel, (call fuel).Kept (call (fuel + 1)))
    (hend : (call (3 * (lines.length - i) + 3)).Finished (lines.drop i))
    (hmoves : moves → i < lines.length ∧
      (call (3 * (lines.length - i) + 3)).Finished (lines.drop (i + 1))) :
    Progresses lines i moves call := by
  obtain ⟨answer, hanswer, hrest⟩ := hend
  refine ⟨answer, fun fuel hfuel => Parsed.Kept.of_le hkept hfuel answer hanswer, ?_⟩
  intro a rest hok
  by_cases hmove : moves
  · obtain ⟨hlt, answer', hanswer', hpast⟩ := hmoves hmove
    obtain rfl : answer = answer' := Option.some_inj.mp (hanswer.symm.trans hanswer')
    obtain ⟨j, hj, hle, hlen⟩ := exists_drop_of_suffix hlt (hpast a rest hok)
    exact ⟨j, hj, Nat.le_of_succ_le hle, hlen, fun _ => hle⟩
  · obtain ⟨j, hj, hle, hlen⟩ := exists_drop_of_suffix hi (hrest a rest hok)
    exact ⟨j, hj, hle, hlen, fun h => absurd h hmove⟩

/-- Every call of the parser on lines and an index in them comes to an end, with an error
    or with an index that is in the lines and not before the given one. It goes past the
    line at its index if that stands at the column to be read, and is an entry for a
    mapping and an item for a sequence. So the parser answers on all input. -/
theorem parser_progresses (lines : List RawLine) (i : Nat) (hi : i ≤ lines.length)
    (indent : Nat) :
    Progresses lines i (∃ l, lines[i]? = some l ∧ l.indent = indent)
      (fun fuel => parseValue fuel (lines.drop i) indent) ∧
    (∀ m, Progresses lines i
      (∃ l, lines[i]? = some l ∧ l.indent = indent ∧ isSeqItem l.content = false)
      (fun fuel => parseMapping fuel (lines.drop i) indent m)) ∧
    (∀ result, Progresses lines i
      (∃ l, lines[i]? = some l ∧ l.indent = indent ∧ isSeqItem l.content)
      (fun fuel => parseSequence fuel (lines.drop i) indent result)) ∧
    ∀ data, (parseYAML data).isSome := by
  have henough := enoughFuel (3 * (lines.length - i) + 3)
  have hlen : (lines.drop i).length = lines.length - i := List.length_drop
  have hcut {l : RawLine} (hl : lines[i]? = some l) :
      i < lines.length ∧ lines.drop i = l :: lines.drop (i + 1) ∧
        (lines.drop (i + 1)).length = lines.length - i - 1 := by
    obtain ⟨hlt, rfl⟩ := List.getElem?_eq_some_iff.mp hl
    exact ⟨hlt, List.drop_eq_getElem_cons hlt, by rw [List.length_drop]; omega⟩
  refine ⟨?_, fun m => ?_, fun result => ?_, parseYAML_isSome⟩
  · refine progresses_of_finished hi (fun fuel => (fuelKept fuel).value _ _)
      (henough.value _ _ (by omega)) ?_
    intro hmoves
    obtain ⟨l, hl, rfl⟩ := hmoves
    obtain ⟨hlt, hdrop, hrest⟩ := hcut hl
    refine ⟨hlt, ?_⟩
    rw [hdrop]
    exact parseValue_line l _ (by omega)
  · refine progresses_of_finished hi (fun fuel => (fuelKept fuel).mapping _ _ _)
      (henough.mapping _ _ _ (by omega)) ?_
    intro hmoves
    obtain ⟨l, hl, rfl, hitem⟩ := hmoves
    obtain ⟨hlt, hdrop, hrest⟩ := hcut hl
    refine ⟨hlt, ?_⟩
    rw [hdrop]
    exact (enoughFuel _).mapping_entry hitem _ m (by omega)
  · refine progresses_of_finished hi (fun fuel => (fuelKept fuel).sequence _ _ _)
      (henough.sequence _ _ _ (by omega)) ?_
    intro hmoves
    obtain ⟨l, hl, rfl, hitem⟩ := hmoves
    obtain ⟨hlt, hdrop, hrest⟩ := hcut hl
    refine ⟨hlt, ?_⟩
    rw [hdrop]
    exact (enoughFuel _).sequence_item hitem _ result (by omega)

/-- A key with an entry below it. -/
def nestedEntry : List RawLine :=
  [{ indent := 0, content := ascii "a:", lineNo := 1 },
    { indent := 2, content := ascii "b: c", lineNo := 2 }]

/-- The value below the key is read from the second line on, and that line is read. -/
theorem parser_progresses_below_key :
    (∃ l, nestedEntry[1]? = some l ∧ l.indent = 2) ∧
      Progresses nestedEntry 1 (∃ l, nestedEntry[1]? = some l ∧ l.indent = 2)
        (fun fuel => parseValue fuel (nestedEntry.drop 1) 2) :=
  ⟨⟨_, rfl, rfl⟩, (parser_progresses nestedEntry 1 (by decide) 2).1⟩

end HootLb.Config
