import HootLb.Spec.Trimming
import HootLb.Spec.YamlLines

/-!
# Writing a document and reading it back

The canonical text of a tree: two spaces for each level, values in double quotes, a
mapping in a sequence with its first entry at the dash and the others two columns past
it. The parser returns the tree from its text. Between the quotes anything may stand that
keeps to one line and has no double quote in it: the number signs, colons, dashes and
apostrophes there are neither comments nor separators.

1. Lines: the passes of `preprocess` leave a line as it is if its content has no space
   around it and its quotes are closed (`preprocessFrom_line`)
2. Trees: the lines of a canonical tree are such lines (`Canonical.readable`), and they
   read as the tree (`Canonical.reads`)

## Key results

- `Canonical`: the trees that have a canonical text
- `parseYAML_render`: the parser returns them
-/

namespace HootLb.Config

open GoString

/-! ## The canonical text -/

/-- Letters, digits and the underscore. Runes beyond ASCII are made of the bytes from 128
    on, whether they are letters or not. -/
def isWordByte (b : UInt8) : Bool :=
  48 ≤ b && b ≤ 57 || 65 ≤ b && b ≤ 90 || 97 ≤ b && b ≤ 122 || b == 95 || 128 ≤ b

/-- A non-empty word over letters, digits and the underscore. Of the runes beyond ASCII
    only those that are space matter to the parser, and only at the ends. -/
structure IsWord (s : GoString) : Prop where
  bytes : ∀ b ∈ s, isWordByte b
  trimmed : Trimmed s

/-- A text that can be written between double quotes: no double quote and no line break. -/
def FitsQuotes (s : GoString) : Prop := ∀ b ∈ s, b ≠ 34 ∧ b ≠ 13 ∧ b ≠ 10

instance (s : GoString) : Decidable (FitsQuotes s) :=
  List.decidableBAll (fun b => b ≠ 34 ∧ b ≠ 13 ∧ b ≠ 10) s

/-- The trees that have a canonical text, as the part of a document they stand for: the
    keys of a mapping are distinct words, the values below them texts, mappings and
    sequences, the items of a sequence words and mappings; nothing but the document
    itself is empty. -/
inductive Canonical : Part → Yaml → Prop where
  | noEntries : Canonical .entries (.map [])
  | textEntry {key text : GoString} {es : List (GoString × Yaml)} (hkey : IsWord key)
      (htext : FitsQuotes text) (hes : Canonical .entries (.map es))
      (hfresh : key ∉ es.map Prod.fst) : Canonical .entries (.map ((key, .scalar text) :: es))
  | entry {key : GoString} {v : Yaml} {es : List (GoString × Yaml)} (hkey : IsWord key)
      (hv : Canonical .belowKey v) (hes : Canonical .entries (.map es))
      (hfresh : key ∉ es.map Prod.fst) : Canonical .entries (.map ((key, v) :: es))
  | mapping {es : List (GoString × Yaml)} (hne : es ≠ []) (hes : Canonical .entries (.map es)) :
      Canonical .belowKey (.map es)
  | sequence {vs : List Yaml} (hne : vs ≠ []) (hvs : Canonical .items (.seq vs)) :
      Canonical .belowKey (.seq vs)
  | noItems : Canonical .items (.seq [])
  | wordItem {word : GoString} {vs : List Yaml} (hword : IsWord word)
      (hvs : Canonical .items (.seq vs)) : Canonical .items (.seq (.scalar word :: vs))
  | mappingItem {es : List (GoString × Yaml)} {vs : List Yaml} (hne : es ≠ [])
      (hes : Canonical .entries (.map es)) (hvs : Canonical .items (.seq vs)) :
      Canonical .items (.seq (.map es :: vs))

/-- A line to be written. -/
structure Line where
  indent : Nat
  content : GoString

/-- A text in double quotes. -/
def quote (text : GoString) : GoString := ascii "\"" ++ text ++ ascii "\""

/-- How the words of a sequence are written: as they are, or in quotes like the values
    of a mapping. -/
inductive WordStyle where
  | plain
  | quoted

def WordStyle.write : WordStyle → GoString → GoString
  | plain, word => word
  | quoted, word => quote word

/-- The lines of an item, from those of its value two columns past the dash. -/
def dashed (n : Nat) : List Line → List Line
  | [] => [{ indent := n, content := ascii "-" }]
  | first :: rest => { indent := n, content := ascii "- " ++ first.content } :: rest

mutual

/-- The lines of a value at a column. -/
def valueLines (style : WordStyle) (n : Nat) : Yaml → List Line
  | .null => []
  | .scalar word => [{ indent := n, content := style.write word }]
  | .seq items => itemLines style n items
  | .map entries => entryLines style n entries

/-- The lines of a mapping. -/
def entryLines (style : WordStyle) (n : Nat) : List (GoString × Yaml) → List Line
  | [] => []
  | (key, .scalar text) :: es =>
    { indent := n, content := key ++ ascii ": " ++ quote text } :: entryLines style n es
  | (key, v) :: es =>
    { indent := n, content := key ++ ascii ":" } ::
      (valueLines style (n + 2) v ++ entryLines style n es)

/-- The lines of a sequence. -/
def itemLines (style : WordStyle) (n : Nat) : List Yaml → List Line
  | [] => []
  | v :: vs => dashed n (valueLines style (n + 2) v) ++ itemLines style n vs

end

/-- The line in the file, without its line break. -/
def Line.text (l : Line) : GoString := List.replicate l.indent 32 ++ l.content

/-- The canonical text of a document. -/
def render (style : WordStyle) (tree : List (GoString × Yaml)) : GoString :=
  (entryLines style 0 tree).flatMap fun l => l.text ++ ascii "\n"

/-! ## Quotes and words -/

/-- A byte that opens and closes a quoted text. -/
def IsQuote (q : UInt8) : Prop := q = 34 ∨ q = 39

instance (q : UInt8) : Decidable (IsQuote q) := inferInstanceAs (Decidable (_ ∨ _))

theorem IsQuote.visible {q : UInt8} (h : IsQuote q) : isVisible q := by
  rcases h with rfl | rfl <;> rfl

/-- A text between two quotes of either kind. -/
def quoteWith (q : UInt8) (text : GoString) : GoString := q :: (text ++ [q])

theorem quote_eq (text : GoString) : quote text = quoteWith 34 text := by
  simp [quote, quoteWith, ascii]

theorem quoteWith_getLast? (q : UInt8) (text : GoString) :
    (quoteWith q text).getLast? = some q := by
  simp [quoteWith, List.getLast?_cons]

theorem quoteWith_trimmed {q : UInt8} (hq : IsQuote q) (text : GoString) :
    Trimmed (quoteWith q text) :=
  trimmed_of_visible hq.visible (by rw [quoteWith_getLast?]; exact hq.visible)

theorem quote_trimmed (text : GoString) : Trimmed (quote text) :=
  quote_eq text ▸ quoteWith_trimmed (.inl rfl) text

namespace IsWord

variable {word : GoString}

/-- A byte that is not part of any word. -/
theorem not_mem (h : IsWord word) {b : UInt8} (hb : isWordByte b = false) : b ∉ word := by
  intro hmem
  rw [h.bytes b hmem] at hb
  cases hb

theorem ne_of_mem (h : IsWord word) {b c : UInt8} (hb : b ∈ word) (hc : isWordByte c = false) :
    b ≠ c := by
  rintro rfl
  exact h.not_mem hc hb

/-- The words over the letters of ASCII. -/
theorem of_ascii (hne : word ≠ []) (h : word.all fun b => isWordByte b && b < 128) :
    IsWord word := by
  have hbytes : ∀ b ∈ word, isWordByte b ∧ b < 128 := by simpa using h
  have hvisible : ∀ b ∈ word, isVisible b := by
    intro b hb
    obtain ⟨hword, hlt⟩ := hbytes b hb
    simp only [isWordByte, isVisible, Bool.or_eq_true, Bool.and_eq_true, decide_eq_true_eq,
      beq_iff_eq, UInt8.le_iff_toNat_le, UInt8.lt_iff_toNat_lt, ← UInt8.toNat_inj,
      UInt8.reduceToNat] at hword hlt ⊢
    omega
  refine ⟨fun b hb => (hbytes b hb).1, trimmed_of_visible ?_ ?_⟩
  · rw [List.head?_eq_some_head hne]
    exact hvisible _ (List.head_mem hne)
  · rw [List.getLast?_eq_some_getLast hne]
    exact hvisible _ (List.getLast_mem hne)

theorem fitsQuotes (h : IsWord word) : FitsQuotes word := fun b hb =>
  ⟨h.ne_of_mem hb (by decide), h.ne_of_mem hb (by decide), h.ne_of_mem hb (by decide)⟩

end IsWord

/-! ## Comments -/

/-- The text is kept by `stripComment` and leaves it outside of quotes. -/
def Uncommented (s : GoString) : Prop :=
  ∀ rest, stripComment (s ++ rest) = s ++ stripComment rest

theorem Uncommented.append {s t : GoString} (hs : Uncommented s) (ht : Uncommented t) :
    Uncommented (s ++ t) := by
  intro rest
  rw [List.append_assoc, hs, ht, List.append_assoc]

theorem Uncommented.stripComment_eq {s : GoString} (h : Uncommented s) : stripComment s = s := by
  have hs := h []
  rwa [List.append_nil, show stripComment [] = [] from rfl, List.append_nil] at hs

/-- A text without quotes and number signs. -/
theorem uncommented_of_plain {s : GoString} (hsingle : 39 ∉ s) (hdouble : 34 ∉ s)
    (hnumber : 35 ∉ s) : Uncommented s := by
  intro rest
  unfold stripComment
  induction s with
  | nil => rfl
  | cons b s ih =>
    rw [List.mem_cons, not_or] at hsingle hdouble hnumber
    rw [List.cons_append, stripCommentFrom, if_neg (Ne.symm hsingle.1),
      if_neg (Ne.symm hdouble.1), if_neg (fun h => hnumber.1 h.1.symm),
      ih hsingle.2 hdouble.2 hnumber.2, List.cons_append]

/-- Up to the closing quote nothing is a comment, and the other kind of quote opens
    nothing. -/
theorem stripCommentFrom_quoted {q : UInt8} (hq : IsQuote q) {text : GoString} (h : q ∉ text)
    (rest : GoString) :
    stripCommentFrom (q = 39) (q = 34) (text ++ q :: rest) =
      text ++ q :: stripCommentFrom false false rest := by
  induction text with
  | nil => rcases hq with rfl | rfl <;> rfl
  | cons b text ih =>
    rw [List.mem_cons, not_or] at h
    have ih := ih h.2
    rcases hq with rfl | rfl
    · rw [List.cons_append, stripCommentFrom, if_neg (Ne.symm h.1)]
      simpa using ih
    · rw [List.cons_append, stripCommentFrom, if_neg (Ne.symm h.1)]
      simpa using ih

theorem uncommented_quoteWith {q : UInt8} (hq : IsQuote q) {text : GoString} (h : q ∉ text) :
    Uncommented (quoteWith q text) := by
  intro rest
  have hquoted := stripCommentFrom_quoted hq h rest
  unfold stripComment quoteWith
  rcases hq with rfl | rfl <;> simpa [stripCommentFrom] using hquoted

/-! ## Lines that survive -/

/-- The content of a line that reaches the parser as it was written. -/
structure Readable (s : GoString) : Prop where
  trimmed : Trimmed s
  uncommented : Uncommented s
  noBreak : 10 ∉ s

theorem IsWord.uncommented {word : GoString} (h : IsWord word) : Uncommented word :=
  uncommented_of_plain (h.not_mem (by decide)) (h.not_mem (by decide)) (h.not_mem (by decide))

theorem IsWord.readable {word : GoString} (h : IsWord word) : Readable word where
  trimmed := h.trimmed
  uncommented := h.uncommented
  noBreak := h.not_mem (by decide)

theorem readable_quoteWith {q : UInt8} (hq : IsQuote q) {text : GoString} (hmark : q ∉ text)
    (hbreak : 10 ∉ text) : Readable (quoteWith q text) where
  trimmed := quoteWith_trimmed hq text
  uncommented := uncommented_quoteWith hq hmark
  noBreak := by rcases hq with rfl | rfl <;> simpa [quoteWith] using hbreak

theorem FitsQuotes.readable_quote {text : GoString} (h : FitsQuotes text) :
    Readable (quote text) :=
  quote_eq text ▸ readable_quoteWith (.inl rfl) (fun hmem => (h 34 hmem).1 rfl)
    fun hmem => (h 10 hmem).2.2 rfl

theorem readable_write (style : WordStyle) {word : GoString} (h : IsWord word) :
    Readable (style.write word) := by
  cases style with
  | plain => exact h.readable
  | quoted => exact h.fitsQuotes.readable_quote

theorem IsWord.readable_bare {key : GoString} (h : IsWord key) : Readable (key ++ ascii ":") where
  trimmed := ⟨by simp [ascii], not_beginsWithSpace_append h.trimmed (by decide) [],
    not_endsWithSpace_visible (by decide) key⟩
  uncommented := h.uncommented.append (uncommented_of_plain (by decide) (by decide) (by decide))
  noBreak := by simp [h.not_mem (b := 10) (by decide), ascii]

theorem IsWord.readable_entry {key text : GoString} (h : IsWord key) (htext : Readable text) :
    Readable (key ++ ascii ": " ++ text) where
  trimmed := by
    have hbegins := not_beginsWithSpace_append h.trimmed (b := 58) (by decide) (32 :: text)
    have hends := not_endsWithSpace_append htext.trimmed (b := 32) (by decide) (key ++ [58])
    exact ⟨by simp [ascii], by simpa [ascii] using hbegins, by simpa [ascii] using hends⟩
  uncommented := by
    have hsep : Uncommented (ascii ": ") :=
      uncommented_of_plain (by decide) (by decide) (by decide)
    exact (h.uncommented.append hsep).append htext.uncommented
  noBreak := by simp [h.not_mem (b := 10) (by decide), htext.noBreak, ascii]

theorem readable_dash : Readable (ascii "-") where
  trimmed := trimmed_of_visible rfl rfl
  uncommented := uncommented_of_plain (by decide) (by decide) (by decide)
  noBreak := by decide

theorem Readable.item {s : GoString} (h : Readable s) : Readable (ascii "- " ++ s) where
  trimmed := ⟨by simp [ascii], not_beginsWithSpace_visible (by decide) _,
    not_endsWithSpace_append h.trimmed (by decide) (ascii "-")⟩
  uncommented := (uncommented_of_plain (by decide) (by decide) (by decide)).append h.uncommented
  noBreak := by simp [h.noBreak, ascii]

/-- The line of the file as the parser gets it. -/
def Line.numbered (l : Line) (lineNo : Nat) : RawLine :=
  { indent := l.indent, content := l.content, lineNo }

/-- `splitIndent` takes a line apart into its spaces and a text that does not begin with
    a blank. -/
theorem splitIndent_eq_some_iff {line content : GoString} {indent : Nat} :
    splitIndent line = some (indent, content) ↔
      line = List.replicate indent 32 ++ content ∧ content.head? ≠ some 32 ∧
        content.head? ≠ some 9 := by
  constructor
  · intro h
    unfold splitIndent at h
    dsimp only at h
    split at h
    · cases h
    · rename_i htab
      cases h
      have hspaces : line.takeWhile (· = 32) =
          List.replicate (line.takeWhile (· = 32)).length 32 :=
        List.eq_replicate_iff.mpr ⟨rfl, fun b hb => by simpa using List.mem_takeWhile_imp hb⟩
      have hhead := List.head?_dropWhile_not (fun b : UInt8 => decide (b = 32)) line
      refine ⟨?_, ?_, htab⟩
      · rw [← hspaces, List.takeWhile_append_dropWhile]
      · intro hspace
        rw [hspace] at hhead
        simp at hhead
  · intro h
    obtain ⟨rfl, hspace, htab⟩ := h
    have hdrop : content.dropWhile (· = 32) = content := by
      cases content with
      | nil => rfl
      | cons b t => simpa using hspace
    have htake : content.takeWhile (· = 32) = [] := by
      cases content with
      | nil => rfl
      | cons b t => simpa using hspace
    unfold splitIndent
    rw [List.dropWhile_append_of_pos (by simp), List.takeWhile_append_of_pos (by simp), hdrop,
      htake]
    simp [htab]

theorem splitIndent_text {l : Line} (h : Trimmed l.content) :
    splitIndent l.text = some (l.indent, l.content) := by
  refine splitIndent_eq_some_iff.mpr ⟨rfl, ?_, ?_⟩
  · intro hspace
    obtain ⟨t, ht⟩ := List.head?_eq_some_iff.mp hspace
    exact h.begins ⟨[32], by decide, t, ht.symm⟩
  · intro htab
    obtain ⟨t, ht⟩ := List.head?_eq_some_iff.mp htab
    exact h.begins ⟨[9], by decide, t, ht.symm⟩

/-- A readable line loses nothing on its way. -/
theorem preprocessFrom_line {l : Line} (h : Readable l.content) (lineNo : Nat)
    {raws : List GoString} {lines : List RawLine}
    (hrest : preprocessFrom (lineNo + 1) raws = .ok lines) :
    preprocessFrom lineNo (l.text :: raws) = .ok (l.numbered lineNo :: lines) := by
  have hspaces : Uncommented (List.replicate l.indent 32) :=
    uncommented_of_plain (by simp) (by simp) (by simp)
  have htrim : trimRight (stripComment (trimRight l.text [13])) [32, 9] =
      l.text := by
    unfold Line.text
    rw [trimRight_of_trimmed h.trimmed _ (by decide),
      (hspaces.append h.uncommented).stripComment_eq,
      trimRight_of_trimmed h.trimmed _ (by decide)]
  have hblank : trimSpace l.text ≠ [] := by
    unfold Line.text
    rw [trimSpace_indented, trimSpace_of_trimmed h.trimmed]
    exact h.trimmed.ne_nil
  have hcontent : trimRight l.content [32, 9] = l.content :=
    trimRight_of_trimmed h.trimmed [] (by decide)
  rw [preprocessFrom, htrim, if_neg hblank, splitIndent_text h.trimmed, hrest]
  simp only [hcontent, Line.numbered]

/-- The lines as the parser gets them, numbered from the first one on. -/
def numberLines (lineNo : Nat) (lines : List Line) : List RawLine :=
  (lines.zipIdx lineNo).map fun (l, lineNo) => l.numbered lineNo

@[simp] theorem numberLines_nil (lineNo : Nat) : numberLines lineNo [] = [] := rfl

@[simp] theorem numberLines_cons (lineNo : Nat) (l : Line) (lines : List Line) :
    numberLines lineNo (l :: lines) = l.numbered lineNo :: numberLines (lineNo + 1) lines := rfl

@[simp] theorem numberLines_append (lineNo : Nat) (lines more : List Line) :
    numberLines lineNo (lines ++ more) =
      numberLines lineNo lines ++ numberLines (lineNo + lines.length) more := by
  simp [numberLines, List.zipIdx_append]

theorem numberLines_ne_nil {lines : List Line} (h : lines ≠ []) (lineNo : Nat) :
    numberLines lineNo lines ≠ [] := by
  cases lines with
  | nil => exact absurd rfl h
  | cons l lines => exact List.cons_ne_nil _ _

theorem preprocessFrom_written {lines : List Line} (h : ∀ l ∈ lines, Readable l.content)
    (lineNo : Nat) :
    preprocessFrom lineNo (lines.map Line.text ++ [[]]) = .ok (numberLines lineNo lines) := by
  induction lines generalizing lineNo with
  | nil => rfl
  | cons l lines ih =>
    obtain ⟨hl, hlines⟩ := List.forall_mem_cons.mp h
    exact preprocessFrom_line hl lineNo (ih hlines (lineNo + 1))

theorem splitOn_written {lines : List Line} (h : ∀ l ∈ lines, Readable l.content) :
    (lines.flatMap fun l => l.text ++ ascii "\n").splitOn 10 = lines.map Line.text ++ [[]] := by
  induction lines with
  | nil => rfl
  | cons l lines ih =>
    obtain ⟨hl, hlines⟩ := List.forall_mem_cons.mp h
    have hbreak : ∀ b ∈ l.text, (b == 10) = false := by
      intro b hb
      have hne : b ≠ 10 := by
        rintro rfl
        simp [Line.text, hl.noBreak] at hb
      simpa using hne
    rw [List.flatMap_cons, List.append_assoc, List.map_cons, List.cons_append, ← ih hlines]
    -- the text up to the first line break is one piece
    refine (List.splitOnP_append_cons l.text _ (by rfl)).trans ?_
    rw [List.splitOnP_eq_singleton hbreak]
    rfl

theorem preprocess_written {lines : List Line} (h : ∀ l ∈ lines, Readable l.content) :
    preprocess (lines.flatMap fun l => l.text ++ ascii "\n") = .ok (numberLines 1 lines) := by
  unfold preprocess
  rw [splitOn_written h, preprocessFrom_written h]

/-! ## Entries and items -/

/-- A line is split at its first colon. -/
theorem splitKeyVal_colon {front : GoString} (h : 58 ∉ front) (val : GoString) (lineNo : Nat) :
    splitKeyVal (front ++ 58 :: val) lineNo =
      if trimSpace front = [] then .error (.emptyKey lineNo)
      else if trimSpace val = [] then .ok (trimSpace front, none)
      else .ok (trimSpace front, some (trimSpace val)) := by
  have htake : (front ++ 58 :: val).takeWhile (· ≠ 58) = front := by
    rw [List.takeWhile_append_of_pos]
    · simp
    · intro b hb
      have hne : b ≠ 58 := fun heq => h (heq ▸ hb)
      exact decide_eq_true hne
  have hdrop : (front ++ 58 :: val).drop (front.length + 1) = val := by simp
  unfold splitKeyVal
  rw [if_neg (by simp), htake]
  dsimp only
  rw [List.take_left, hdrop]

/-- An entry of a mapping is split at the end of its key. -/
theorem splitKeyVal_key {key : GoString} (h : IsWord key) (val : GoString) (lineNo : Nat) :
    splitKeyVal (key ++ 58 :: val) lineNo =
      if trimSpace val = [] then .ok (key, none)
      else .ok (key, some (trimSpace val)) := by
  rw [splitKeyVal_colon (h.not_mem (by decide)), trimSpace_of_trimmed h.trimmed,
    if_neg h.trimmed.ne_nil]

theorem splitKeyVal_text {key text : GoString} (h : IsWord key) (htext : Trimmed text)
    (lineNo : Nat) :
    splitKeyVal (key ++ ascii ": " ++ text) lineNo = .ok (key, some text) := by
  have hval : trimSpace (32 :: text) = text := by
    rw [trimSpace_space, trimSpace_of_trimmed htext]
  have hsplit := splitKeyVal_key h (32 :: text) lineNo
  rw [hval, if_neg htext.ne_nil] at hsplit
  rw [List.append_assoc]
  exact hsplit

theorem splitKeyVal_bare {key : GoString} (h : IsWord key) (lineNo : Nat) :
    splitKeyVal (key ++ ascii ":") lineNo = .ok (key, none) :=
  splitKeyVal_key h [] lineNo

theorem looksLikeMapEntry_iff (text : GoString) : looksLikeMapEntry text ↔ 58 ∈ text := by
  unfold looksLikeMapEntry GoString.contains
  rw [decide_eq_true_iff]
  exact List.singleton_infix_iff 58 text

/-- What can be split is taken for an entry after a dash, too. -/
theorem looksLikeMapEntry_of_splitKeyVal {content key : GoString} {val : Option GoString}
    {lineNo : Nat} (h : splitKeyVal content lineNo = .ok (key, val)) :
    looksLikeMapEntry content := by
  unfold splitKeyVal at h
  by_cases hcolon : 58 ∈ content
  · exact (looksLikeMapEntry_iff content).mpr hcolon
  · rw [if_pos hcolon] at h
    cases h

theorem Reads.head_colon {n : Nat} {l : RawLine} {lines : List RawLine} {v : Yaml}
    (h : Reads .entries n (l :: lines) v) : looksLikeMapEntry l.content := by
  cases h with
  | inlineEntry _ hsplit _ _ => exact looksLikeMapEntry_of_splitKeyVal hsplit
  | entry _ hsplit _ _ _ => exact looksLikeMapEntry_of_splitKeyVal hsplit

/-- A key is not taken for an item. -/
theorem isSeqItem_key {key : GoString} (h : IsWord key) (rest : GoString) :
    isSeqItem (key ++ rest) = false := by
  obtain ⟨b, t, rfl⟩ := List.exists_cons_of_ne_nil h.trimmed.ne_nil
  have hb : b ≠ 45 := h.ne_of_mem List.mem_cons_self (by decide)
  simp [isSeqItem, ascii, GoString.hasPrefix, List.isPrefixOf, hb, hb.symm]

theorem isSeqItem_dash (s : GoString) : isSeqItem (ascii "- " ++ s) := by
  simp [isSeqItem, ascii, GoString.hasPrefix]

theorem itemText_dash {s : GoString} (h : Trimmed s) : itemText (ascii "- " ++ s) = s := by
  have hcut : trimPrefix (ascii "- " ++ s) (ascii "-") = 32 :: s := by
    simp [ascii, trimPrefix, GoString.hasPrefix]
  unfold itemText
  rw [hcut, trimSpace_space, trimSpace_of_trimmed h]

theorem parseScalar_quoteWith {q : UInt8} (hq : IsQuote q) (text : GoString) :
    parseScalar (quoteWith q text) = text := by
  have hcut : ((quoteWith q text).drop 1).dropLast = text := List.dropLast_concat
  unfold parseScalar
  rw [trimSpace_of_trimmed (quoteWith_trimmed hq text)]
  dsimp only
  rw [quoteWith_getLast?, hcut, if_pos]
  rcases hq with rfl | rfl <;> simp [quoteWith]

theorem parseScalar_quote (text : GoString) : parseScalar (quote text) = text :=
  quote_eq text ▸ parseScalar_quoteWith (.inl rfl) text

theorem parseScalar_word {word : GoString} (h : IsWord word) : parseScalar word = word := by
  obtain ⟨b, t, rfl⟩ := List.exists_cons_of_ne_nil h.trimmed.ne_nil
  have hdouble : b ≠ 34 := h.ne_of_mem List.mem_cons_self (by decide)
  have hsingle : b ≠ 39 := h.ne_of_mem List.mem_cons_self (by decide)
  unfold parseScalar
  rw [trimSpace_of_trimmed h.trimmed]
  simp [hdouble, hsingle]

theorem parseScalar_write (style : WordStyle) {word : GoString} (h : IsWord word) :
    parseScalar (style.write word) = word := by
  cases style with
  | plain => exact parseScalar_word h
  | quoted => exact parseScalar_quote word

theorem looksLikeMapEntry_write (style : WordStyle) {word : GoString} (h : IsWord word) :
    looksLikeMapEntry (style.write word) = false := by
  have hcolon : 58 ∉ style.write word := by
    cases style with
    | plain => exact h.not_mem (by decide)
    | quoted => simp [WordStyle.write, quote, ascii, h.not_mem (b := 58) (by decide)]
  rwa [Bool.eq_false_iff, ne_eq, looksLikeMapEntry_iff]

/-! ## Trees -/

/-- The column of a part's lines: what is below a key stands one level further in. -/
def Part.column : Part → Nat → Nat
  | .belowKey, n => n + 2
  | .entries, n | .items, n | .belowDash, n => n

/-- The lines of an entry with a block below its key. -/
theorem Canonical.entryLines_cons {v : Yaml} (h : Canonical .belowKey v) (style : WordStyle)
    (n : Nat) (key : GoString) (es : List (GoString × Yaml)) :
    entryLines style n ((key, v) :: es) =
      { indent := n, content := key ++ ascii ":" } ::
        (valueLines style (n + 2) v ++ entryLines style n es) := by
  cases h with
  | mapping | sequence => rfl

theorem readable_dashed {n : Nat} {lines : List Line} (h : ∀ l ∈ lines, Readable l.content) :
    ∀ l ∈ dashed n lines, Readable l.content := by
  cases lines with
  | nil => exact List.forall_mem_singleton.mpr readable_dash
  | cons first rest =>
    obtain ⟨hfirst, hrest⟩ := List.forall_mem_cons.mp h
    exact List.forall_mem_cons.mpr ⟨hfirst.item, hrest⟩

/-- Every line of a canonical tree reaches the parser. -/
theorem Canonical.readable {p : Part} {v : Yaml} (h : Canonical p v) (style : WordStyle) (n : Nat) :
    ∀ l ∈ valueLines style n v, Readable l.content := by
  induction h generalizing n with
  | noEntries | noItems =>
    intro l hl
    cases hl
  | textEntry hkey htext hes hfresh ih =>
    exact List.forall_mem_cons.mpr ⟨hkey.readable_entry htext.readable_quote, ih n⟩
  | entry hkey hv hes hfresh ihv ihes =>
    rw [valueLines, hv.entryLines_cons]
    exact List.forall_mem_cons.mpr
      ⟨hkey.readable_bare, List.forall_mem_append.mpr ⟨ihv (n + 2), ihes n⟩⟩
  | mapping hne hes ih | sequence hne hvs ih => exact ih n
  | wordItem hword hvs ih =>
    exact List.forall_mem_cons.mpr ⟨(readable_write style hword).item, ih n⟩
  | mappingItem hne hes hvs ihes ihvs =>
    exact List.forall_mem_append.mpr ⟨readable_dashed (ihes (n + 2)), ihvs n⟩

/-- A mapping or a sequence with something in it takes a line. -/
theorem Canonical.lines_ne_nil {v : Yaml} (h : Canonical .belowKey v) (style : WordStyle)
    (n : Nat) : valueLines style n v ≠ [] := by
  cases h with
  | mapping hne hes =>
    cases hes with
    | noEntries => exact absurd rfl hne
    | textEntry => exact List.cons_ne_nil _ _
    | entry hkey hv =>
      rw [valueLines, hv.entryLines_cons]
      exact List.cons_ne_nil _ _
  | @sequence vs hne hvs =>
    cases vs with
    | nil => exact absurd rfl hne
    | cons v vs =>
      rw [valueLines, itemLines]
      cases valueLines style (n + 2) v with
      | nil | cons => exact List.cons_ne_nil _ _

/-- A mapping at a dash is read as one that begins two columns further in. -/
theorem reads_dashed {n lineNo : Nat} {lines : List Line} {rest : List RawLine} {v : Yaml}
    {vs : List Yaml} (hreadable : ∀ l ∈ lines, Readable l.content) (hne : lines ≠ [])
    (hsub : Reads .entries (n + 2) (numberLines lineNo lines) v)
    (hrest : Reads .items n rest (.seq vs)) :
    Reads .items n (numberLines lineNo (dashed n lines) ++ rest) (.seq (v :: vs)) := by
  cases lines with
  | nil => exact absurd rfl hne
  | cons first more =>
    obtain ⟨hfirst, -⟩ := List.forall_mem_cons.mp hreadable
    -- the line at the dash, which the parser takes apart again
    let l : RawLine := { indent := n, content := ascii "- " ++ first.content, lineNo }
    have htext : itemText l.content = first.content := itemText_dash hfirst.trimmed
    have hindent : first.indent = n + 2 := (hsub.head_entries rfl).1
    have hafter : l.afterDash = first.numbered lineNo := by
      simp only [RawLine.afterDash, Line.numbered, htext, hindent, l]
    refine Reads.mappingItem (l := l) (isSeqItem_dash _) ?_ ?_ ?_ hrest
    · rw [htext]
      exact hfirst.trimmed.ne_nil
    · rw [htext]
      exact hsub.head_colon
    · rw [hafter]
      exact hsub

/-- The lines of a canonical tree read as the tree, wherever they stand in the file. -/
theorem Canonical.reads {p : Part} {v : Yaml} (h : Canonical p v) (style : WordStyle)
    (n lineNo : Nat) : Reads p n (numberLines lineNo (valueLines style (p.column n) v)) v := by
  -- by induction on the tree, one rule of the grammar for each kind of line
  induction h generalizing n lineNo with
  | noEntries => exact .noEntries n
  | noItems => exact .noItems n
  | @textEntry key text es hkey htext hes hfresh ih =>
    let l : Line := { indent := n, content := key ++ ascii ": " ++ quote text }
    have hitem : isSeqItem l.content = false := by
      dsimp only [l]
      rw [List.append_assoc]
      exact isSeqItem_key hkey _
    have hentry := Reads.inlineEntry (l := l.numbered lineNo) hitem
      (splitKeyVal_text hkey (quote_trimmed text) lineNo) (ih n (lineNo + 1)) hfresh
    rwa [parseScalar_quote] at hentry
  | @entry key v es hkey hv hes hfresh ihv ihes =>
    let l : Line := { indent := n, content := key ++ ascii ":" }
    rw [Part.column, valueLines, hv.entryLines_cons, numberLines_cons, numberLines_append]
    exact Reads.entry (l := l.numbered lineNo) (isSeqItem_key hkey _)
      (splitKeyVal_bare hkey lineNo) (ihv n (lineNo + 1)) (ihes n _) hfresh
  | mapping hne hes ih =>
    have hlines := numberLines_ne_nil ((mapping hne hes).lines_ne_nil style (n + 2)) lineNo
    exact .mappingBelowKey (by omega) hlines (ih (n + 2) lineNo)
  | sequence hne hvs ih =>
    have hlines := numberLines_ne_nil ((sequence hne hvs).lines_ne_nil style (n + 2)) lineNo
    exact .sequenceBelowKey (by omega) hlines (ih (n + 2) lineNo)
  | @wordItem word vs hword hvs ih =>
    let l : Line := { indent := n, content := ascii "- " ++ style.write word }
    have hwritten := (readable_write style hword).trimmed
    have htext : itemText (l.numbered lineNo).content = style.write word := itemText_dash hwritten
    have hitem := Reads.scalarItem (l := l.numbered lineNo) (isSeqItem_dash _)
      (htext ▸ hwritten.ne_nil) (htext ▸ looksLikeMapEntry_write style hword) (ih n (lineNo + 1))
    rwa [htext, parseScalar_write style hword] at hitem
  | mappingItem hne hes hvs ihes ihvs =>
    rw [Part.column, valueLines, itemLines, numberLines_append]
    exact reads_dashed (hes.readable style (n + 2))
      ((mapping hne hes).lines_ne_nil style (n + 2)) (ihes (n + 2) lineNo) (ihvs n _)

/-- The parser returns every canonical tree from its text. -/
theorem parseYAML_render (style : WordStyle) {tree : List (GoString × Yaml)}
    (h : Canonical .entries (.map tree)) : parseYAML (render style tree) = some (.ok tree) :=
  (h.reads style 0 1).parseYAML (preprocess_written (h.readable style 0))

/-- A document with separators and a comment sign between quotes, and a sequence below a
    mapping in a sequence. -/
theorem parseYAML_render_pools :
    parseYAML (ascii
      "bind: \":80 # it's\"\npools:\n  - web\n  - name: \"- a: b\"\n    nodes:\n      - s_1\n") =
      some (.ok [(ascii "bind", .scalar (ascii ":80 # it's")),
        (ascii "pools", .seq [.scalar (ascii "web"),
          .map [(ascii "name", .scalar (ascii "- a: b")),
            (ascii "nodes", .seq [.scalar (ascii "s_1")])]])]) := by
  have hquoted : FitsQuotes (ascii ":80 # it's") ∧ FitsQuotes (ascii "- a: b") := by decide
  have hbind : IsWord (ascii "bind") := .of_ascii (by decide) (by decide)
  have hpools : IsWord (ascii "pools") := .of_ascii (by decide) (by decide)
  have hweb : IsWord (ascii "web") := .of_ascii (by decide) (by decide)
  have hname : IsWord (ascii "name") := .of_ascii (by decide) (by decide)
  have hnodes : IsWord (ascii "nodes") := .of_ascii (by decide) (by decide)
  have hserver : IsWord (ascii "s_1") := .of_ascii (by decide) (by decide)
  have hservers := Canonical.sequence (by simp) (.wordItem hserver .noItems)
  have hitem := Canonical.textEntry hname hquoted.2
    (.entry hnodes hservers .noEntries (by simp)) (by decide)
  have hitems := Canonical.sequence (by simp)
    (.wordItem hweb (.mappingItem (by simp) hitem .noItems))
  have htree := Canonical.textEntry hbind hquoted.1
    (.entry hpools hitems .noEntries (by simp)) (by decide)
  refine Eq.trans (congrArg parseYAML ?_) (parseYAML_render .plain htree)
  decide +kernel

end HootLb.Config
