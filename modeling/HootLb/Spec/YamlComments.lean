import HootLb.ForStd.List
import HootLb.Spec.YamlContext
import HootLb.Spec.YamlSameLines

/-!
# Comments at the end of a line

A comment that is appended to a line should not change what the document says.
`stripComment` takes it away if the line ends outside of quotes, and it takes every
apostrophe for a quote: behind `it's` a comment becomes part of the value. A line that
ends in a carriage return has lost it before the comment was there and keeps it
afterwards; all that reads the line trims it away, except the test for a bare dash.

## Key results

- `openQuote`: the quote that is open at the end of a text
- `trimmedLine_comment`, `trimmedLine_open`: what is left of a line with a comment
- `comment_ignored`: which comments do not matter
-/

namespace HootLb.Config

open GoString

/-! ## Open quotes -/

/-- The quote that is open after one more byte. -/
def nextQuote (q : Option UInt8) (b : UInt8) : Option UInt8 :=
  match q with
  | none => if IsQuote b then some b else none
  | some q => if b = q then none else some q

/-- The quote that is open after a text. -/
def openQuote (s : GoString) : Option UInt8 := s.foldl nextQuote none

/-- There is a number sign outside of quotes. -/
def HasComment (s : GoString) : Prop :=
  ∃ front rest, s = front ++ 35 :: rest ∧ openQuote front = none

/-- What is appended to the line stands outside of quotes, or in a comment already. -/
def EndsOutside (s : GoString) : Prop := openQuote s = none ∨ HasComment s

/-- `stripCommentFrom` with its two flags as the open quote. -/
def stripFrom (q : Option UInt8) (s : GoString) : GoString :=
  stripCommentFrom (q = some 39) (q = some 34) s

theorem stripComment_eq_stripFrom (s : GoString) : stripComment s = stripFrom none s := rfl

theorem stripFrom_cons {q : Option UInt8} (hq : ∀ c ∈ q, IsQuote c) (b : UInt8) (s : GoString) :
    stripFrom q (b :: s) =
      if b = 35 ∧ q = none then [] else b :: stripFrom (nextQuote q b) s := by
  have hcases : q = none ∨ q = some 34 ∨ q = some 39 := by
    cases q with
    | none => exact .inl rfl
    | some c => rcases hq c rfl with rfl | rfl <;> simp
  unfold stripFrom nextQuote
  rw [stripCommentFrom]
  by_cases hsingle : b = 39
  · subst hsingle
    rcases hcases with rfl | rfl | rfl <;> simp [IsQuote]
  · by_cases hdouble : b = 34
    · subst hdouble
      rcases hcases with rfl | rfl | rfl <;> simp [IsQuote]
    · rcases hcases with rfl | rfl | rfl <;> simp [hsingle, hdouble, IsQuote]

theorem isQuote_nextQuote {q : Option UInt8} (hq : ∀ c ∈ q, IsQuote c) (b : UInt8) :
    ∀ c ∈ nextQuote q b, IsQuote c := by
  intro c hc
  unfold nextQuote at hc
  cases q with
  | none =>
    dsimp only at hc
    split at hc
    · rename_i hb
      cases hc
      exact hb
    · cases hc
  | some q =>
    dsimp only at hc
    split at hc
    · cases hc
    · cases hc
      exact hq c rfl

/-- A text without a comment is kept, and what follows it is read with the quote that is
    open then. -/
theorem stripFrom_append {q : Option UInt8} (hq : ∀ c ∈ q, IsQuote c) {s : GoString}
    (h : ∀ front rest, s = front ++ 35 :: rest → front.foldl nextQuote q ≠ none)
    (rest : GoString) : stripFrom q (s ++ rest) = s ++ stripFrom (s.foldl nextQuote q) rest := by
  induction s generalizing q with
  | nil => rfl
  | cons b s ih =>
    have hkeep : ¬ (b = 35 ∧ q = none) := by
      rintro ⟨rfl, rfl⟩
      exact h [] s rfl rfl
    have hrest : ∀ front rest, s = front ++ 35 :: rest →
        front.foldl nextQuote (nextQuote q b) ≠ none := by
      intro front rest hs
      exact h (b :: front) rest (by rw [hs, List.cons_append])
    rw [List.cons_append, stripFrom_cons hq, if_neg hkeep, ih (isQuote_nextQuote hq b) hrest,
      List.cons_append, List.foldl_cons]

/-- What stands behind a comment sign does not matter. -/
theorem stripFrom_comment {q : Option UInt8} (hq : ∀ c ∈ q, IsQuote c) {front : GoString}
    (h : front.foldl nextQuote q = none) (rest rest' : GoString) :
    stripFrom q (front ++ 35 :: rest) = stripFrom q (front ++ 35 :: rest') := by
  induction front generalizing q with
  | nil =>
    obtain rfl : q = none := h
    rfl
  | cons b front ih =>
    rw [List.cons_append, List.cons_append, stripFrom_cons hq, stripFrom_cons hq,
      ih (isQuote_nextQuote hq b) h]

theorem stripComment_append {s : GoString} (h : ¬ HasComment s) (rest : GoString) :
    stripComment (s ++ rest) = s ++ stripFrom (openQuote s) rest := by
  have hnone : ∀ c ∈ (none : Option UInt8), IsQuote c := fun c hc => by cases hc
  refine stripFrom_append hnone ?_ rest
  intro front rest hs hnone
  exact h ⟨front, rest, hs, hnone⟩

theorem stripComment_of_not_hasComment {s : GoString} (h : ¬ HasComment s) :
    stripComment s = s := by
  have hs := stripComment_append h []
  rwa [List.append_nil, show stripFrom (openQuote s) [] = [] from rfl, List.append_nil] at hs

/-! ## The line with a comment -/

/-- Without a comment, only blanks are trimmed from a line. -/
theorem exists_trimmedLine_append {raw : GoString} (h : ¬ HasComment raw) :
    trimmedLine raw = (raw.trimRight [13]).trimRight [32, 9] ∧
      ∃ blanks, raw = trimmedLine raw ++ blanks ∧ ∀ b ∈ blanks, isBlank b := by
  obtain ⟨returns, hraw, hreturns⟩ := exists_trimRight_append raw [13]
  obtain ⟨spaces, htrim, hspaces⟩ := exists_trimRight_append (raw.trimRight [13]) [32, 9]
  -- a part of the line has no comment either
  have hpart : ¬ HasComment (raw.trimRight [13]) := by
    intro hcomment
    obtain ⟨front, rest, hfront, hopen⟩ := hcomment
    refine h ⟨front, rest ++ returns, ?_, hopen⟩
    rw [hraw, hfront, List.append_assoc, List.cons_append]
  have hline : trimmedLine raw = (raw.trimRight [13]).trimRight [32, 9] := by
    unfold trimmedLine
    rw [stripComment_of_not_hasComment hpart]
  refine ⟨hline, spaces ++ returns, ?_, ?_⟩
  · rw [hline, ← List.append_assoc, ← htrim, ← hraw]
  · intro b hb
    rcases List.mem_append.mp hb with hb | hb
    · exact isBlank_of_mem (by decide) (hspaces b hb)
    · exact isBlank_of_mem (by decide) (hreturns b hb)

/-- A line with a comment appended, as it is before its comment is looked for. -/
theorem trimRight_comment (raw text : GoString) :
    trimRight (raw ++ ascii " #" ++ text) [13] = raw ++ 32 :: 35 :: trimRight text [13] := by
  have happend : raw ++ ascii " #" ++ text = raw ++ [32] ++ 35 :: text := by simp [ascii]
  rw [happend, trimRight_append_cons (by decide)]
  simp

/-- Behind a line that ends outside of quotes, a comment leaves the blanks at the end of
    the line that were trimmed before: none, unless the line ends in a carriage return. -/
theorem trimmedLine_comment {raw : GoString} (h : EndsOutside raw) (text : GoString) :
    ∃ blanks, trimmedLine (raw ++ ascii " #" ++ text) = trimmedLine raw ++ blanks ∧
      (∀ b ∈ blanks, isBlank b) ∧
      (blanks ≠ [] → raw = trimmedLine raw ++ blanks ∧ blanks.getLast? = some 13) := by
  by_cases hcomment : HasComment raw
  · -- the line has a comment already, and it is cut there
    obtain ⟨front, rest, rfl, hopen⟩ := hcomment
    have hnone : ∀ c ∈ (none : Option UInt8), IsQuote c := fun c hc => by cases hc
    refine ⟨[], ?_, by simp, fun hne => absurd rfl hne⟩
    unfold trimmedLine
    rw [trimRight_comment, trimRight_append_cons (by decide), List.append_assoc, List.cons_append,
      List.append_nil, stripComment_eq_stripFrom, stripComment_eq_stripFrom,
      stripFrom_comment hnone hopen]
  · have hopen : openQuote raw = none := h.resolve_right hcomment
    obtain ⟨hline, blanks, hraw, hblanks⟩ := exists_trimmedLine_append hcomment
    have hstrip : trimmedLine (raw ++ ascii " #" ++ text) = trimRight raw [32, 9] := by
      unfold trimmedLine
      rw [trimRight_comment, stripComment_append hcomment, hopen]
      exact List.rdropWhile_concat_pos _ _ _ (by decide)
    by_cases hreturn : raw.getLast? = some 13
    · -- the line keeps its carriage return
      have hkeep : trimRight raw [32, 9] = raw := by
        obtain ⟨front, rfl⟩ := List.getLast?_eq_some_iff.mp hreturn
        exact List.rdropWhile_concat_neg _ _ _ (by decide)
      refine ⟨blanks, by rw [hstrip, hkeep, ← hraw], hblanks, ?_⟩
      intro hne
      refine ⟨hraw, ?_⟩
      rw [hraw, List.getLast?_append_of_ne_nil _ hne] at hreturn
      exact hreturn
    · have hkeep : trimRight raw [13] = raw := by
        refine List.rdropWhile_eq_self_iff.mpr fun hne hlast => hreturn ?_
        rw [List.getLast?_eq_some_getLast hne]
        simpa using hlast
      refine ⟨[], ?_, by simp, fun hne => absurd rfl hne⟩
      rw [hstrip, hline, hkeep, List.append_nil]

/-! ## The content of the line -/

theorem trimRight_trimmedLine (raw : GoString) :
    trimRight (trimmedLine raw) [32, 9] = trimmedLine raw := trimRight_idem _ _

/-- A line that is not blank is its indentation and its content. -/
theorem of_preprocessLine {raw : GoString} {l : RawLine} {lineNo : Nat}
    (h : preprocessLine raw lineNo = .ok (some l)) :
    trimmedLine raw = List.replicate l.indent 32 ++ l.content ∧ l.lineNo = lineNo ∧
      l.content ≠ [] ∧ l.content.head? ≠ some 32 ∧ l.content.head? ≠ some 9 := by
  unfold preprocessLine at h
  split at h
  · cases h
  · rename_i hblank
    split at h
    · cases h
    · rename_i indent content hindent
      cases h
      obtain ⟨hline, hspace, htab⟩ := splitIndent_eq_some_iff.mp hindent
      have hne : content ≠ [] := by
        intro hnil
        apply hblank
        rw [hline, hnil, List.append_nil]
        refine trimSpace_append_blanks [] fun b hb => ?_
        rw [List.eq_of_mem_replicate hb]
        rfl
      have htrim : trimRight content [32, 9] = content :=
        trimRight_of_append hne (by rw [← hline]; exact trimRight_trimmedLine raw)
      dsimp only
      rw [htrim]
      exact ⟨hline, rfl, hne, hspace, htab⟩

/-- What more there is at the end of a line is more of its content. -/
theorem preprocessLine_append {raw raw' more : GoString} {l : RawLine} {lineNo : Nat}
    (hline : preprocessLine raw lineNo = .ok (some l))
    (hmore : trimmedLine raw' = trimmedLine raw ++ more)
    (hblank : trimSpace (trimmedLine raw') ≠ []) :
    preprocessLine raw' lineNo = .ok (some { l with content := l.content ++ more }) := by
  obtain ⟨htrimmed, rfl, hne, hspace, htab⟩ := of_preprocessLine hline
  have htext : trimmedLine raw' = List.replicate l.indent 32 ++ (l.content ++ more) := by
    rw [hmore, htrimmed, List.append_assoc]
  have hwhole := trimRight_trimmedLine raw'
  rw [htext] at hwhole
  have htrim : trimRight (l.content ++ more) [32, 9] = l.content ++ more :=
    trimRight_of_append (List.append_ne_nil_of_left_ne_nil hne more) hwhole
  have hhead : (l.content ++ more).head? = l.content.head? :=
    List.head?_append_of_ne_nil l.content hne
  have hsplit : splitIndent (trimmedLine raw') = some (l.indent, l.content ++ more) :=
    splitIndent_eq_some_iff.mpr ⟨htext, by rwa [hhead], by rwa [hhead]⟩
  unfold preprocessLine
  rw [if_neg hblank, hsplit]
  dsimp only
  rw [htrim]

/-! ## More at the end of a line -/

/-- More at the end of a line does not make it an item, unless the line is a dash. -/
theorem isSeqItem_append {content more : GoString} (hne : content ≠ [])
    (hdash : content = ascii "-" → more = [] ∨ more.head? = some 32) :
    isSeqItem (content ++ more) = isSeqItem content := by
  obtain ⟨b, rest, rfl⟩ := List.exists_cons_of_ne_nil hne
  cases rest with
  | cons c rest => simp [isSeqItem, ascii, GoString.hasPrefix, List.isPrefixOf]
  | nil =>
    by_cases hb : b = 45
    · subst hb
      rcases hdash rfl with rfl | hspace
      · rfl
      · obtain ⟨rest, rfl⟩ := List.head?_eq_some_iff.mp hspace
        simp [isSeqItem, ascii, GoString.hasPrefix, List.isPrefixOf]
    · have hb' : (45 : UInt8) ≠ b := Ne.symm hb
      simp [isSeqItem, ascii, GoString.hasPrefix, List.isPrefixOf, hb, hb']

theorem isSeqItem_append_of_text {content : GoString} (hitem : isSeqItem content)
    (htext : itemText content ≠ []) (more : GoString) : isSeqItem (content ++ more) := by
  rw [isSeqItem_append, hitem]
  · rintro rfl
    cases hitem
  · rintro rfl
    exact absurd rfl htext

theorem isSeqItem_append_of_false {content : GoString} (hne : content ≠ [])
    (hitem : isSeqItem content = false) (more : GoString) :
    isSeqItem (content ++ more) = false := by
  rw [isSeqItem_append hne, hitem]
  rintro rfl
  cases hitem

theorem itemText_append {content : GoString} (hne : content ≠ []) (more : GoString) :
    itemText (content ++ more) = trimSpace (trimPrefix content (ascii "-") ++ more) := by
  obtain ⟨b, rest, rfl⟩ := List.exists_cons_of_ne_nil hne
  unfold itemText trimPrefix
  by_cases hb : b = 45
  · simp [hb, ascii, GoString.hasPrefix, List.isPrefixOf]
  · have hb' : (45 : UInt8) ≠ b := Ne.symm hb
    simp [hb', ascii, GoString.hasPrefix, List.isPrefixOf]

/-- An entry is its key, a colon and its value. -/
theorem of_splitKeyVal {content : GoString} {lineNo : Nat} {entry : GoString × Option GoString}
    (h : splitKeyVal content lineNo = .ok entry) :
    ∃ front rest, content = front ++ 58 :: rest ∧ 58 ∉ front ∧ trimSpace front ≠ [] ∧
      entry = (trimSpace front, if trimSpace rest = [] then none else some (trimSpace rest)) := by
  by_cases hcolon : 58 ∈ content
  · obtain ⟨front, rest, rfl, hfront⟩ := List.eq_append_cons_of_mem hcolon
    rw [splitKeyVal_colon hfront] at h
    split at h
    · cases h
    · rename_i hkey
      refine ⟨front, rest, rfl, hfront, hkey, ?_⟩
      split at h
      · rename_i hval
        cases h
        rw [if_pos hval]
      · rename_i hval
        cases h
        rw [if_neg hval]
  · unfold splitKeyVal at h
    rw [if_pos hcolon] at h
    cases h

/-- Blanks at the end of a line are trimmed away by all that reads it, except by the test
    for a bare dash. -/
theorem sameLine_blanks {l : RawLine} (hne : l.content ≠ []) {blanks : GoString}
    (hblanks : ∀ b ∈ blanks, isBlank b)
    (hdash : l.content = ascii "-" → blanks = [] ∨ blanks.head? = some 32) :
    SameLine l { l with content := l.content ++ blanks } where
  indent := rfl
  lineNo := rfl
  isItem := isSeqItem_append hne hdash
  text := by
    show itemText (l.content ++ blanks) = itemText l.content
    rw [itemText_append hne, trimSpace_append_blanks _ hblanks]
    rfl
  split := by
    intro entry h
    obtain ⟨front, rest, hcontent, hfront, hkey, rfl⟩ := of_splitKeyVal h
    show splitKeyVal (l.content ++ blanks) l.lineNo = _
    rw [hcontent, List.append_assoc, List.cons_append, splitKeyVal_colon hfront, if_neg hkey,
      trimSpace_append_blanks _ hblanks]
    split <;> rfl

/-- A dash that is followed by a tab or a carriage return and only blanks, the last of
    them a carriage return. -/
def BareDash (raw : GoString) : Prop :=
  ∃ n blanks, raw = List.replicate n 32 ++ 45 :: blanks ∧ (∀ b ∈ blanks, isBlank b) ∧
    blanks.head? ≠ some 32 ∧ blanks.getLast? = some 13

/-- A comment behind a line that ends outside of quotes is not read. -/
theorem preprocessLine_comment {raw : GoString} (houtside : EndsOutside raw)
    (hdash : ¬ BareDash raw) (text : GoString) {lineNo : Nat} {line : Option RawLine}
    (h : preprocessLine raw lineNo = .ok line) :
    ∃ line', preprocessLine (raw ++ ascii " #" ++ text) lineNo = .ok line' ∧
      List.Forall₂ SameLine line.toList line'.toList := by
  obtain ⟨blanks, htrimmed, hblanks, hkept⟩ := trimmedLine_comment houtside text
  have hspace : trimSpace (trimmedLine (raw ++ ascii " #" ++ text)) =
      trimSpace (trimmedLine raw) := by
    rw [htrimmed, trimSpace_append_blanks _ hblanks]
  cases line with
  | none =>
    -- a blank line stays blank
    have hblank : trimSpace (trimmedLine raw) = [] := by
      by_contra hne
      unfold preprocessLine at h
      rw [if_neg hne] at h
      split at h <;> cases h
    refine ⟨none, ?_, .nil⟩
    unfold preprocessLine
    rw [if_pos (by rw [hspace, hblank])]
  | some l =>
    obtain ⟨hline, -, hne, -, -⟩ := of_preprocessLine h
    have hblank : trimSpace (trimmedLine raw) ≠ [] := by
      intro hnil
      unfold preprocessLine at h
      rw [if_pos hnil] at h
      cases h
    refine ⟨_, preprocessLine_append h htrimmed (by rw [hspace]; exact hblank),
      .cons (sameLine_blanks hne hblanks ?_) .nil⟩
    intro hcontent
    by_cases hnil : blanks = []
    · exact .inl hnil
    · -- otherwise the line would be a bare dash
      obtain ⟨hraw, hlast⟩ := hkept hnil
      refine .inr (not_not.mp fun hhead => hdash ⟨l.indent, blanks, ?_, hblanks, hhead, hlast⟩)
      rw [hraw, hline, hcontent, List.append_assoc]
      rfl

/-! ## A comment between quotes -/

/-- Quotes and spaces are not number signs. -/
theorem count_parseScalar (s : GoString) : (parseScalar s).count 35 = s.count 35 := by
  rw [← count_trimSpace (show isVisible 35 from rfl) s]
  unfold parseScalar
  dsimp only
  generalize trimSpace s = t
  split
  · rename_i hquoted
    obtain ⟨hlen, hmarks⟩ := hquoted
    -- the text is a quote, the rest, and the same quote
    obtain ⟨b, t, rfl⟩ := List.exists_cons_of_ne_nil (List.length_pos_iff.mp (by omega) : t ≠ [])
    obtain ⟨t, c, rfl⟩ := (List.eq_nil_or_concat' t).resolve_left (by
      rintro rfl
      simp at hlen)
    have hlast : (b :: (t ++ [c])).getLast? = some c := by simp [List.getLast?_cons]
    rw [hlast] at hmarks
    simp only [List.head?_cons, Option.some_inj] at hmarks
    rcases hmarks with ⟨rfl, rfl⟩ | ⟨rfl, rfl⟩ <;> simp
  · rfl

/-- More behind an inline value is more of the value. -/
theorem splitKeyVal_append {content key val : GoString} {lineNo : Nat}
    (h : splitKeyVal content lineNo = .ok (key, some val)) {more : GoString} (hmore : 35 ∈ more) :
    ∃ val', splitKeyVal (content ++ more) lineNo = .ok (key, some val') ∧
      val.count 35 < val'.count 35 := by
  obtain ⟨front, rest, rfl, hfront, hkey, hentry⟩ := of_splitKeyVal h
  have hne : trimSpace (rest ++ more) ≠ [] :=
    trimSpace_ne_nil (b := 35) rfl (List.mem_append_right rest hmore)
  refine ⟨trimSpace (rest ++ more), ?_, ?_⟩
  · rw [List.append_assoc, List.cons_append, splitKeyVal_colon hfront, if_neg hkey, if_neg hne]
    simp only [Prod.mk.injEq] at hentry
    rw [hentry.1]
  · have hval : val = trimSpace rest := by
      simp only [Prod.mk.injEq] at hentry
      split at hentry
      · cases hentry.2
      · exact Option.some_inj.mp hentry.2
    have hpos : 0 < more.count 35 := List.count_pos_iff.mpr hmore
    rw [hval, count_trimSpace rfl, count_trimSpace rfl, List.count_append]
    omega

theorem count_itemText_append {content : GoString} (hne : content ≠ []) {b : UInt8}
    (hb : isVisible b) (more : GoString) :
    (itemText (content ++ more)).count b = (itemText content).count b + more.count b := by
  rw [itemText_append hne, count_trimSpace hb, List.count_append, itemText, count_trimSpace hb]

/-- A line that holds a scalar holds a longer one when more is behind it. -/
theorem Slot.Holds.append {slot : Slot} {l : RawLine} {text : GoString} (h : slot.Holds l text)
    (hne : l.content ≠ []) {more : GoString} (hhead : ∀ b ∈ more.head?, b < 128)
    (hcolon : 58 ∉ more) :
    ∃ text', slot.Holds { l with content := l.content ++ (more ++ [35]) } text' ∧
      text.count 35 < text'.count 35 := by
  have hsign : (35 : UInt8) ∈ more ++ [35] := by simp
  have hpos : 0 < (more ++ [35]).count 35 := List.count_pos_iff.mpr hsign
  cases h with
  | item hitem htext hscalar =>
    have hvisible : itemText (l.content ++ (more ++ [35])) ≠ [] := by
      rw [itemText_append hne]
      exact trimSpace_ne_nil (b := 35) rfl (List.mem_append_right _ hsign)
    have hscalar' : looksLikeMapEntry (itemText (l.content ++ (more ++ [35]))) = false := by
      rw [Bool.eq_false_iff, ne_eq, looksLikeMapEntry_iff, ← List.count_eq_zero] at hscalar ⊢
      rw [count_itemText_append hne rfl, hscalar]
      simpa [List.count_eq_zero] using hcolon
    refine ⟨_, .item (isSeqItem_append_of_text hitem htext _) hvisible hscalar', ?_⟩
    rw [count_itemText_append hne rfl]
    omega
  | @entry _ key val hitem hsplit =>
    obtain ⟨val', hsplit', hcount⟩ := splitKeyVal_append hsplit hsign
    exact ⟨val', .entry (isSeqItem_append_of_false hne hitem _) hsplit', hcount⟩
  | @dashEntry _ key val hitem htext hentry hfirst hsplit =>
    -- the text behind the dash is trimmed, and the space lost there comes back
    obtain ⟨space, hspace⟩ := trimSpace_append_visible htext hhead (show isVisible 35 from rfl)
    have htext' : itemText (l.content ++ (more ++ [35])) =
        itemText l.content ++ (space ++ (more ++ [35])) := by
      rw [itemText_append hne, hspace, List.append_assoc]
      rfl
    obtain ⟨val', hsplit', hcount⟩ := splitKeyVal_append hsplit
      (List.mem_append_right space hsign)
    rw [← htext'] at hsplit'
    refine ⟨val', .dashEntry (isSeqItem_append_of_text hitem htext _) ?_
      (looksLikeMapEntry_of_splitKeyVal hsplit') ?_ hsplit', hcount⟩
    · show itemText (l.content ++ (more ++ [35])) ≠ []
      rw [htext']
      exact List.append_ne_nil_of_left_ne_nil htext _
    · show isSeqItem (itemText (l.content ++ (more ++ [35]))) = false
      rw [htext']
      exact isSeqItem_append_of_false htext hfirst _

theorem isQuote_of_openQuote {s : GoString} {q : UInt8} (h : openQuote s = some q) : IsQuote q := by
  have hall : ∀ q₀ : Option UInt8, (∀ c ∈ q₀, IsQuote c) →
      ∀ c ∈ s.foldl nextQuote q₀, IsQuote c := by
    clear h
    induction s with
    | nil => exact fun q₀ hq₀ => hq₀
    | cons b s ih => exact fun q₀ hq₀ => ih _ (isQuote_nextQuote hq₀ b)
  exact hall none (fun c hc => by cases hc) q h

/-- A number sign between quotes is not taken for a comment. -/
theorem trimmedLine_open {raw : GoString} (h : ¬ EndsOutside raw) :
    ∃ blanks, trimmedLine (raw ++ ascii " #") = trimmedLine raw ++ (blanks ++ [32] ++ [35]) ∧
      ∀ b ∈ blanks, isBlank b := by
  obtain ⟨hopen, hcomment⟩ := not_or.mp h
  obtain ⟨q, hq⟩ := Option.ne_none_iff_exists'.mp hopen
  obtain ⟨-, blanks, hraw, hblanks⟩ := exists_trimmedLine_append hcomment
  refine ⟨blanks, ?_, hblanks⟩
  have hstart := trimRight_comment raw []
  rw [List.append_nil] at hstart
  have hquoted : stripFrom (some q) [32, 35] = [32, 35] := by
    rcases isQuote_of_openQuote hq with rfl | rfl <;> rfl
  have hend : trimRight (raw ++ [32, 35]) [32, 9] = raw ++ [32, 35] := by
    rw [show raw ++ [32, 35] = raw ++ [32] ++ [35] by simp]
    exact List.rdropWhile_concat_neg _ _ _ (by decide)
  calc trimmedLine (raw ++ ascii " #")
      = trimRight (stripComment (raw ++ [32, 35])) [32, 9] := by
        unfold trimmedLine
        rw [hstart]
        rfl
    _ = raw ++ [32, 35] := by rw [stripComment_append hcomment, hq, hquoted, hend]
    _ = trimmedLine raw ++ (blanks ++ [32] ++ [35]) := by
        conv => lhs; rw [hraw]
        simp

/-! ## Documents -/

/-- A document is made of its lines. -/
theorem eq_document {data raw : GoString} {before after : List GoString}
    (h : data.splitOn 10 = before ++ raw :: after) :
    data = document before raw after ∧ (∀ l ∈ before, 10 ∉ l) ∧ 10 ∉ raw ∧ ∀ l ∈ after, 10 ∉ l := by
  have hline : ∀ l ∈ before ++ raw :: after, 10 ∉ l := fun l hl =>
    List.not_mem_of_mem_splitOn 10 data l (h ▸ hl)
  refine ⟨?_, fun l hl => hline l (by simp [hl]), hline raw (by simp),
    fun l hl => hline l (by simp [hl])⟩
  unfold document
  rw [← h, List.intercalate_splitOn]

section

variable {before after : List GoString} (hbefore : ∀ l ∈ before, 10 ∉ l)
  (hafter : ∀ l ∈ after, 10 ∉ l) {raw : GoString} (hraw : 10 ∉ raw)
  {tree : List (GoString × Yaml)}

include hbefore hafter hraw

/-- Outside of quotes a comment does not change the tree. -/
theorem parseYAML_comment (h : parseYAML (document before raw after) = some (.ok tree))
    (houtside : EndsOutside raw) (hdash : ¬ BareDash raw) {text : GoString} (htext : 10 ∉ text) :
    parseYAML (document before (raw ++ ascii " #" ++ text) after) = some (.ok tree) := by
  obtain ⟨lines, hlines⟩ := preprocess_of_parseYAML h
  obtain ⟨front, line, behind, hline, rfl, hother⟩ :=
    preprocess_document hbefore hafter hraw hlines
  obtain ⟨line', hline', hsame⟩ := preprocessLine_comment houtside hdash text hline
  have hbreak : 10 ∉ raw ++ ascii " #" ++ text := by simp [hraw, htext, ascii]
  refine parseYAML_of_sameLines hlines (hother _ line' hbreak hline') ?_ h
  have hrefl (ls : List RawLine) : List.Forall₂ SameLine ls ls :=
    List.forall₂_same.mpr fun l _ => SameLine.refl l
  exact List.rel_append (List.rel_append (hrefl front) hsame) (hrefl behind)

/-- Behind an open quote of a line that holds a scalar, a comment is part of the scalar. -/
theorem parseYAML_open_comment_ne (h : ReadInFull (document before raw after) tree)
    {slot : Slot} {l : RawLine} {text : GoString}
    (hline : preprocessLine raw (1 + before.length) = .ok (some l)) (hl : slot.Holds l text)
    (hinside : ¬ EndsOutside raw) :
    parseYAML (document before (raw ++ ascii " #") after) ≠ some (.ok tree) := by
  obtain ⟨path, hget, hreplace⟩ := h.replace hbefore hafter hraw hline hl
  obtain ⟨blanks, htrimmed, hblanks⟩ := trimmedLine_open hinside
  obtain ⟨-, -, hne, -, -⟩ := of_preprocessLine hline
  have hline' := preprocessLine_append hline htrimmed
    (trimSpace_ne_nil (b := 35) rfl (by rw [htrimmed]; simp))
  have hhead : ∀ b ∈ (blanks ++ [32]).head?, b < 128 := by
    cases blanks with
    | nil =>
      intro b hb
      cases hb
      decide
    | cons b blanks => simpa using lt_of_isBlank (hblanks b List.mem_cons_self)
  have hcolon : 58 ∉ blanks ++ [32] := by
    intro hmem
    rcases List.mem_append.mp hmem with hmem | hmem
    · exact absurd (hblanks 58 hmem) (by decide)
    · exact absurd hmem (by decide)
  obtain ⟨text', hl', hcount⟩ := hl.append hne hhead hcolon
  obtain ⟨tree', hparse, htree'⟩ := hreplace (raw ++ ascii " #") _ _
    (by simp [hraw, ascii]) hline' rfl hl'.fills
  intro hsame
  obtain rfl : tree' = tree := by
    rw [hparse] at hsame
    cases hsame
    rfl
  -- the value in the new tree has one more number sign
  have hnew := Yaml.get?_set hget (.scalar (parseScalar text'))
  rw [← htree', hget] at hnew
  have hscalar : parseScalar text = parseScalar text' :=
    Yaml.scalar.inj (Option.some_inj.mp hnew)
  have heq := congrArg (List.count 35) hscalar
  rw [count_parseScalar, count_parseScalar] at heq
  omega

end

end HootLb.Config
