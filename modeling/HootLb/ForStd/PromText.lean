import HootLb.ForStd.List

/-!
# The Prometheus text format

Samples as lines of text: a name, labels in braces with quoted values, and a number.
In a quoted value the backslash, the quote and the newline are escaped. A document
is a sequence of lines, of which the empty ones and those that begin with `#` are
no samples.

The parser reads what the printer writes, for any label values, and it reads every
line by itself, so that a document is read as its lines are.
-/

namespace PromText

/-- A sample; the number is left as text. -/
structure Sample where
  name : String
  labels : List (String × String)
  value : String
  deriving DecidableEq

/-- The characters of metric names and label names. -/
def isNameChar (c : Char) : Bool := c.isAlphanum || c = '_' || c = ':'

/-- A name of a metric or a label. -/
def isName (s : String) : Bool := !s.toList.isEmpty && s.toList.all isNameChar

/-- A text without blanks and line ends. -/
def isToken (cs : List Char) : Bool :=
  !cs.isEmpty && cs.all fun c => !(c = ' ' || c = '\n')

/-! ## Writing -/

def escapeChar (c : Char) : List Char :=
  if c = '\\' then ['\\', '\\']
  else if c = '"' then ['\\', '"']
  else if c = '\n' then ['\\', 'n']
  else [c]

/-- One label, with its value in quotes. -/
def label (l : String × String) : List Char :=
  l.1.toList ++ '=' :: '"' :: (l.2.toList.flatMap escapeChar ++ ['"'])

def labelSet (ls : List (String × String)) : List Char :=
  if ls = [] then [] else '{' :: ([','].intercalate (ls.map label) ++ ['}'])

/-- The line of a sample. -/
def Sample.line (s : Sample) : List Char :=
  s.name.toList ++ (labelSet s.labels ++ ' ' :: s.value.toList)

/-! ## Reading -/

def unescape (c : Char) : Option Char :=
  if c = '\\' then some '\\'
  else if c = '"' then some '"'
  else if c = 'n' then some '\n'
  else none

/-- Read to the closing quote: the value, and what comes after the quote. -/
def scanQuoted : List Char → Option (List Char × List Char)
  | [] => none
  | [c] => if c = '"' then some ([], []) else none
  | c :: e :: rest =>
    if c = '"' then some ([], e :: rest)
    else if c = '\\' then
      match unescape e with
      | none => none
      | some d => (scanQuoted rest).map fun r => (d :: r.1, r.2)
    else (scanQuoted (e :: rest)).map fun r => (c :: r.1, r.2)

/-- Read a label. -/
def scanLabel (cs : List Char) : Option ((String × String) × List Char) :=
  if cs.takeWhile isNameChar = [] then none
  else
    match cs.dropWhile isNameChar with
    | c :: q :: rest =>
      if c = '=' ∧ q = '"' then
        (scanQuoted rest).map fun r =>
          ((String.ofList (cs.takeWhile isNameChar), String.ofList r.1), r.2)
      else none
    | _ => none

/-- Read labels to the closing brace, with fuel for one round per label and one for
    the brace. -/
def scanLabels : Nat → List Char → Option (List (String × String) × List Char)
  | 0, _ => none
  | fuel + 1, cs =>
    if cs.head? = some '}' then some ([], cs.tail)
    else
      match scanLabel cs with
      | none => none
      | some (l, rest) =>
        if rest.head? = some ',' then
          (scanLabels fuel rest.tail).map fun r => (l :: r.1, r.2)
        else if rest.head? = some '}' then some ([l], rest.tail)
        else none

/-- The labels after a name, if there are any. -/
def scanLabelSet (cs : List Char) : Option (List (String × String) × List Char) :=
  if cs.head? = some '{' then scanLabels cs.length cs.tail else some ([], cs)

/-- Read the line of a sample. -/
def parseLine (cs : List Char) : Option Sample :=
  if cs.takeWhile isNameChar = [] then none
  else
    match scanLabelSet (cs.dropWhile isNameChar) with
    | none => none
    | some (labels, rest) =>
      if rest.head? = some ' ' ∧ isToken rest.tail then
        some { name := String.ofList (cs.takeWhile isNameChar), labels
               value := String.ofList rest.tail }
      else none

/-- A line that is neither empty nor a comment. -/
def isSample (line : List Char) : Bool := !(line.isEmpty || line.head? = some '#')

/-- Read a document: all its samples, if every line is right. -/
def parse (text : List Char) : Option (List Sample) :=
  ((text.splitOn '\n').filter isSample).mapM parseLine

/-! ## What is written is read -/

theorem scanQuoted_quote (rest : List Char) : scanQuoted ('"' :: rest) = some ([], rest) := by
  cases rest <;> rfl

theorem scanQuoted_plain {c : Char} (hquote : c ≠ '"') (hback : c ≠ '\\') (rest : List Char) :
    scanQuoted (c :: rest) = (scanQuoted rest).map fun r => (c :: r.1, r.2) := by
  cases rest with
  | nil => simp [scanQuoted, hquote]
  | cons e rest => rw [scanQuoted, if_neg hquote, if_neg hback]

theorem scanQuoted_backslash {e d : Char} (h : unescape e = some d) (rest : List Char) :
    scanQuoted ('\\' :: e :: rest) = (scanQuoted rest).map fun r => (d :: r.1, r.2) := by
  rw [scanQuoted, if_neg (by decide), if_pos rfl, h]

/-- An escaped character is read as the character. -/
theorem scanQuoted_escapeChar (c : Char) (rest : List Char) :
    scanQuoted (escapeChar c ++ rest) = (scanQuoted rest).map fun r => (c :: r.1, r.2) := by
  unfold escapeChar
  split
  · rename_i h
    subst h
    exact scanQuoted_backslash (by decide) rest
  · rename_i hback
    split
    · rename_i h
      subst h
      exact scanQuoted_backslash (by decide) rest
    · rename_i hquote
      split
      · rename_i h
        subst h
        exact scanQuoted_backslash (by decide) rest
      · exact scanQuoted_plain hquote hback rest

theorem scanQuoted_escape (cs rest : List Char) :
    scanQuoted (cs.flatMap escapeChar ++ '"' :: rest) = some (cs, rest) := by
  induction cs with
  | nil => exact scanQuoted_quote rest
  | cons c cs ih => rw [List.flatMap_cons, List.append_assoc, scanQuoted_escapeChar, ih]; rfl

theorem isName_iff (s : String) : isName s ↔ s.toList ≠ [] ∧ ∀ c ∈ s.toList, isNameChar c := by
  simp [isName]

/-- A name begins with one of its characters. -/
theorem head?_name_ne {s : String} (h : isName s) {c : Char} (hc : isNameChar c = false)
    (rest : List Char) : (s.toList ++ rest).head? ≠ some c := by
  obtain ⟨hne, hall⟩ := (isName_iff s).mp h
  obtain ⟨a, cs, hcs⟩ := List.exists_cons_of_ne_nil hne
  have ha := hall a (by simp [hcs])
  intro hhead
  have hac : a = c := by simpa [hcs] using hhead
  rw [hac, hc] at ha
  exact Bool.false_ne_true ha

/-- A name ends where another kind of character follows. -/
theorem span_name {s : String} (h : isName s) {c : Char} (hc : isNameChar c = false)
    (rest : List Char) :
    (s.toList ++ c :: rest).takeWhile isNameChar = s.toList ∧
      (s.toList ++ c :: rest).dropWhile isNameChar = c :: rest ∧ s.toList ≠ [] := by
  obtain ⟨hne, hall⟩ := (isName_iff s).mp h
  refine ⟨?_, ?_, hne⟩
  · rw [List.takeWhile_append_of_pos hall, List.takeWhile_cons_of_neg (by simp [hc]),
      List.append_nil]
  · rw [List.dropWhile_append_of_pos hall, List.dropWhile_cons_of_neg (by simp [hc])]

theorem scanLabel_label {l : String × String} (h : isName l.1) (rest : List Char) :
    scanLabel (label l ++ rest) = some (l, rest) := by
  have htext : label l ++ rest =
      l.1.toList ++ '=' :: '"' :: (l.2.toList.flatMap escapeChar ++ '"' :: rest) := by
    simp [label]
  obtain ⟨htake, hdrop, hne⟩ := span_name h (show isNameChar '=' = false by decide)
    ('"' :: (l.2.toList.flatMap escapeChar ++ '"' :: rest))
  rw [htext, scanLabel, htake, if_neg hne, hdrop]
  simp [scanQuoted_escape]

/-- The labels of a set, each followed by a comma or the brace. -/
theorem scanLabels_intercalate (ls : List (String × String)) (hls : ls ≠ [])
    (h : ∀ l ∈ ls, isName l.1) (rest : List Char) {fuel : Nat} (hfuel : ls.length ≤ fuel) :
    scanLabels fuel ([','].intercalate (ls.map label) ++ '}' :: rest) = some (ls, rest) := by
  induction ls generalizing fuel with
  | nil => exact absurd rfl hls
  | cons l ls ih =>
    obtain ⟨fuel, rfl⟩ : ∃ n, fuel = n + 1 := ⟨fuel - 1, by simp at hfuel; omega⟩
    have hl := h l List.mem_cons_self
    -- a label begins with its name, so the brace is not at the front
    have hfront : ∀ more, (label l ++ more).head? ≠ some '}' := by
      intro more
      rw [label, List.append_assoc]
      exact head?_name_ne hl (by decide) _
    cases ls with
    | nil =>
      have htext : [','].intercalate ([l].map label) ++ '}' :: rest = label l ++ '}' :: rest := by
        simp [List.intercalate]
      rw [htext, scanLabels, if_neg (hfront _), scanLabel_label hl]
      rfl
    | cons l' ls =>
      have htext : [','].intercalate ((l :: l' :: ls).map label) ++ '}' :: rest =
          label l ++ ',' :: ([','].intercalate ((l' :: ls).map label) ++ '}' :: rest) := by
        rw [List.map_cons, List.map_cons, List.intercalate_cons_cons]
        simp
      rw [htext, scanLabels, if_neg (hfront _), scanLabel_label hl]
      have hrest := ih (List.cons_ne_nil _ _) (fun x hx => h x (List.mem_cons_of_mem _ hx))
        (show (l' :: ls).length ≤ fuel by simpa using hfuel)
      simp only [List.head?_cons, if_true, List.tail_cons, hrest, Option.map_some]

/-- There are no more pieces than characters. -/
theorem length_le_intercalate (pieces : List (List Char)) (h : ∀ l ∈ pieces, l ≠ []) :
    pieces.length ≤ ([','].intercalate pieces).length := by
  induction pieces with
  | nil => exact Nat.le_refl _
  | cons l rest ih =>
    have hl := List.length_pos_iff.mpr (h l List.mem_cons_self)
    cases rest with
    | nil => rw [List.intercalate_singleton]; exact hl
    | cons l' rest =>
      have hrest := ih fun x hx => h x (List.mem_cons_of_mem _ hx)
      rw [List.intercalate_cons_cons, List.length_append, List.length_append]
      simp only [List.length_cons] at hrest ⊢
      omega

/-- The set of labels ends at its brace. -/
theorem scanLabelSet_labelSet (ls : List (String × String)) (h : ∀ l ∈ ls, isName l.1)
    (rest : List Char) : scanLabelSet (labelSet ls ++ ' ' :: rest) = some (ls, ' ' :: rest) := by
  unfold labelSet
  split
  · rename_i hnil
    rw [hnil]
    rfl
  · rename_i hne
    rw [List.cons_append, List.append_assoc, scanLabelSet, List.head?_cons, if_pos rfl,
      List.tail_cons, List.singleton_append]
    refine scanLabels_intercalate ls hne h _ ?_
    have hlen := length_le_intercalate (ls.map label)
      (List.forall_mem_map.mpr fun l _ => by simp [label])
    simp only [List.length_map] at hlen
    simp only [List.length_cons, List.length_append]
    omega

/-- What the printer needs of a sample. -/
structure Sample.Valid (s : Sample) : Prop where
  name : isName s.name
  labels : ∀ l ∈ s.labels, isName l.1
  value : isToken s.value.toList

theorem labelSet_head (ls : List (String × String)) (rest : List Char) :
    ∃ c more, labelSet ls ++ ' ' :: rest = c :: more ∧ isNameChar c = false := by
  unfold labelSet
  split
  · exact ⟨' ', rest, rfl, by decide⟩
  · exact ⟨'{', _, rfl, by decide⟩

theorem parseLine_line {s : Sample} (h : s.Valid) : parseLine s.line = some s := by
  obtain ⟨c, more, hmore, hc⟩ := labelSet_head s.labels s.value.toList
  obtain ⟨htake, hdrop, hne⟩ := span_name h.name hc more
  rw [Sample.line, parseLine, hmore, htake, if_neg hne, hdrop, ← hmore,
    scanLabelSet_labelSet s.labels h.labels]
  simp [h.value]

/-! ## Documents -/

/-- The lines of a document, each with its end. -/
def document (lines : List (List Char)) : List Char := lines.flatMap (· ++ ['\n'])

theorem splitOn_document (lines : List (List Char)) (h : ∀ l ∈ lines, '\n' ∉ l) :
    (document lines).splitOn '\n' = lines ++ [[]] := by
  induction lines with
  | nil => rfl
  | cons l rest ih =>
    obtain ⟨hl, hrest⟩ := List.forall_mem_cons.mp h
    rw [document, List.flatMap_cons, List.append_assoc, List.singleton_append,
      List.splitOn_append_cons_self_of_not_mem hl, ← document, ih hrest]
    rfl

/-- A document is read line by line. -/
theorem parse_document (lines : List (List Char)) (h : ∀ l ∈ lines, '\n' ∉ l) :
    parse (document lines) = (lines.filter isSample).mapM parseLine := by
  rw [parse, splitOn_document lines h, List.filter_append]
  simp [isSample]

theorem newline_not_mem_name {s : String} (h : isName s) : '\n' ∉ s.toList := by
  intro hmem
  have hc := ((isName_iff s).mp h).2 '\n' hmem
  exact absurd hc (by decide)

theorem newline_not_mem_escapeChar (c : Char) : '\n' ∉ escapeChar c := by
  unfold escapeChar
  split
  · decide
  · split
    · decide
    · split
      · decide
      · rename_i hne
        simpa using Ne.symm hne

theorem newline_not_mem_label {l : String × String} (h : isName l.1) : '\n' ∉ label l := by
  simp [label, newline_not_mem_name h, newline_not_mem_escapeChar]

theorem newline_not_mem_intercalate (pieces : List (List Char)) (h : ∀ l ∈ pieces, '\n' ∉ l) :
    '\n' ∉ [','].intercalate pieces := by
  induction pieces with
  | nil => simp
  | cons l rest ih =>
    obtain ⟨hl, hrest⟩ := List.forall_mem_cons.mp h
    cases rest with
    | nil => simpa using hl
    | cons l' rest =>
      rw [List.intercalate_cons_cons]
      simp [hl, ih hrest]

/-- The line of a sample stays one line, whatever its label values are. -/
theorem newline_not_mem_line {s : Sample} (h : s.Valid) : '\n' ∉ s.line := by
  have hlabels : '\n' ∉ labelSet s.labels := by
    have hpieces := newline_not_mem_intercalate (s.labels.map label)
      (List.forall_mem_map.mpr fun l hl => newline_not_mem_label (h.labels l hl))
    unfold labelSet
    split
    · simp
    · simp [hpieces]
  have hvalue : '\n' ∉ s.value.toList := by
    intro hmem
    have htoken := h.value
    simp only [isToken, Bool.and_eq_true, List.all_eq_true] at htoken
    exact absurd (htoken.2 '\n' hmem) (by decide)
  simp [Sample.line, newline_not_mem_name h.name, hlabels, hvalue]

theorem isSample_line {s : Sample} (h : s.Valid) : isSample s.line := by
  have hhead : s.line.head? ≠ some '#' := head?_name_ne h.name (by decide) _
  have hne : s.line ≠ [] := by simp [Sample.line]
  simp [isSample, hne, hhead]

end PromText
