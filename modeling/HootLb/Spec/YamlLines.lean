import HootLb.Spec.YamlReading

/-!
# Which documents are read in full

A parser for a configuration file should either read every line or refuse the
file. This one stops a block at the first line that does not go on with it and
leaves the line to its caller; at the top level, and after a mapping that begins at
a dash, nobody looks at where it stopped. A key given twice in a mapping keeps
its last value.

Whether every line finds its place can be told from the lines alone, with a stack
of the parts that are open: a line goes on with the innermost part that takes it
and closes those further in. The parser's tree reads every line of exactly the
documents whose lines fit.

## Key results

- `wellIndented_iff`: lines can be read exactly if each finds a place
- `parseYAML_reads_iff`: when the tree of a document that is accepted reads all
  its lines
- `parseYAML_drops_lines`: a document that loses its last two lines
-/

namespace HootLb.Config

/-! ## The lines of a document -/

/-- A line of the file without its comment, unless nothing is left of it. -/
def contentLine (raw : GoString) (lineNo : Nat) : Option RawLine :=
  let trimmed := (stripComment (raw.trimRight [13])).trimRight [32, 9]
  if trimmed.trimSpace = [] then none
  else some {
    indent := (trimmed.takeWhile (· = 32)).length
    content := GoString.trimRight (trimmed.dropWhile (· = 32)) [32, 9]
    lineNo }

/-- The lines of a file that are neither blank nor only a comment. -/
def contentLines (data : GoString) : List RawLine :=
  ((data.splitOn 10).zipIdx 1).filterMap fun (raw, lineNo) => contentLine raw lineNo

/-- No line is lost before the lines are parsed. -/
theorem preprocessFrom_ok {lineNo : Nat} {raws : List GoString} {lines : List RawLine}
    (h : preprocessFrom lineNo raws = .ok lines) :
    lines = (raws.zipIdx lineNo).filterMap fun (raw, lineNo) => contentLine raw lineNo := by
  induction raws generalizing lineNo lines with
  | nil =>
    cases h
    rfl
  | cons raw raws ih =>
    rw [List.zipIdx_cons, List.filterMap_cons]
    unfold preprocessFrom at h
    unfold contentLine
    dsimp only at h ⊢
    generalize (stripComment (raw.trimRight [13])).trimRight [32, 9] = trimmed at h ⊢
    by_cases hblank : trimmed.trimSpace = []
    · rw [if_pos hblank] at h ⊢
      exact ih h
    · rw [if_neg hblank] at h ⊢
      unfold splitIndent at h
      dsimp only at h
      by_cases htab : (trimmed.dropWhile (· = 32)).head? = some 9
      · rw [if_pos htab] at h
        cases h
      · rw [if_neg htab] at h
        cases hrest : preprocessFrom (lineNo + 1) raws with
        | error e =>
          rw [hrest] at h
          cases h
        | ok rest =>
          rw [hrest] at h
          cases h
          rw [ih hrest]
          rfl

theorem preprocess_ok {data : GoString} {lines : List RawLine} (h : preprocess data = .ok lines) :
    lines = contentLines data :=
  preprocessFrom_ok h

/-- A document that is accepted has lines. -/
theorem preprocess_of_parseYAML {data : GoString} {tree : List (GoString × Yaml)}
    (h : parseYAML data = some (.ok tree)) : ∃ lines, preprocess data = .ok lines := by
  cases hlines : preprocess data with
  | error e =>
    unfold parseYAML at h
    rw [hlines] at h
    cases h
  | ok lines => exact ⟨lines, rfl⟩

/-! ## Placing a line -/

/-- A part of the document that may still go on, with the keys of a mapping. -/
structure Frame where
  part : Part
  indent : Nat
  keys : List GoString := []

/-- The line goes on with the part. -/
def Frame.Takes (f : Frame) (l : RawLine) : Prop :=
  match f.part with
  | .entries => l.indent = f.indent ∧ ¬ isSeqItem l.content
  | .items => l.indent = f.indent ∧ isSeqItem l.content
  | .belowKey => l.indent > f.indent ∨ l.indent = f.indent ∧ isSeqItem l.content
  | .belowDash => l.indent > f.indent

instance (f : Frame) (l : RawLine) : Decidable (f.Takes l) := by
  unfold Frame.Takes
  cases f.part with
  | entries => exact inferInstanceAs (Decidable (_ ∧ _))
  | items => exact inferInstanceAs (Decidable (_ ∧ _))
  | belowKey => exact inferInstanceAs (Decidable (_ ∨ _))
  | belowDash => exact inferInstanceAs (Decidable (_ < _))

/-- An entry of a mapping with the given keys: a new key, and an open place for its
    value if there is none on the line. -/
def addEntry (l : RawLine) (keys : List GoString) (outer : List Frame) : Option (List Frame) :=
  match splitKeyVal l.content l.lineNo with
  | .error _ => none
  | .ok (key, val) =>
    if keys.contains key then none
    else
      let mapping : Frame := { part := .entries, indent := l.indent, keys := key :: keys }
      if val.isSome then some (mapping :: outer)
      else some ({ part := .belowKey, indent := l.indent } :: mapping :: outer)

/-- An item of a sequence: a scalar, the first entry of a mapping, or an open place. -/
def addItem (l : RawLine) (outer : List Frame) : Option (List Frame) :=
  let sequence : Frame := { part := .items, indent := l.indent }
  if itemText l.content = [] then
    some ({ part := .belowDash, indent := l.indent } :: sequence :: outer)
  else if looksLikeMapEntry (itemText l.content) then
    -- a dash after the dash is no entry, and the parser drops it
    if isSeqItem (itemText l.content) then none else addEntry l.afterDash [] (sequence :: outer)
  else some (sequence :: outer)

/-- The line as the next one of an open part, or the first one of a block there. -/
def addLine (l : RawLine) (keys : List GoString) (outer : List Frame) : Option (List Frame) :=
  if isSeqItem l.content then addItem l outer else addEntry l keys outer

/-- The line in the innermost open part that takes it, the parts further in closed. -/
def place (l : RawLine) : List Frame → Option (List Frame)
  | [] => none
  | f :: outer => if f.Takes l then addLine l f.keys outer else place l outer

/-- Every line finds a place. -/
def Fits (stack : List Frame) (lines : List RawLine) : Prop :=
  (lines.foldlM (fun stack l => place l stack) stack).isSome

instance (stack : List Frame) (lines : List RawLine) : Decidable (Fits stack lines) :=
  inferInstanceAs (Decidable (_ = true))

/-- Every line continues an open block of its kind at its indentation or opens a
    block where a value is missing, and no mapping has a key twice. -/
def WellIndented (lines : List RawLine) : Prop := Fits [{ part := .entries, indent := 0 }] lines

instance (lines : List RawLine) : Decidable (WellIndented lines) :=
  inferInstanceAs (Decidable (Fits _ lines))

@[simp] theorem fits_nil (stack : List Frame) : Fits stack [] := rfl

@[simp] theorem fits_cons {stack : List Frame} {l : RawLine} {lines : List RawLine} :
    Fits stack (l :: lines) ↔ ∃ stack', place l stack = some stack' ∧ Fits stack' lines := by
  unfold Fits
  rw [List.foldlM_cons]
  cases place l stack with
  | none => simp
  | some stack' => simp

theorem place_takes {f : Frame} {l : RawLine} (outer : List Frame) (h : f.Takes l) :
    place l (f :: outer) = addLine l f.keys outer := if_pos h

theorem place_not_takes {f : Frame} {l : RawLine} (outer : List Frame) (h : ¬ f.Takes l) :
    place l (f :: outer) = place l outer := if_neg h

/-- A part that the next line does not go on with is closed. -/
theorem Fits.close {f : Frame} {outer : List Frame} {rest : List RawLine}
    (h : ∀ l, rest.head? = some l → ¬ f.Takes l) (hfits : Fits outer rest) :
    Fits (f :: outer) rest := by
  cases rest with
  | nil => exact fits_nil _
  | cons l rest =>
    rw [fits_cons, place_not_takes outer (h l rfl)]
    exact fits_cons.mp hfits

/-- A line fits where the same line fits the other way of placing it. -/
theorem Fits.congr {stack stack' : List Frame} {l l' : RawLine} {rest : List RawLine}
    (h : place l stack = place l' stack') (hfits : Fits stack' (l' :: rest)) :
    Fits stack (l :: rest) := by
  rw [fits_cons] at hfits ⊢
  rwa [h]

theorem Ends.not_takes {p : Part} {n : Nat} {keys : List GoString} {rest : List RawLine}
    (h : Ends p n rest) : ∀ l, rest.head? = some l → ¬ Frame.Takes ⟨p, n, keys⟩ l := by
  intro l hl htakes
  have hend := h l hl
  cases p with
  | entries => exact absurd htakes.1 (ne_of_lt hend)
  | items =>
    obtain ⟨heq, hitem⟩ := htakes
    obtain hlt | ⟨-, hnot⟩ := hend
    · exact absurd heq (ne_of_lt hlt)
    · exact absurd hitem (by simp [hnot])
  | belowKey =>
    obtain hlt | ⟨heq, hnot⟩ := hend
    · obtain hgt | ⟨heq, -⟩ := htakes
      · exact absurd hgt (Nat.not_lt_of_gt hlt)
      · exact absurd heq (ne_of_lt hlt)
    · obtain hgt | ⟨-, hitem⟩ := htakes
      · exact absurd heq (ne_of_gt hgt)
      · exact absurd hitem (by simp [hnot])
  | belowDash => exact absurd htakes (Nat.not_lt_of_ge hend)

/-! ## What can be read fits -/

/-- The tree is no mapping with one of the keys. -/
def KeysNew (keys : List GoString) (v : Yaml) : Prop :=
  ∀ es, v = .map es → ∀ key ∈ es.map Prod.fst, key ∉ keys

theorem keysNew_nil (v : Yaml) : KeysNew [] v := fun _ _ _ _ h => by cases h

theorem keysNew_map {keys : List GoString} {es : List (GoString × Yaml)} :
    KeysNew keys (.map es) ↔ ∀ key ∈ es.map Prod.fst, key ∉ keys := by
  constructor
  · intro h
    exact h es rfl
  · rintro h _ ⟨⟩
    exact h

theorem keysNew_seq (keys : List GoString) (vs : List Yaml) : KeysNew keys (.seq vs) :=
  fun _ h => by cases h

/-- The first entry is new beside the keys before it and the entries after it. -/
theorem keysNew_cons {keys : List GoString} {key : GoString} {v : Yaml}
    {es : List (GoString × Yaml)} :
    KeysNew keys (.map ((key, v) :: es)) ∧ key ∉ es.map Prod.fst ↔
      key ∉ keys ∧ KeysNew (key :: keys) (.map es) := by
  rw [keysNew_map, keysNew_map, List.map_cons, List.forall_mem_cons]
  constructor
  · rintro ⟨⟨hkey, hkeys⟩, hfresh⟩
    refine ⟨hkey, fun k hk hmem => ?_⟩
    obtain rfl | hmem := List.mem_cons.mp hmem
    · exact hfresh hk
    · exact hkeys k hk hmem
  · rintro ⟨hkey, hkeys⟩
    exact ⟨⟨hkey, fun k hk hmem => hkeys k hk (List.mem_cons_of_mem _ hmem)⟩,
      fun hfresh => hkeys key hfresh List.mem_cons_self⟩

/-- Placing a line that begins a mapping, on the mapping without an entry. -/
theorem place_entries {l : RawLine} (hitem : isSeqItem l.content = false) (keys : List GoString)
    (outer : List Frame) :
    place l (⟨.entries, l.indent, keys⟩ :: outer) = addEntry l keys outer := by
  have htakes : Frame.Takes ⟨.entries, l.indent, keys⟩ l := ⟨rfl, by simp [hitem]⟩
  rw [place_takes outer htakes, addLine, hitem]
  rfl

theorem place_items {l : RawLine} (hitem : isSeqItem l.content) (keys : List GoString)
    (outer : List Frame) :
    place l (⟨.items, l.indent, keys⟩ :: outer) = addItem l outer := by
  have htakes : Frame.Takes ⟨.items, l.indent, keys⟩ l := ⟨rfl, hitem⟩
  rw [place_takes outer htakes, addLine, if_pos hitem]

/-- A first line below a key or a dash is placed on a block of its own. -/
theorem place_first {f : Frame} {l : RawLine} (hf : f.Takes l) (outer : List Frame) :
    place l (f :: outer) =
      place l (⟨if isSeqItem l.content then .items else .entries, l.indent, f.keys⟩ :: outer) := by
  rw [place_takes outer hf]
  cases hitem : isSeqItem l.content with
  | false => rw [if_neg (by simp), place_entries hitem, addLine, hitem]; rfl
  | true => rw [if_pos rfl, place_items hitem, addLine, if_pos hitem]

theorem addEntry_inline {l : RawLine} {key val : GoString} {keys : List GoString}
    (hsplit : splitKeyVal l.content l.lineNo = .ok (key, some val)) (hkey : key ∉ keys)
    (outer : List Frame) :
    addEntry l keys outer = some (⟨.entries, l.indent, key :: keys⟩ :: outer) := by
  unfold addEntry
  simp [hsplit, hkey]

theorem addEntry_key {l : RawLine} {key : GoString} {keys : List GoString}
    (hsplit : splitKeyVal l.content l.lineNo = .ok (key, none)) (hkey : key ∉ keys)
    (outer : List Frame) :
    addEntry l keys outer =
      some (⟨.belowKey, l.indent, []⟩ :: ⟨.entries, l.indent, key :: keys⟩ :: outer) := by
  unfold addEntry
  simp [hsplit, hkey]

theorem addItem_dash {l : RawLine} (htext : itemText l.content = []) (outer : List Frame) :
    addItem l outer = some (⟨.belowDash, l.indent, []⟩ :: ⟨.items, l.indent, []⟩ :: outer) := by
  unfold addItem
  rw [if_pos htext]

theorem addItem_scalar {l : RawLine} (htext : itemText l.content ≠ [])
    (hscalar : looksLikeMapEntry (itemText l.content) = false) (outer : List Frame) :
    addItem l outer = some (⟨.items, l.indent, []⟩ :: outer) := by
  unfold addItem
  rw [if_neg htext, hscalar]
  rfl

theorem addItem_entry {l : RawLine} (htext : itemText l.content ≠ [])
    (hentry : looksLikeMapEntry (itemText l.content))
    (hitem : isSeqItem (itemText l.content) = false) (outer : List Frame) :
    addItem l outer = addEntry l.afterDash [] (⟨.items, l.indent, []⟩ :: outer) := by
  unfold addItem
  rw [if_neg htext, if_pos hentry, hitem]
  rfl

/-- The lines of a part fit where it is open, and what comes after them fits on
    what is open around it. -/
theorem Reads.fits {p : Part} {n : Nat} {lines : List RawLine} {v : Yaml} (h : Reads p n lines v) :
    ∀ {keys : List GoString} {outer : List Frame} {rest : List RawLine}, KeysNew keys v →
      Ends p n rest → Fits outer rest → Fits (⟨p, n, keys⟩ :: outer) (lines ++ rest) := by
  induction h with
  | noEntries n | noValue n | noItems n | noItem n =>
    intro keys outer rest _ hrest hfits
    exact Fits.close hrest.not_takes hfits
  | @inlineEntry l key val sub es hitem hsplit hsub hfresh ih =>
    intro keys outer rest hkeys hrest hfits
    obtain ⟨hkey, hkeys⟩ := keysNew_cons.mp ⟨hkeys, hfresh⟩
    rw [List.cons_append, fits_cons, place_entries hitem]
    exact ⟨_, addEntry_inline hsplit hkey outer, ih hkeys hrest hfits⟩
  | @entry l key sub rest' v es hitem hsplit hsub hrest' hfresh ihsub ihrest =>
    intro keys outer rest hkeys hrest hfits
    obtain ⟨hkey, hkeys⟩ := keysNew_cons.mp ⟨hkeys, hfresh⟩
    rw [List.cons_append, List.append_assoc, fits_cons, place_entries hitem]
    exact ⟨_, addEntry_key hsplit hkey outer,
      ihsub (keysNew_nil v) (hrest'.ends_entries hrest) (ihrest hkeys hrest hfits)⟩
  | @mappingBelowKey n m sub v hlt hne hsub ih =>
    intro keys outer rest hkeys hrest hfits
    obtain ⟨l, sub, rfl⟩ := List.exists_cons_of_ne_nil hne
    obtain ⟨rfl, hitem⟩ := hsub.head_entries rfl
    refine Fits.congr ?_ (ih hkeys (hrest.belowKey_lt hlt) hfits)
    rw [place_first (f := ⟨.belowKey, n, keys⟩) (.inl hlt), hitem]
    rfl
  | @sequenceBelowKey n m sub v hle hne hsub ih =>
    intro keys outer rest hkeys hrest hfits
    obtain ⟨l, sub, rfl⟩ := List.exists_cons_of_ne_nil hne
    obtain ⟨rfl, hitem⟩ := hsub.head_items rfl
    obtain hlt | rfl := lt_or_eq_of_le hle
    · refine Fits.congr ?_ (ih hkeys (hrest.belowKey_lt hlt).items_of_entries hfits)
      rw [place_first (f := ⟨.belowKey, n, keys⟩) (.inl hlt), if_pos hitem]
    · refine Fits.congr ?_ (ih hkeys hrest hfits)
      rw [place_first (f := ⟨.belowKey, _, keys⟩) (.inr ⟨rfl, hitem⟩), if_pos hitem]
  | @scalarItem l sub vs hitem htext hscalar hsub ih =>
    intro keys outer rest _ hrest hfits
    rw [List.cons_append, fits_cons, place_items hitem]
    exact ⟨_, addItem_scalar htext hscalar outer, ih (keysNew_nil _) hrest hfits⟩
  | @mappingItem l sub rest' v vs hitem htext hentry hsub hrest' ihsub ihrest =>
    intro keys outer rest _ hrest hfits
    have hends : Ends .entries (l.indent + 2) (rest' ++ rest) :=
      (hrest'.ends_items hrest).belowDash_lt (by omega)
    have hnot := (hsub.head_entries rfl).2
    rw [List.cons_append, List.append_assoc]
    -- the item's line is placed as the first line of a mapping two columns further in
    refine Fits.congr ?_ (ihsub (keysNew_nil v) hends (ihrest (keysNew_nil _) hrest hfits))
    rw [place_items hitem, addItem_entry htext hentry hnot]
    exact (place_entries hnot [] _).symm
  | @bareItem l sub rest' v vs hitem htext hsub hrest' ihsub ihrest =>
    intro keys outer rest _ hrest hfits
    rw [List.cons_append, List.append_assoc, fits_cons, place_items hitem]
    exact ⟨_, addItem_dash htext outer,
      ihsub (keysNew_nil v) (hrest'.ends_items hrest) (ihrest (keysNew_nil _) hrest hfits)⟩
  | @mappingBelowDash n m sub v hlt hne hsub ih =>
    intro keys outer rest hkeys hrest hfits
    obtain ⟨l, sub, rfl⟩ := List.exists_cons_of_ne_nil hne
    obtain ⟨rfl, hitem⟩ := hsub.head_entries rfl
    refine Fits.congr ?_ (ih hkeys (hrest.belowDash_lt hlt) hfits)
    rw [place_first (f := ⟨.belowDash, n, keys⟩) hlt, hitem]
    rfl
  | @sequenceBelowDash n m sub v hlt hne hsub ih =>
    intro keys outer rest hkeys hrest hfits
    obtain ⟨l, sub, rfl⟩ := List.exists_cons_of_ne_nil hne
    obtain ⟨rfl, hitem⟩ := hsub.head_items rfl
    refine Fits.congr ?_ (ih hkeys (hrest.belowDash_lt hlt).items_of_entries hfits)
    rw [place_first (f := ⟨.belowDash, n, keys⟩) hlt, if_pos hitem]

/-! ## What fits can be read -/

/-- The lines begin with a reading of the part, and the others fit around it. -/
def Splits (p : Part) (n : Nat) (keys : List GoString) (outer : List Frame)
    (lines : List RawLine) : Prop :=
  ∃ sub rest v, lines = sub ++ rest ∧ Reads p n sub v ∧ KeysNew keys v ∧ Fits outer rest

/-- The line begins a block that goes on in the lines after it. -/
def SplitsAt (p : Part) (l : RawLine) (keys : List GoString) (outer : List Frame)
    (lines : List RawLine) : Prop :=
  ∃ sub rest v, lines = sub ++ rest ∧ Reads p l.indent (l :: sub) v ∧ KeysNew keys v ∧
    Fits outer rest

/-- A part may have no lines at all. -/
theorem Splits.empty (p : Part) (n : Nat) (keys : List GoString) {outer : List Frame}
    {lines : List RawLine} (h : Fits outer lines) : Splits p n keys outer lines := by
  cases p with
  | entries => exact ⟨[], lines, _, rfl, .noEntries n, keysNew_map.mpr (by simp), h⟩
  | items => exact ⟨[], lines, _, rfl, .noItems n, (by rintro _ ⟨⟩), h⟩
  | belowKey => exact ⟨[], lines, _, rfl, .noValue n, (by rintro _ ⟨⟩), h⟩
  | belowDash => exact ⟨[], lines, _, rfl, .noItem n, (by rintro _ ⟨⟩), h⟩

/-- A block that begins with a line the part takes is that part. -/
theorem SplitsAt.splits {p : Part} {n : Nat} {l : RawLine} {keys : List GoString}
    {outer : List Frame} {lines : List RawLine} (htakes : Frame.Takes ⟨p, n, keys⟩ l)
    (h : SplitsAt (if isSeqItem l.content then .items else .entries) l keys outer lines) :
    Splits p n keys outer (l :: lines) := by
  obtain ⟨sub, rest, v, rfl, hreads, hkeys, hfits⟩ := h
  refine ⟨l :: sub, rest, v, rfl, ?_, hkeys, hfits⟩
  have hne : l :: sub ≠ [] := List.cons_ne_nil l sub
  cases hitem : isSeqItem l.content with
  | false =>
    rw [hitem] at hreads
    cases p with
    | entries =>
      have heq : l.indent = n := htakes.1
      exact heq ▸ hreads
    | items => exact absurd htakes.2 (by simp [hitem])
    | belowKey =>
      obtain hlt | ⟨-, hitem'⟩ := htakes
      · exact .mappingBelowKey hlt hne hreads
      · exact absurd hitem' (by simp [hitem])
    | belowDash => exact .mappingBelowDash htakes hne hreads
  | true =>
    rw [if_pos hitem] at hreads
    cases p with
    | entries => exact absurd hitem htakes.2
    | items =>
      have heq : l.indent = n := htakes.1
      exact heq ▸ hreads
    | belowKey =>
      obtain hlt | ⟨heq, -⟩ := htakes
      · exact .sequenceBelowKey (le_of_lt hlt) hne hreads
      · exact .sequenceBelowKey (le_of_eq heq.symm) hne hreads
    | belowDash => exact .sequenceBelowDash htakes hne hreads

/-- Lines that fit where a part is open can be split so. -/
def AllSplit (lines : List RawLine) : Prop :=
  ∀ (p : Part) (n : Nat) (keys : List GoString) (outer : List Frame),
    Fits (⟨p, n, keys⟩ :: outer) lines → Splits p n keys outer lines

section

variable {l : RawLine} {rest : List RawLine}
  (ih : ∀ lines : List RawLine, lines.length ≤ rest.length → AllSplit lines)

include ih

/-- An entry, what is below it, and the entries after it. -/
theorem addEntry_splits {keys : List GoString} {outer stack : List Frame}
    (hitem : isSeqItem l.content = false) (hadd : addEntry l keys outer = some stack)
    (hfits : Fits stack rest) : SplitsAt .entries l keys outer rest := by
  cases hsplit : splitKeyVal l.content l.lineNo with
  | error e => simp [addEntry, hsplit] at hadd
  | ok entry =>
    obtain ⟨key, val⟩ := entry
    by_cases hkey : key ∈ keys
    · simp [addEntry, hsplit, hkey] at hadd
    · cases val with
      | some val =>
        rw [addEntry_inline hsplit hkey] at hadd
        cases hadd
        obtain ⟨sub, rest', v, hrest, hreads, hkeys, hfits⟩ :=
          ih rest (le_refl _) .entries l.indent (key :: keys) outer hfits
        obtain ⟨es, rfl⟩ := hreads.entries_map
        obtain ⟨hkeys, hfresh⟩ := keysNew_cons.mpr ⟨hkey, hkeys⟩
        exact ⟨sub, rest', _, hrest, .inlineEntry hitem hsplit hreads hfresh, hkeys, hfits⟩
      | none =>
        rw [addEntry_key hsplit hkey] at hadd
        cases hadd
        obtain ⟨sub, rest', v, rfl, hsub, -, hfits⟩ :=
          ih rest (le_refl _) .belowKey l.indent [] _ hfits
        obtain ⟨more, rest'', w, rfl, hmore, hkeys, hfits⟩ :=
          ih rest' (by simp) .entries l.indent (key :: keys) outer hfits
        obtain ⟨es, rfl⟩ := hmore.entries_map
        obtain ⟨hkeys, hfresh⟩ := keysNew_cons.mpr ⟨hkey, hkeys⟩
        exact ⟨sub ++ more, rest'', _, (List.append_assoc _ _ _).symm,
          .entry hitem hsplit hsub hmore hfresh, hkeys, hfits⟩

/-- An item, what belongs to it, and the items after it. -/
theorem addItem_splits {outer stack : List Frame} (keys : List GoString)
    (hitem : isSeqItem l.content) (hadd : addItem l outer = some stack) (hfits : Fits stack rest) :
    SplitsAt .items l keys outer rest := by
  by_cases htext : itemText l.content = []
  · rw [addItem_dash htext] at hadd
    cases hadd
    obtain ⟨sub, rest', v, rfl, hsub, -, hfits⟩ :=
      ih rest (le_refl _) .belowDash l.indent [] _ hfits
    obtain ⟨more, rest'', w, rfl, hmore, -, hfits⟩ :=
      ih rest' (by simp) .items l.indent [] outer hfits
    obtain ⟨vs, rfl⟩ := hmore.items_seq
    exact ⟨sub ++ more, rest'', _, (List.append_assoc _ _ _).symm,
      .bareItem hitem htext hsub hmore, keysNew_seq keys _, hfits⟩
  · cases hentry : looksLikeMapEntry (itemText l.content) with
    | false =>
      rw [addItem_scalar htext hentry] at hadd
      cases hadd
      obtain ⟨more, rest', w, rfl, hmore, -, hfits⟩ :=
        ih rest (le_refl _) .items l.indent [] outer hfits
      obtain ⟨vs, rfl⟩ := hmore.items_seq
      exact ⟨more, rest', _, rfl, .scalarItem hitem htext hentry hmore, keysNew_seq keys _, hfits⟩
    | true =>
      cases hnested : isSeqItem (itemText l.content) with
      | true => simp [addItem, htext, hentry, hnested] at hadd
      | false =>
        rw [addItem_entry htext hentry hnested] at hadd
        obtain ⟨sub, rest', v, rfl, hsub, -, hfits⟩ :=
          addEntry_splits (l := l.afterDash) ih hnested hadd hfits
        obtain ⟨more, rest'', w, rfl, hmore, -, hfits⟩ :=
          ih rest' (by simp) .items l.indent [] outer hfits
        obtain ⟨vs, rfl⟩ := hmore.items_seq
        exact ⟨sub ++ more, rest'', _, (List.append_assoc _ _ _).symm,
          .mappingItem hitem htext hentry hsub hmore, keysNew_seq keys _, hfits⟩

theorem addLine_splits {keys : List GoString} {outer stack : List Frame}
    (hadd : addLine l keys outer = some stack) (hfits : Fits stack rest) :
    SplitsAt (if isSeqItem l.content then .items else .entries) l keys outer rest := by
  unfold addLine at hadd
  cases hitem : isSeqItem l.content with
  | false =>
    rw [hitem] at hadd
    exact addEntry_splits ih hitem hadd hfits
  | true =>
    rw [if_pos hitem] at hadd
    exact addItem_splits ih keys hitem hadd hfits

end

/-- Lines that fit can be split, by induction on their number: the lines after
    the first one fit on what placing it leaves open. -/
theorem allSplit (lines : List RawLine) : AllSplit lines := by
  induction hlen : lines.length using Nat.strong_induction_on generalizing lines with
  | _ k ih =>
    intro p n keys outer hfits
    cases lines with
    | nil => exact .empty p n keys (fits_nil outer)
    | cons l rest =>
      have ih : ∀ lines : List RawLine, lines.length ≤ rest.length → AllSplit lines := by
        intro lines hle
        exact ih lines.length (by rw [← hlen, List.length_cons]; omega) lines rfl
      by_cases htakes : Frame.Takes ⟨p, n, keys⟩ l
      · obtain ⟨stack, hadd, hfits⟩ := fits_cons.mp hfits
        rw [place_takes outer htakes] at hadd
        exact (addLine_splits ih hadd hfits).splits htakes
      · -- the line belongs to a part further out, and this one ends before it
        rw [fits_cons, place_not_takes outer htakes] at hfits
        exact .empty p n keys (fits_cons.mpr hfits)

/-! ## The document -/

/-- The lines of a document can be read exactly if each one finds a place. -/
theorem wellIndented_iff {lines : List RawLine} :
    WellIndented lines ↔ ∃ tree, Reads .entries 0 lines (.map tree) := by
  constructor
  · intro h
    obtain ⟨sub, rest, v, rfl, hreads, -, hfits⟩ := allSplit lines .entries 0 [] [] h
    obtain ⟨tree, rfl⟩ := hreads.entries_map
    cases rest with
    | nil => exact ⟨tree, by rwa [List.append_nil]⟩
    | cons l rest =>
      -- nothing is open around the top level
      obtain ⟨_, hplace, -⟩ := fits_cons.mp hfits
      cases hplace
  · rintro ⟨tree, h⟩
    have hends : Ends .entries 0 [] := fun _ h => by cases h
    have hfits := h.fits (keysNew_nil _) hends (fits_nil [])
    rwa [List.append_nil] at hfits

/-- What `parseYAML` makes of lines that can be read. -/
theorem Reads.parseYAML {data : GoString} {lines : List RawLine} {tree : List (GoString × Yaml)}
    (hlines : preprocess data = .ok lines) (h : Reads .entries 0 lines (.map tree)) :
    Config.parseYAML data = some (.ok tree) := by
  have hparse := h.parseMapping
  unfold Config.parseYAML
  rw [hlines]
  cases lines with
  | nil =>
    rw [Config.parseMapping] at hparse
    cases hparse
    rfl
  | cons l rest =>
    have hindent := (h.head_entries rfl).1
    dsimp only
    rw [if_neg (not_not.mpr hindent), hparse]

/-- The tree of a document that is accepted reads every line of it, each entry
    under its key in its mapping and each item in its sequence, exactly if the
    lines are well indented. -/
theorem parseYAML_reads_iff {data : GoString} {tree : List (GoString × Yaml)}
    (h : parseYAML data = some (.ok tree)) :
    Reads .entries 0 (contentLines data) (.map tree) ↔ WellIndented (contentLines data) := by
  obtain ⟨lines, hlines⟩ := preprocess_of_parseYAML h
  obtain rfl := preprocess_ok hlines
  constructor
  · intro hreads
    exact wellIndented_iff.mpr ⟨tree, hreads⟩
  · intro hwell
    obtain ⟨tree', hreads⟩ := wellIndented_iff.mp hwell
    have heq := (hreads.parseYAML hlines).symm.trans h
    cases heq
    exact hreads

/-- A sequence at the indentation of its key, with an item of two lines. -/
theorem parseYAML_reads_sequence :
    Reads .entries 0 (contentLines (ascii "a:\n- x: 1\n  y: 2")) (.map [(ascii "a", .seq [
      .map [(ascii "x", .scalar (ascii "1")), (ascii "y", .scalar (ascii "2"))]])]) :=
  (parseYAML_reads_iff rfl).mpr (by decide +kernel)

/-- A line too far to the right ends the document: it and the lines after it are
    missing from the tree, without an error. -/
theorem parseYAML_drops_lines :
    parseYAML (ascii "a: 1\n  b: 2\nc: 3") = some (.ok [(ascii "a", .scalar (ascii "1"))]) ∧
    ¬ Reads .entries 0 (contentLines (ascii "a: 1\n  b: 2\nc: 3"))
        (.map [(ascii "a", .scalar (ascii "1"))]) := by
  refine ⟨rfl, fun hreads => ?_⟩
  have hwell := wellIndented_iff.mpr ⟨_, hreads⟩
  exact absurd hwell (by decide +kernel)

end HootLb.Config
