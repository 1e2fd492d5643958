import HootLb.Spec.YamlContext

/-!
# Quotes around the items of a sequence

Quotes are there so that a text can hold what would otherwise mean something to the
parser. For the value of an entry they do: the key ends at the first colon, and all
that follows is the value. For an item of a sequence `looksLikeMapEntry` asks for a
colon anywhere behind the dash, also between the quotes, and an item with one is cut
in two at that colon. Quotes protect exactly the items without a colon.

## Key results

- `reads_quoted_colon`: what an item with a colon between its quotes becomes
- `quoted_item_iff`: which items a document keeps, and that it keeps all values
-/

namespace HootLb.Config

open GoString

/-- A sequence item on a line of its own. -/
def itemLine (indent : Nat) (text : GoString) : Line :=
  { indent, content := ascii "- " ++ text }

/-- An entry with its value on one line. -/
def entryLine (indent : Nat) (key text : GoString) : Line :=
  { indent, content := key ++ ascii ": " ++ text }

/-! ## One line -/

/-- An item without a colon holds its text. -/
theorem holds_item {text : GoString} (h : Trimmed text) (hcolon : 58 ∉ text) (n lineNo : Nat) :
    Slot.item.Holds ((itemLine n text).numbered lineNo) text := by
  have htext : itemText ((itemLine n text).numbered lineNo).content = text := itemText_dash h
  have hscalar : looksLikeMapEntry text = false := by
    rw [Bool.eq_false_iff, ne_eq, looksLikeMapEntry_iff]
    exact hcolon
  have hholds := Slot.Holds.item (l := (itemLine n text).numbered lineNo) (isSeqItem_dash text)
    (by rw [htext]; exact h.ne_nil) (by rw [htext]; exact hscalar)
  rwa [htext] at hholds

/-- An entry holds its text, with or without a colon. -/
theorem holds_entry {key text : GoString} (hkey : IsWord key) (h : Trimmed text)
    (n lineNo : Nat) :
    (Slot.entry key).Holds ((entryLine n key text).numbered lineNo) text := by
  refine .entry ?_ (splitKeyVal_text hkey h lineNo)
  show isSeqItem (key ++ ascii ": " ++ text) = false
  rw [List.append_assoc]
  exact isSeqItem_key hkey _

/-- A quoted text with a colon is split inside its quotes. -/
theorem splitKeyVal_quoted {q : UInt8} (hq : IsQuote q) {text : GoString} (hcolon : 58 ∈ text)
    (lineNo : Nat) :
    ∃ key val, splitKeyVal (quoteWith q text) lineNo = .ok (key, some val) := by
  obtain ⟨front, rest, rfl, hfront⟩ := List.eq_append_cons_of_mem hcolon
  have hne : (58 : UInt8) ≠ q := by rcases hq with rfl | rfl <;> decide
  have hsplit : quoteWith q (front ++ 58 :: rest) = (q :: front) ++ 58 :: (rest ++ [q]) := by
    simp [quoteWith]
  rw [hsplit, splitKeyVal_colon (by simp [hne, hfront]),
    if_neg (trimSpace_ne_nil hq.visible List.mem_cons_self),
    if_neg (trimSpace_ne_nil hq.visible (by simp))]
  exact ⟨_, _, rfl⟩

/-- An item with a colon between its quotes is a mapping. -/
theorem reads_quoted_colon {q : UInt8} (hq : IsQuote q) {text : GoString} (hcolon : 58 ∈ text)
    (n lineNo : Nat) :
    ∃ es, Slot.item.Fills ((itemLine n (quoteWith q text)).numbered lineNo) (.map es) := by
  let l := (itemLine n (quoteWith q text)).numbered lineNo
  have htrimmed := quoteWith_trimmed hq text
  have htext : itemText l.content = quoteWith q text := itemText_dash htrimmed
  obtain ⟨key, val, hsplit⟩ := splitKeyVal_quoted hq hcolon lineNo
  have hfirst : isSeqItem l.afterDash.content = false := by
    show isSeqItem (itemText l.content) = false
    rw [htext]
    rcases hq with rfl | rfl <;>
      simp [isSeqItem, quoteWith, ascii, GoString.hasPrefix, List.isPrefixOf]
  have hafter : splitKeyVal l.afterDash.content l.afterDash.lineNo = .ok (key, some val) := by
    show splitKeyVal (itemText l.content) lineNo = .ok (key, some val)
    rw [htext, hsplit]
  have hentry : Reads .entries (l.indent + 2) [l.afterDash]
      (.map [(key, .scalar (parseScalar val))]) :=
    .inlineEntry (l := l.afterDash) hfirst hafter (.noEntries _) (by simp)
  refine ⟨_, .mappingItem (l := l) (isSeqItem_dash _) ?_ ?_ hentry (.noItems _)⟩
  · rw [htext]
    exact htrimmed.ne_nil
  · rw [htext, looksLikeMapEntry_iff]
    simp [quoteWith, hcolon]

/-! ## Documents -/

/-- `ReadInFull.replace` for lines that reach the parser as they are written. -/
theorem ReadInFull.replace_line {before after : List GoString} (hbefore : ∀ l ∈ before, 10 ∉ l)
    (hafter : ∀ l ∈ after, 10 ∉ l) {l : Line} (hl : Readable l.content)
    {tree : List (GoString × Yaml)} (h : ReadInFull (document before l.text after) tree)
    {slot : Slot} {text : GoString} (hholds : slot.Holds (l.numbered (1 + before.length)) text) :
    ∃ path, (Yaml.map tree).get? path = some (.scalar (parseScalar text)) ∧
      ∀ (l' : Line) (new : Yaml), Readable l'.content → l'.indent = l.indent →
        slot.Fills (l'.numbered (1 + before.length)) new →
        ∃ tree', parseYAML (document before l'.text after) = some (.ok tree') ∧
          Yaml.map tree' = (Yaml.map tree).set path new := by
  have hbreak {l : Line} (hl : Readable l.content) : 10 ∉ l.text := by
    simp [Line.text, hl.noBreak]
  obtain ⟨path, hget, hreplace⟩ :=
    h.replace hbefore hafter (hbreak hl) (preprocessLine_text hl _) hholds
  refine ⟨path, hget, ?_⟩
  intro l' new hl' hindent hfills
  exact hreplace l'.text _ new (hbreak hl') (preprocessLine_text hl' _) hindent hfills

/-- In a document that is read in full with a word as an item, the word in quotes and
    any other quoted text in its place are that item exactly if they have no colon. As
    the value of an entry they are that value in any case. -/
theorem quoted_item_iff {before after : List GoString} (hbefore : ∀ l ∈ before, 10 ∉ l)
    (hafter : ∀ l ∈ after, 10 ∉ l) (indent : Nat) {word : GoString} (hword : IsWord word) :
    (∀ tree, ReadInFull (document before (itemLine indent word).text after) tree →
      ∃ path, (Yaml.map tree).get? path = some (.scalar word) ∧
        ∀ q s, IsQuote q → 10 ∉ s → q ∉ s →
          ((∃ tree', parseYAML (document before (itemLine indent (quoteWith q s)).text after) =
              some (.ok tree') ∧ Yaml.map tree' = (Yaml.map tree).set path (.scalar s)) ↔
            58 ∉ s)) ∧
    (∀ key tree, IsWord key →
      ReadInFull (document before (entryLine indent key word).text after) tree →
      ∃ path, (Yaml.map tree).get? path = some (.scalar word) ∧
        ∀ q s, IsQuote q → 10 ∉ s → q ∉ s →
          ∃ tree', parseYAML (document before (entryLine indent key (quoteWith q s)).text after) =
            some (.ok tree') ∧ Yaml.map tree' = (Yaml.map tree).set path (.scalar s)) := by
  constructor
  · intro tree hfull
    have hcolon : 58 ∉ word := hword.not_mem (by decide)
    obtain ⟨path, hget, hreplace⟩ := hfull.replace_line hbefore hafter hword.readable.item
      (holds_item hword.trimmed hcolon indent _)
    rw [parseScalar_word hword] at hget
    refine ⟨path, hget, ?_⟩
    intro q s hq hbreak hmark
    have hreadable := readable_quoteWith hq hmark hbreak
    have hother := fun new => hreplace (itemLine indent (quoteWith q s)) new hreadable.item rfl
    constructor
    · -- with a colon the item is a mapping, which no scalar is
      intro hsame hcolon
      obtain ⟨tree', hparse, htree'⟩ := hsame
      obtain ⟨es, hfills⟩ := reads_quoted_colon hq hcolon indent (1 + before.length)
      obtain ⟨tree'', hparse', htree''⟩ := hother _ hfills
      obtain rfl : tree' = tree'' := by
        rw [hparse'] at hparse
        cases hparse
        rfl
      have hscalar := Yaml.get?_set hget (.scalar s)
      rw [← htree', htree'', Yaml.get?_set hget] at hscalar
      cases hscalar
    · intro hcolon
      have hquoted : 58 ∉ quoteWith q s := by
        rcases hq with rfl | rfl <;> simpa [quoteWith] using hcolon
      have hfills := (holds_item hreadable.trimmed hquoted indent (1 + before.length)).fills
      rw [parseScalar_quoteWith hq] at hfills
      exact hother _ hfills
  · intro key tree hkey hfull
    obtain ⟨path, hget, hreplace⟩ := hfull.replace_line hbefore hafter
      (hkey.readable_entry hword.readable) (holds_entry hkey hword.trimmed indent _)
    rw [parseScalar_word hword] at hget
    refine ⟨path, hget, ?_⟩
    intro q s hq hbreak hmark
    -- a colon in the value is behind the one that ends the key
    have hfills := (holds_entry hkey (quoteWith_trimmed hq s) indent (1 + before.length)).fills
    rw [parseScalar_quoteWith hq] at hfills
    exact hreplace (entryLine indent key (quoteWith q s)) _
      (hkey.readable_entry (readable_quoteWith hq hmark hbreak)) rfl hfills

/-- A comment sign and an apostrophe between the quotes of an item. -/
theorem quoted_item_kept :
    ∃ path, (Yaml.map [(ascii "a", .seq [.scalar (ascii "x")])]).get? path =
        some (.scalar (ascii "x")) ∧
      ∃ tree', parseYAML (ascii "a:\n  - \"it's # 1\"") = some (.ok tree') ∧
        Yaml.map tree' = (Yaml.map [(ascii "a", .seq [.scalar (ascii "x")])]).set path
          (.scalar (ascii "it's # 1")) := by
  have hword : IsWord (ascii "x") := .of_ascii (by decide) (by decide)
  have hfull : ReadInFull (document [ascii "a:"] (itemLine 2 (ascii "x")).text [])
      [(ascii "a", .seq [.scalar (ascii "x")])] := ⟨rfl, by decide +kernel⟩
  obtain ⟨path, hget, hitem⟩ :=
    (quoted_item_iff (by decide) (by decide) 2 hword).1 _ hfull
  have hdoc : document [ascii "a:"] (itemLine 2 (quoteWith 34 (ascii "it's # 1"))).text [] =
      ascii "a:\n  - \"it's # 1\"" := by decide +kernel
  have hkept := (hitem 34 (ascii "it's # 1") (.inl rfl) (by decide) (by decide)).mpr (by decide)
  rw [hdoc] at hkept
  exact ⟨path, hget, hkept⟩

/-- An address in quotes is cut at its first colon and becomes a mapping, with the
    opening quote in the key and the closing one in the value; as a value it is kept. -/
theorem quoted_item_cut :
    parseYAML (ascii "a:\n- \"::1\"") = some (.ok [(ascii "a",
      .seq [.map [(ascii "\"", .scalar (ascii ":1\""))]])]) ∧
    parseYAML (ascii "a: \"::1\"") = some (.ok [(ascii "a", .scalar (ascii "::1"))]) :=
  ⟨rfl, rfl⟩

end HootLb.Config
