import HootLb.ForStd.ExceptRules
import HootLb.Spec.YamlRender

/-!
# One line in a document

A line that holds a scalar gives one value of the tree, and the rest of the tree does
not depend on it: with another line in its place that is a value of its own, the tree
is the same except for that value. A position in a tree is the list of keys and
indices that lead to it.

## Key results

- `Reads.replace`: another line in the place of one that holds a scalar
- `Yaml.get?_set`: the new value is where the old one was
- `preprocess_document`: the lines around a line of the file
- `ReadInFull.replace`: another line in a document
-/

namespace HootLb.Config

open GoString

/-! ## Positions -/

/-- One step down a tree. -/
inductive TreeStep where
  | key (key : GoString)
  | item (i : Nat)

/-- The value at a position. -/
def Yaml.get? : List TreeStep → Yaml → Option Yaml
  | [], v => some v
  | .key key :: path, .map es => (es.lookup key).bind (Yaml.get? path)
  | .item i :: path, .seq vs => (vs[i]?).bind (Yaml.get? path)
  | _ :: _, _ => none

/-- The tree with another value at a position. -/
def Yaml.set : List TreeStep → Yaml → Yaml → Yaml
  | [], _, new => new
  | .key key :: path, .map es, new =>
    .map (es.map fun e => if e.1 = key then (e.1, Yaml.set path e.2 new) else e)
  | .item i :: path, .seq vs, new => .seq (vs.modify i fun v => Yaml.set path v new)
  | _ :: _, v, _ => v

theorem lookup_map_set (es : List (GoString × Yaml)) (key : GoString) (f : Yaml → Yaml) :
    (es.map fun e => if e.1 = key then (e.1, f e.2) else e).lookup key =
      (es.lookup key).map f := by
  induction es with
  | nil => rfl
  | cons e es ih =>
    obtain ⟨k, u⟩ := e
    rw [List.map_cons]
    by_cases hk : k = key
    · simp [hk]
    · have hne : (key == k) = false := by simpa using Ne.symm hk
      simp only [if_neg hk, List.lookup_cons, hne]
      exact ih

theorem Yaml.get?_set {path : List TreeStep} {v old : Yaml} (h : v.get? path = some old)
    (new : Yaml) : (v.set path new).get? path = some new := by
  induction path generalizing v with
  | nil => rfl
  | cons step path ih =>
    cases step with
    | key key =>
      cases v with
      | map es =>
        rw [Yaml.get?, Option.bind_eq_some_iff] at h
        obtain ⟨u, hu, hold⟩ := h
        rw [Yaml.set, Yaml.get?, lookup_map_set es key fun v => Yaml.set path v new, hu]
        exact ih hold
      | _ => cases h
    | item i =>
      cases v with
      | seq vs =>
        rw [Yaml.get?, Option.bind_eq_some_iff] at h
        obtain ⟨u, hu, hold⟩ := h
        rw [Yaml.set, Yaml.get?, List.getElem?_modify_eq, hu]
        exact ih hold
      | _ => cases h

section

variable {key x : GoString} {v : Yaml} {es : List (GoString × Yaml)} {vs : List Yaml}
  {path : List TreeStep}

theorem map_set_of_fresh (hfresh : key ∉ es.map Prod.fst) (f : Yaml → Yaml) :
    (es.map fun e => if e.1 = key then (e.1, f e.2) else e) = es := by
  refine (List.map_congr_left fun e he => if_neg ?_).trans (List.map_id' es)
  rintro rfl
  exact hfresh (List.mem_map_of_mem he)

/-- A position below the first entry of a mapping. -/
theorem get?_set_entry (hfresh : key ∉ es.map Prod.fst)
    (hget : v.get? path = some (.scalar x)) :
    (Yaml.map ((key, v) :: es)).get? (.key key :: path) = some (.scalar x) ∧
      ∀ new, (Yaml.map ((key, v) :: es)).set (.key key :: path) new =
        .map ((key, v.set path new) :: es) := by
  constructor
  · rw [Yaml.get?, List.lookup_cons_self]
    exact hget
  · intro new
    rw [Yaml.set, List.map_cons, if_pos rfl,
      map_set_of_fresh hfresh fun u => Yaml.set path u new]

/-- A position in a mapping, with one more entry in front. -/
theorem get?_set_entries (hfresh : key ∉ es.map Prod.fst)
    (hget : (Yaml.map es).get? path = some (.scalar x)) :
    (Yaml.map ((key, v) :: es)).get? path = some (.scalar x) ∧
      ∀ new, ∃ es', (Yaml.map es).set path new = .map es' ∧ key ∉ es'.map Prod.fst ∧
        (Yaml.map ((key, v) :: es)).set path new = .map ((key, v) :: es') := by
  match path, hget with
  | .key k :: path, hget =>
    rw [Yaml.get?, Option.bind_eq_some_iff] at hget
    obtain ⟨u, hu, hx⟩ := hget
    have hmem : k ∈ es.map Prod.fst := by
      obtain ⟨front, behind, rfl, -⟩ := List.lookup_eq_some_iff.mp hu
      simp
    have hne : key ≠ k := fun heq => hfresh (heq ▸ hmem)
    have hbeq : (k == key) = false := by simpa using hne.symm
    constructor
    · simp only [Yaml.get?, List.lookup_cons, hbeq, hu]
      exact hx
    · intro new
      refine ⟨_, rfl, ?_, ?_⟩
      · -- no key changes
        have hkeys : (es.map fun e => if e.1 = k then (e.1, Yaml.set path e.2 new) else e).map
            Prod.fst = es.map Prod.fst := by
          rw [List.map_map]
          apply List.map_congr_left
          intro e _
          dsimp only [Function.comp_apply]
          split <;> rfl
        rwa [hkeys]
      · rw [Yaml.set, List.map_cons, if_neg hne]

/-- A position in a sequence, with one more item in front. -/
theorem get?_set_items (hget : (Yaml.seq vs).get? path = some (.scalar x)) :
    ∃ path', (Yaml.seq (v :: vs)).get? path' = some (.scalar x) ∧
      ∀ new, ∃ vs', (Yaml.seq vs).set path new = .seq vs' ∧
        (Yaml.seq (v :: vs)).set path' new = .seq (v :: vs') := by
  match path, hget with
  | .item i :: path, hget =>
    refine ⟨.item (i + 1) :: path, hget, ?_⟩
    intro new
    exact ⟨_, rfl, rfl⟩

end

/-! ## Lines that hold a scalar -/

/-- Where on its line a value stands. -/
inductive Slot where
  | item
  | entry (key : GoString)
  /-- the first entry of a mapping, after the dash -/
  | dashEntry (key : GoString)

/-- The line is read as a value in its slot, and ends there. -/
def Slot.Fills : Slot → RawLine → Yaml → Prop
  | item, l, v => Reads .items l.indent [l] (.seq [v])
  | entry key, l, v => Reads .entries l.indent [l] (.map [(key, v)])
  | dashEntry key, l, v =>
    isSeqItem l.content ∧ itemText l.content ≠ [] ∧ looksLikeMapEntry (itemText l.content) ∧
      Reads .entries (l.indent + 2) [l.afterDash] (.map [(key, v)])

/-- The line has a text as the scalar in its slot. -/
inductive Slot.Holds : Slot → RawLine → GoString → Prop where
  | item {l : RawLine} (hitem : isSeqItem l.content) (htext : itemText l.content ≠ [])
      (hscalar : looksLikeMapEntry (itemText l.content) = false) :
      Holds .item l (itemText l.content)
  | entry {l : RawLine} {key val : GoString} (hitem : isSeqItem l.content = false)
      (hsplit : splitKeyVal l.content l.lineNo = .ok (key, some val)) : Holds (.entry key) l val
  | dashEntry {l : RawLine} {key val : GoString} (hitem : isSeqItem l.content)
      (htext : itemText l.content ≠ []) (hentry : looksLikeMapEntry (itemText l.content))
      (hfirst : isSeqItem (itemText l.content) = false)
      (hsplit : splitKeyVal (itemText l.content) l.lineNo = .ok (key, some val)) :
      Holds (.dashEntry key) l val

theorem Slot.Holds.fills {slot : Slot} {l : RawLine} {text : GoString} (h : slot.Holds l text) :
    slot.Fills l (.scalar (parseScalar text)) := by
  cases h with
  | item hitem htext hscalar => exact .scalarItem hitem htext hscalar (.noItems _)
  | entry hitem hsplit => exact .inlineEntry hitem hsplit (.noEntries _) (by simp)
  | dashEntry hitem htext hentry hfirst hsplit =>
    exact ⟨hitem, htext, hentry, .inlineEntry (l := RawLine.afterDash _) hfirst hsplit
      (.noEntries _) (by simp)⟩

/-- More items after a sequence. -/
theorem Reads.items_cons {n : Nat} {l : RawLine} {v : Yaml} (h : Reads .items n [l] (.seq [v]))
    {rest : List RawLine} {vs : List Yaml} (hrest : Reads .items n rest (.seq vs)) :
    Reads .items n (l :: rest) (.seq (v :: vs)) := by
  generalize hlines : [l] = lines at h
  cases h with
  | scalarItem hitem htext hscalar _ =>
    obtain ⟨rfl, -⟩ := List.cons.inj hlines
    exact .scalarItem hitem htext hscalar hrest
  | mappingItem hitem htext hentry hsub _ =>
    obtain ⟨rfl, hnil⟩ := List.cons.inj hlines
    obtain ⟨rfl, -⟩ := List.append_eq_nil_iff.mp hnil.symm
    exact .mappingItem hitem htext hentry hsub hrest
  | bareItem hitem htext hsub _ =>
    obtain ⟨rfl, hnil⟩ := List.cons.inj hlines
    obtain ⟨rfl, -⟩ := List.append_eq_nil_iff.mp hnil.symm
    exact .bareItem hitem htext hsub hrest

/-- More entries after an entry. -/
theorem Reads.entries_cons {n : Nat} {l : RawLine} {key : GoString} {v : Yaml}
    (h : Reads .entries n [l] (.map [(key, v)])) {rest : List RawLine}
    {es : List (GoString × Yaml)} (hrest : Reads .entries n rest (.map es))
    (hfresh : key ∉ es.map Prod.fst) : Reads .entries n (l :: rest) (.map ((key, v) :: es)) := by
  generalize hlines : [l] = lines at h
  cases h with
  | inlineEntry hitem hsplit _ _ =>
    obtain ⟨rfl, -⟩ := List.cons.inj hlines
    exact .inlineEntry hitem hsplit hrest hfresh
  | entry hitem hsplit hsub _ _ =>
    obtain ⟨rfl, hnil⟩ := List.cons.inj hlines
    obtain ⟨rfl, -⟩ := List.append_eq_nil_iff.mp hnil.symm
    exact .entry hitem hsplit hsub hrest hfresh

/-- A line in one of two lists. -/
theorem append_eq_append_cons {α : Type} {sub rest before after : List α} {l : α}
    (h : sub ++ rest = before ++ l :: after) :
    (∃ mid, sub = before ++ l :: mid ∧ after = mid ++ rest) ∨
      ∃ mid, rest = mid ++ l :: after ∧ before = sub ++ mid := by
  rcases List.append_eq_append_iff.mp h with ⟨mid, hbefore, hrest⟩ | ⟨mid, hsub, hmid⟩
  · exact .inr ⟨mid, hrest, hbefore⟩
  · cases mid with
    | nil => exact .inr ⟨[], by simpa using hmid.symm, by simpa using hsub.symm⟩
    | cons l' mid =>
      obtain ⟨rfl, rfl⟩ := List.cons.inj hmid
      exact .inl ⟨mid, hsub, rfl⟩

/-- The lines around `l` with another line in its place are read as the same tree, except
    for the value at one position, which was that of `l`. -/
def Replaceable (slot : Slot) (l : RawLine) (text : GoString) (p : Part) (n : Nat)
    (before after : List RawLine) (v : Yaml) : Prop :=
  ∃ path, v.get? path = some (.scalar (parseScalar text)) ∧
    ∀ l' new, l'.indent = l.indent → slot.Fills l' new →
      Reads p n (before ++ l' :: after) (v.set path new)

namespace Replaceable

variable {slot : Slot} {l : RawLine} {text : GoString} {p q : Part} {n m : Nat} {v : Yaml}
  {before after before' after' : List RawLine} {key : GoString} {es : List (GoString × Yaml)}
  {vs : List Yaml}

/-- The same lines as another part. -/
theorem imp (hread : ∀ l' u, Reads q m (before ++ l' :: after) u →
      Reads p n (before ++ l' :: after) u)
    (h : Replaceable slot l text q m before after v) :
    Replaceable slot l text p n before after v := by
  obtain ⟨path, hget, hreplace⟩ := h
  exact ⟨path, hget, fun l' new hindent hfills => hread l' _ (hreplace l' new hindent hfills)⟩

/-- Lines below an entry. -/
theorem below_entry (hfresh : key ∉ es.map Prod.fst)
    (hread : ∀ l' u, Reads q m (before ++ l' :: after) u →
      Reads .entries n (before' ++ l' :: after') (.map ((key, u) :: es)))
    (h : Replaceable slot l text q m before after v) :
    Replaceable slot l text .entries n before' after' (.map ((key, v) :: es)) := by
  obtain ⟨path, hget, hreplace⟩ := h
  obtain ⟨hget, hset⟩ := get?_set_entry hfresh hget
  refine ⟨.key key :: path, hget, ?_⟩
  intro l' new hindent hfills
  rw [hset]
  exact hread l' _ (hreplace l' new hindent hfills)

/-- Lines below an item. -/
theorem below_item (hread : ∀ l' u, Reads q m (before ++ l' :: after) u →
      Reads .items n (before' ++ l' :: after') (.seq (u :: vs)))
    (h : Replaceable slot l text q m before after v) :
    Replaceable slot l text .items n before' after' (.seq (v :: vs)) := by
  obtain ⟨path, hget, hreplace⟩ := h
  refine ⟨.item 0 :: path, hget, ?_⟩
  intro l' new hindent hfills
  exact hread l' _ (hreplace l' new hindent hfills)

/-- Lines behind an entry. -/
theorem behind_entry (hfresh : key ∉ es.map Prod.fst)
    (hread : ∀ l' es', Reads .entries n (before ++ l' :: after) (.map es') →
      key ∉ es'.map Prod.fst → Reads .entries n (before' ++ l' :: after) (.map ((key, v) :: es')))
    (h : Replaceable slot l text .entries n before after (.map es)) :
    Replaceable slot l text .entries n before' after (.map ((key, v) :: es)) := by
  obtain ⟨path, hget, hreplace⟩ := h
  obtain ⟨hget, hset⟩ := get?_set_entries (v := v) hfresh hget
  refine ⟨path, hget, ?_⟩
  intro l' new hindent hfills
  obtain ⟨es', hes', hfresh', hset⟩ := hset new
  rw [hset]
  exact hread l' es' (hes' ▸ hreplace l' new hindent hfills) hfresh'

/-- Lines behind an item. -/
theorem behind_item (hread : ∀ l' vs', Reads .items n (before ++ l' :: after) (.seq vs') →
      Reads .items n (before' ++ l' :: after) (.seq (v :: vs')))
    (h : Replaceable slot l text .items n before after (.seq vs)) :
    Replaceable slot l text .items n before' after (.seq (v :: vs)) := by
  obtain ⟨path, hget, hreplace⟩ := h
  obtain ⟨path', hget, hset⟩ := get?_set_items (v := v) hget
  refine ⟨path', hget, ?_⟩
  intro l' new hindent hfills
  obtain ⟨vs', hvs', hset⟩ := hset new
  rw [hset]
  exact hread l' vs' (hvs' ▸ hreplace l' new hindent hfills)

end Replaceable

/-- A line that holds a scalar can be replaced, wherever it stands. -/
theorem Reads.replace {p : Part} {n : Nat} {lines : List RawLine} {v : Yaml}
    (h : Reads p n lines v) {slot : Slot} {l : RawLine} {text : GoString}
    {before after : List RawLine} (hlines : lines = before ++ l :: after)
    (hl : slot.Holds l text) : Replaceable slot l text p n before after v := by
  induction h generalizing slot l text before after with
  | noEntries n | noValue n | noItems n | noItem n => simp at hlines
  | @inlineEntry l₀ key val rest es hitem hsplit hrest hfresh ih =>
    cases before with
    | nil =>
      obtain ⟨rfl, rfl⟩ := List.cons.inj hlines
      cases hl with
      | item hitem' | dashEntry hitem' => simp [hitem] at hitem'
      | entry _ hsplit' =>
        obtain ⟨rfl, rfl⟩ : _ = _ ∧ _ = _ := by simpa [hsplit] using hsplit'
        obtain ⟨hget, hset⟩ := get?_set_entry hfresh
          (show (Yaml.scalar (parseScalar val)).get? [] = some _ from rfl)
        refine ⟨_, hget, ?_⟩
        intro l' new hindent hfills
        rw [hset]
        exact (hindent ▸ hfills : Reads .entries l₀.indent [l'] _).entries_cons hrest hfresh
    | cons l₁ before =>
      obtain ⟨rfl, hbehind⟩ := List.cons.inj hlines
      exact (ih hbehind hl).behind_entry hfresh fun l' es' => .inlineEntry hitem hsplit
  | @entry l₀ key sub rest v es hitem hsplit hsub hrest hfresh ihsub ihrest =>
    cases before with
    | nil =>
      -- a key with its value below it is on a line that holds no scalar
      obtain ⟨rfl, -⟩ := List.cons.inj hlines
      cases hl with
      | item hitem' | dashEntry hitem' => simp [hitem] at hitem'
      | entry _ hsplit' => simp [hsplit] at hsplit'
    | cons l₁ before =>
      obtain ⟨rfl, hbehind⟩ := List.cons.inj hlines
      -- the line is below the key, or behind all that is
      obtain ⟨mid, rfl, rfl⟩ | ⟨mid, rfl, rfl⟩ := append_eq_append_cons hbehind
      · refine (ihsub rfl hl).below_entry hfresh fun l' u hu => ?_
        simpa using Reads.entry hitem hsplit hu hrest hfresh
      · refine (ihrest rfl hl).behind_entry hfresh fun l' es' hes' hfresh' => ?_
        simpa using Reads.entry hitem hsplit hsub hes' hfresh'
  | mappingBelowKey hlt hne hsub ih =>
    exact (ih hlines hl).imp fun l' u => .mappingBelowKey hlt (by simp)
  | sequenceBelowKey hle hne hsub ih =>
    exact (ih hlines hl).imp fun l' u => .sequenceBelowKey hle (by simp)
  | @scalarItem l₀ rest vs hitem htext hscalar hrest ih =>
    cases before with
    | nil =>
      obtain ⟨rfl, rfl⟩ := List.cons.inj hlines
      cases hl with
      | entry hitem' => simp [hitem] at hitem'
      | dashEntry _ _ hentry => simp [hscalar] at hentry
      | item =>
        refine ⟨[.item 0], rfl, ?_⟩
        intro l' new hindent hfills
        exact (hindent ▸ hfills : Reads .items l₀.indent [l'] _).items_cons hrest
    | cons l₁ before =>
      obtain ⟨rfl, hbehind⟩ := List.cons.inj hlines
      exact (ih hbehind hl).behind_item fun l' vs' => .scalarItem hitem htext hscalar
  | @mappingItem l₀ sub rest v vs hitem htext hentry hsub hrest ihsub ihrest =>
    cases before with
    | nil =>
      obtain ⟨rfl, rfl⟩ := List.cons.inj hlines
      cases hl with
      | entry hitem' => simp [hitem] at hitem'
      | item _ _ hscalar => simp [hentry] at hscalar
      | @dashEntry _ key _ _ _ _ hfirst hsplit =>
        -- the entry behind the dash is replaced in its mapping
        obtain ⟨path, hget, hreplace⟩ := @ihsub (.entry key) l₀.afterDash _ [] sub rfl
          (.entry hfirst hsplit)
        refine ⟨.item 0 :: path, hget, ?_⟩
        intro l' new hindent hfills
        obtain ⟨hitem', htext', hentry', hread⟩ := hfills
        have hsub' := hreplace l'.afterDash new (by simp [RawLine.afterDash, hindent]) hread
        rw [← hindent] at hsub' hrest ⊢
        exact .mappingItem hitem' htext' hentry' hsub' hrest
    | cons l₁ before =>
      obtain ⟨rfl, hbehind⟩ := List.cons.inj hlines
      obtain ⟨mid, rfl, rfl⟩ | ⟨mid, rfl, rfl⟩ := append_eq_append_cons hbehind
      · have hreplace := @ihsub slot l text (l₀.afterDash :: before) mid rfl hl
        refine hreplace.below_item fun l' u hu => ?_
        simpa using Reads.mappingItem hitem htext hentry hu hrest
      · refine (ihrest rfl hl).behind_item fun l' vs' hvs' => ?_
        simpa using Reads.mappingItem hitem htext hentry hsub hvs'
  | @bareItem l₀ sub rest v vs hitem htext hsub hrest ihsub ihrest =>
    cases before with
    | nil =>
      obtain ⟨rfl, -⟩ := List.cons.inj hlines
      cases hl with
      | entry hitem' => simp [hitem] at hitem'
      | item _ htext' | dashEntry _ htext' => exact absurd htext htext'
    | cons l₁ before =>
      obtain ⟨rfl, hbehind⟩ := List.cons.inj hlines
      obtain ⟨mid, rfl, rfl⟩ | ⟨mid, rfl, rfl⟩ := append_eq_append_cons hbehind
      · refine (ihsub rfl hl).below_item fun l' u hu => ?_
        simpa using Reads.bareItem hitem htext hu hrest
      · refine (ihrest rfl hl).behind_item fun l' vs' hvs' => ?_
        simpa using Reads.bareItem hitem htext hsub hvs'
  | mappingBelowDash hlt hne hsub ih =>
    exact (ih hlines hl).imp fun l' u => .mappingBelowDash hlt (by simp)
  | sequenceBelowDash hlt hne hsub ih =>
    exact (ih hlines hl).imp fun l' u => .sequenceBelowDash hlt (by simp)

/-! ## Files with a line -/

/-- A file with a line in the midst of others. -/
def document (before : List GoString) (line : GoString) (after : List GoString) : GoString :=
  [10].intercalate (before ++ line :: after)

theorem splitOn_document {before after : List GoString} {line : GoString}
    (hbefore : ∀ l ∈ before, 10 ∉ l) (hline : 10 ∉ line) (hafter : ∀ l ∈ after, 10 ∉ l) :
    (document before line after).splitOn 10 = before ++ line :: after := by
  apply List.splitOn_intercalate
  · intro l hl
    rcases List.mem_append.mp hl with hl | hl
    · exact hbefore l hl
    · rcases List.mem_cons.mp hl with rfl | hl
      · exact hline
      · exact hafter l hl
  · simp

/-- A line of the file without its comment and the blanks before it. -/
def trimmedLine (raw : GoString) : GoString :=
  (stripComment (raw.trimRight [13])).trimRight [32, 9]

/-- One round of the loop of `preprocess`. -/
def preprocessLine (raw : GoString) (lineNo : Nat) : Except YamlError (Option RawLine) :=
  if (trimmedLine raw).trimSpace = [] then .ok none
  else
    match splitIndent (trimmedLine raw) with
    | none => .error (.tab lineNo)
    | some (indent, content) =>
      .ok (some { indent, content := content.trimRight [32, 9], lineNo })

theorem preprocessFrom_cons (lineNo : Nat) (raw : GoString) (raws : List GoString) :
    preprocessFrom lineNo (raw :: raws) = (do
      let line ← preprocessLine raw lineNo
      let lines ← preprocessFrom (lineNo + 1) raws
      pure (line.toList ++ lines)) := by
  unfold preprocessLine trimmedLine
  rw [preprocessFrom]
  split
  · cases preprocessFrom (lineNo + 1) raws with
    | error e => rfl
    | ok lines => rfl
  · cases splitIndent ((stripComment (raw.trimRight [13])).trimRight [32, 9]) with
    | none => rfl
    | some line =>
      dsimp only
      cases preprocessFrom (lineNo + 1) raws with
      | error e => rfl
      | ok lines => rfl

theorem preprocessFrom_append (lineNo : Nat) (raws more : List GoString) :
    preprocessFrom lineNo (raws ++ more) = (do
      let lines ← preprocessFrom lineNo raws
      let lines' ← preprocessFrom (lineNo + raws.length) more
      pure (lines ++ lines')) := by
  induction raws generalizing lineNo with
  | nil =>
    show preprocessFrom lineNo more = _
    cases preprocessFrom lineNo more with
    | error e => simp [preprocessFrom, bind, Except.bind]
    | ok lines => simp [preprocessFrom, bind, Except.bind, pure, Except.pure]
  | cons raw raws ih =>
    have hno : lineNo + (raw :: raws).length = lineNo + 1 + raws.length := by
      rw [List.length_cons]
      omega
    rw [List.cons_append, preprocessFrom_cons, preprocessFrom_cons, ih, hno]
    simp only [bind_assoc, pure_bind, List.append_assoc]

/-- The lines of a file around one of its lines do not depend on it. -/
theorem preprocess_document {before after : List GoString} (hbefore : ∀ l ∈ before, 10 ∉ l)
    (hafter : ∀ l ∈ after, 10 ∉ l) {raw : GoString} (hraw : 10 ∉ raw) {lines : List RawLine}
    (h : preprocess (document before raw after) = .ok lines) :
    ∃ front line behind, preprocessLine raw (1 + before.length) = .ok line ∧
      lines = front ++ line.toList ++ behind ∧
      ∀ raw' line', 10 ∉ raw' → preprocessLine raw' (1 + before.length) = .ok line' →
        preprocess (document before raw' after) = .ok (front ++ line'.toList ++ behind) := by
  unfold preprocess at h ⊢
  rw [splitOn_document hbefore hraw hafter, preprocessFrom_append, preprocessFrom_cons] at h
  -- the lines in front, the line itself and the lines behind it
  obtain ⟨front, hfront, hall⟩ := Except.exists_of_bind_eq_ok h
  obtain ⟨rest, hrest, hlines⟩ := Except.exists_of_bind_eq_ok hall
  obtain ⟨line, hline, hbelow⟩ := Except.exists_of_bind_eq_ok hrest
  obtain ⟨behind, hbehind, hsplit⟩ := Except.exists_of_bind_eq_ok hbelow
  cases hsplit
  cases hlines
  refine ⟨front, line, behind, hline, by simp, ?_⟩
  intro raw' line' hraw' hline'
  rw [splitOn_document hbefore hraw' hafter, preprocessFrom_append, preprocessFrom_cons,
    hfront, hline', hbehind]
  simp [bind, Except.bind, pure, Except.pure]

theorem preprocessLine_text {l : Line} (h : Readable l.content) (lineNo : Nat) :
    preprocessLine l.text lineNo = .ok (some (l.numbered lineNo)) := by
  have hline := preprocessFrom_line h lineNo (show preprocessFrom (lineNo + 1) [] = .ok [] from rfl)
  rw [preprocessFrom_cons] at hline
  obtain ⟨line, hread, hrest⟩ := Except.exists_of_bind_eq_ok hline
  cases line with
  | none => cases hrest
  | some line =>
    cases hrest
    exact hread

/-! ## Documents that are read in full -/

/-- The document is accepted, and every line of it has its place in the tree. -/
def ReadInFull (data : GoString) (tree : List (GoString × Yaml)) : Prop :=
  parseYAML data = some (.ok tree) ∧ WellIndented (contentLines data)

theorem ReadInFull.reads {data : GoString} {tree : List (GoString × Yaml)}
    (h : ReadInFull data tree) :
    ∃ lines, preprocess data = .ok lines ∧ Reads .entries 0 lines (.map tree) := by
  obtain ⟨lines, hlines⟩ := preprocess_of_parseYAML h.1
  refine ⟨lines, hlines, ?_⟩
  rw [preprocess_ok hlines]
  exact (parseYAML_reads_iff h.1).mpr h.2

/-- A document with another line in the place of one that holds a scalar has the same
    tree except for the value of that line. -/
theorem ReadInFull.replace {before after : List GoString} (hbefore : ∀ l ∈ before, 10 ∉ l)
    (hafter : ∀ l ∈ after, 10 ∉ l) {raw : GoString} (hraw : 10 ∉ raw)
    {tree : List (GoString × Yaml)} (h : ReadInFull (document before raw after) tree)
    {slot : Slot} {l : RawLine} {text : GoString}
    (hline : preprocessLine raw (1 + before.length) = .ok (some l)) (hl : slot.Holds l text) :
    ∃ path, (Yaml.map tree).get? path = some (.scalar (parseScalar text)) ∧
      ∀ raw' l' new, 10 ∉ raw' → preprocessLine raw' (1 + before.length) = .ok (some l') →
        l'.indent = l.indent → slot.Fills l' new →
        ∃ tree', parseYAML (document before raw' after) = some (.ok tree') ∧
          Yaml.map tree' = (Yaml.map tree).set path new := by
  obtain ⟨lines, hlines, hreads⟩ := h.reads
  obtain ⟨front, line, behind, hread, rfl, hother⟩ :=
    preprocess_document hbefore hafter hraw hlines
  obtain rfl : line = some l := Except.ok.inj (hread.symm.trans hline)
  have hsplit : front ++ (some l).toList ++ behind = front ++ l :: behind := by simp
  obtain ⟨path, hget, hreplace⟩ := hreads.replace hsplit hl
  refine ⟨path, hget, ?_⟩
  intro raw' l' new hraw' hline' hindent hfills
  have hreads' := hreplace l' new hindent hfills
  obtain ⟨tree', htree'⟩ := hreads'.entries_map
  refine ⟨tree', ?_, htree'.symm⟩
  rw [htree'] at hreads'
  exact hreads'.parseYAML (by simpa using hother raw' (some l') hraw' hline')

end HootLb.Config
