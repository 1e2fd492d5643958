import HootLb.ForStd.PromText
import HootLb.Native.Exposition
import HootLb.Spec.GaugeVectors
import Mathlib.Data.List.Dedup

/-!
# Reading the exposition back

A scraper reads the text by the rules of the format. What it gets are the series
that were recorded, one cell per tuple of label values, as long as no value has a
line end or a zero byte in it: `escapeLabelValue` leaves line ends as they are, and
the vectors join the values of a tuple by zero bytes.

## Key results

- `Row.write_eq`: a line of the exposition is a line of the format
- `each_fill_perm`: a vector lists the tuples that were recorded, with their cells
- `exposition_reads_back`: the exposition is read as what was recorded
-/

namespace HootLb.Metrics

open PromText

/-! ## Lines -/

/-- Two passes over a value without line ends escape it as the format wants. -/
theorem toList_escapeLabelValue {s : String} (h : '\n' ∉ s.toList) :
    (escapeLabelValue s).toList = s.toList.flatMap escapeChar := by
  unfold escapeLabelValue replaceAll
  rw [String.toList_ofList, String.toList_ofList, List.flatMap_assoc]
  apply List.flatMap_congr
  intro c hc
  have hline : c ≠ '\n' := fun heq => h (heq ▸ hc)
  unfold escapeChar
  by_cases hback : c = '\\'
  · subst hback
    decide
  · rw [if_neg hback, if_neg hback, if_neg hline]
    simp

/-- The pairs of `formatLabels` are labels of the format. -/
theorem formatPairs_eq (names values : List String) (hlen : values.length = names.length) :
    formatPairs names values = some ((names.zip values).map fun l =>
      l.1 ++ "=\"" ++ escapeLabelValue l.2 ++ "\"") := by
  induction names generalizing values with
  | nil => rfl
  | cons n names ih =>
    cases values with
    | nil => exact nomatch hlen
    | cons v values =>
      rw [formatPairs, ih values (by simpa using hlen)]
      rfl

theorem formatLabels_eq (names values : List String) (hlen : values.length = names.length)
    (h : ∀ v ∈ values, '\n' ∉ v.toList) :
    formatLabels names values = some (String.ofList (labelSet (names.zip values))) := by
  unfold formatLabels labelSet
  by_cases hnames : names = []
  · subst hnames
    rfl
  · have hzip : names.zip values ≠ [] := by
      rw [Ne, List.zip_eq_nil_iff, not_or]
      exact ⟨hnames, fun hnil => hnames (List.length_eq_zero_iff.mp (by rw [← hlen, hnil]; rfl))⟩
    rw [if_neg hnames, if_neg hzip, formatPairs_eq names values hlen, Option.map_some,
      Option.some_inj, ← String.toList_inj]
    have hpairs : (names.zip values).map (String.toList ∘ fun l =>
        l.1 ++ "=\"" ++ escapeLabelValue l.2 ++ "\"") = (names.zip values).map label := by
      apply List.map_congr_left
      intro l hl
      have hline := h l.2 (List.of_mem_zip hl).2
      simp [label, toList_escapeLabelValue hline]
    simp [String.toList_intercalate, hpairs]

/-- A row as a sample. -/
def Row.sample (r : Row) : Sample :=
  { name := r.name, labels := r.labelNames.zip r.labelValues, value := r.value }

/-- What a row needs to be one line: names of the format, as many values as names
    and no line ends in them, and a number. -/
structure Row.Clean (r : Row) : Prop where
  valid : r.sample.Valid
  length : r.labelValues.length = r.labelNames.length
  oneLine : ∀ v ∈ r.labelValues, '\n' ∉ v.toList

theorem Row.write_eq {r : Row} (h : r.Clean) :
    r.write = some (String.ofList (r.sample.line ++ ['\n'])) := by
  rw [Row.write, formatLabels_eq _ _ h.length h.oneLine, Option.map_some, Option.some_inj,
    ← String.toList_inj]
  simp [Sample.line, Row.sample]

/-! ## Vectors -/

section

variable {ν : Type} (zero : ν)

/-- A vector after some uses: `With` of a tuple and an operation on its item. -/
def Vec.fill (labels : List String) (history : List (List String × (ν → ν))) : Vec ν :=
  history.foldl (fun vec u => vec.update zero u.1 u.2) (newVec labels)

/-- What should be behind a tuple: its own operations, on a new item. -/
def cell (history : List (List String × (ν → ν))) (t : List String) : ν :=
  (history.filter fun u => u.1 = t).foldl (fun x u => u.2 x) zero

/-- The tuples that were used, with their cells. -/
def stored (history : List (List String × (ν → ν))) : List (List String × ν) :=
  (history.map Prod.fst).dedup.map fun t => (t, cell zero history t)

/-- A tuple whose values can be read back from its key. -/
def ZeroFreeTuple (t : List String) : Prop := t ≠ [] ∧ ∀ v ∈ t, '\x00' ∉ v.toList

theorem key_inj {t t' : List String} (h : ZeroFreeTuple t) (h' : ZeroFreeTuple t')
    (hkey : key t = key t') : t = t' := by
  rw [← parts_key t h.1 h.2, hkey, parts_key t' h'.1 h'.2]

theorem fill_concat (labels : List String) (past : List (List String × (ν → ν)))
    (u : List String × (ν → ν)) :
    Vec.fill zero labels (past ++ [u]) = (Vec.fill zero labels past).update zero u.1 u.2 := by
  rw [Vec.fill, List.foldl_append]
  rfl

theorem labels_fill (labels : List String) (history : List (List String × (ν → ν))) :
    (Vec.fill zero labels history).labels = labels := by
  induction history using List.reverseRecOn with
  | nil => rfl
  | append_singleton past u ih => rw [fill_concat]; exact ih

theorem cell_concat (past : List (List String × (ν → ν))) (u : List String × (ν → ν))
    (t : List String) :
    cell zero (past ++ [u]) t = if u.1 = t then u.2 (cell zero past t) else cell zero past t := by
  unfold cell
  rw [List.filter_append, List.foldl_append]
  split
  · rename_i h
    simp [h]
  · rename_i h
    simp [h]

theorem cell_of_not_mem {history : List (List String × (ν → ν))} {t : List String}
    (h : t ∉ history.map Prod.fst) : cell zero history t = zero := by
  have hnone : history.filter (fun u => u.1 = t) = [] := by
    rw [List.filter_eq_nil_iff]
    intro u hu heq
    exact h (List.mem_map.mpr ⟨u, hu, by simpa using heq⟩)
  rw [cell, hnone]
  rfl

/-- Every tuple has a cell of its own in the vector, under its key. -/
theorem lookup_fill (labels : List String) (history : List (List String × (ν → ν)))
    (h : ∀ u ∈ history, ZeroFreeTuple u.1) (k : String) (x : ν) :
    (Vec.fill zero labels history).items.lookup k = some x ↔
      ∃ t ∈ history.map Prod.fst, key t = k ∧ cell zero history t = x := by
  induction history using List.reverseRecOn generalizing k x with
  | nil => exact iff_of_false (fun h => nomatch h) fun h => by simp at h
  | append_singleton past u ih =>
    have hpast : ∀ u ∈ past, ZeroFreeTuple u.1 := fun u hu => h u (List.mem_append_left _ hu)
    have hu : ZeroFreeTuple u.1 := h u (by simp)
    -- the item that `With` finds is the cell so far
    have hfound : ((Vec.fill zero labels past).items.lookup (key u.1)).getD zero =
        cell zero past u.1 := by
      cases hlookup : (Vec.fill zero labels past).items.lookup (key u.1) with
      | some y =>
        obtain ⟨t, ht, hkey, rfl⟩ := (ih hpast _ _).mp hlookup
        obtain ⟨u', hu', rfl⟩ := List.mem_map.mp ht
        rw [key_inj (hpast u' hu') hu hkey]
        rfl
      | none =>
        rw [cell_of_not_mem]
        · rfl
        · intro hmem
          have hsome := (ih hpast (key u.1) (cell zero past u.1)).mpr ⟨u.1, hmem, rfl, rfl⟩
          rw [hlookup] at hsome
          exact nomatch hsome
    rw [fill_concat, Vec.update, RefMap.lookup_insert_eq, hfound]
    simp only [List.map_append, List.map_cons, List.map_nil, List.mem_append, List.mem_singleton]
    split
    · -- the last call was under this key
      rename_i hk
      subst hk
      constructor
      · intro hx
        exact ⟨u.1, Or.inr rfl, rfl, by rw [cell_concat, if_pos rfl]; exact Option.some_inj.mp hx⟩
      · intro hx
        obtain ⟨t, ht, hkey, rfl⟩ := hx
        have htu : t = u.1 := by
          rcases ht with ht | ht
          · obtain ⟨u', hu', rfl⟩ := List.mem_map.mp ht
            exact key_inj (hpast u' hu') hu hkey
          · exact ht
        rw [htu, cell_concat, if_pos rfl]
    · rename_i hk
      rw [ih hpast]
      constructor
      · intro hx
        obtain ⟨t, ht, rfl, rfl⟩ := hx
        exact ⟨t, Or.inl ht, rfl, by rw [cell_concat, if_neg fun heq => hk (by rw [heq])]⟩
      · intro hx
        obtain ⟨t, ht, rfl, rfl⟩ := hx
        have htu : u.1 ≠ t := fun heq => hk (by rw [heq])
        rw [cell_concat, if_neg htu]
        exact ⟨t, ht.resolve_right fun heq => htu heq.symm, rfl, rfl⟩

theorem zeroFree_of_mem_stored {history : List (List String × (ν → ν))}
    (h : ∀ u ∈ history, ZeroFreeTuple u.1) {t : List String}
    (ht : t ∈ (history.map Prod.fst).dedup) : ZeroFreeTuple t := by
  obtain ⟨u, hu, rfl⟩ := List.mem_map.mp (List.mem_dedup.mp ht)
  exact h u hu

/-- The entries of the map are the cells under their keys. -/
theorem entries_fill_perm (labels : List String) (history : List (List String × (ν → ν)))
    (h : ∀ u ∈ history, ZeroFreeTuple u.1) :
    ((Vec.fill zero labels history).items.entries.map fun e => (e.1, e.2)).Perm
      ((stored zero history).map fun s => (key s.1, s.2)) := by
  refine (List.perm_ext_iff_of_nodup ?_ ?_).mpr ?_
  · refine (Vec.fill zero labels history).items.nodupKeys.nodup.map ?_
    intro e e' heq
    obtain ⟨hkey, hval⟩ := Prod.mk.inj heq
    exact Sigma.ext hkey (heq_of_eq hval)
  · rw [stored, List.map_map]
    refine List.Nodup.map_on ?_ (List.nodup_dedup _)
    intro t ht t' ht' heq
    exact key_inj (zeroFree_of_mem_stored h ht) (zeroFree_of_mem_stored h ht') (Prod.mk.inj heq).1
  · intro p
    have hlookup := lookup_fill zero labels history h p.1 p.2
    rw [← Option.mem_def, AList.mem_lookup_iff] at hlookup
    have hmem : p ∈ ((Vec.fill zero labels history).items.entries.map fun e => (e.1, e.2)) ↔
        (⟨p.1, p.2⟩ : (_ : String) × ν) ∈ (Vec.fill zero labels history).items.entries := by
      rw [List.mem_map]
      constructor
      · intro hp
        obtain ⟨e, he, rfl⟩ := hp
        exact he
      · exact fun hp => ⟨_, hp, rfl⟩
    rw [hmem, hlookup, stored, List.map_map]
    simp only [List.mem_map, List.mem_dedup, Function.comp_apply, Prod.ext_iff]

/-- `Each` goes through the tuples that were used, with their cells. -/
theorem each_fill_perm (labels : List String) (history : List (List String × (ν → ν)))
    (h : ∀ u ∈ history, ZeroFreeTuple u.1) :
    (Vec.fill zero labels history).each.Perm (stored zero history) := by
  have hparts : ((stored zero history).map fun s => (key s.1, s.2)).map
      (fun e => (parts e.1, e.2)) = stored zero history := by
    rw [stored, List.map_map, List.map_map]
    apply List.map_congr_left
    intro t ht
    have htuple := zeroFree_of_mem_stored h ht
    simp [parts_key t htuple.1 htuple.2]
  have hperm := (entries_fill_perm zero labels history h).map fun e => (parts e.1, e.2)
  rw [hparts] at hperm
  exact ((List.mergeSort_perm _ _).map _).trans hperm

end

/-! ## The text -/

/-- A line with its end, as it is written. -/
def asWritten (l : List Char) : String := String.ofList (l ++ ['\n'])

/-- What was written is whole lines, and they are read as these samples. -/
def ReadsAs (writes : Option (List String)) (samples : List Sample) : Prop :=
  ∃ lines : List (List Char), writes = some (lines.map asWritten) ∧ (∀ l ∈ lines, '\n' ∉ l) ∧
    (lines.filter isSample).mapM parseLine = some samples

theorem ReadsAs.parse {writes : Option (List String)} {samples : List Sample}
    (h : ReadsAs writes samples) :
    ∃ text, writes = some text ∧ PromText.parse (text.flatMap String.toList) = some samples := by
  obtain ⟨lines, hwrites, hlines, hsamples⟩ := h
  refine ⟨_, hwrites, ?_⟩
  have htext : (lines.map asWritten).flatMap String.toList = document lines := by
    rw [List.flatMap_map, document]
    simp [asWritten]
  rw [htext, parse_document lines hlines, hsamples]

theorem ReadsAs.append {writes writes' : List String} {samples samples' : List Sample}
    (h : ReadsAs (some writes) samples) (h' : ReadsAs (some writes') samples') :
    ReadsAs (some (writes ++ writes')) (samples ++ samples') := by
  obtain ⟨lines, hwrites, hlines, hsamples⟩ := h
  obtain ⟨lines', hwrites', hlines', hsamples'⟩ := h'
  refine ⟨lines ++ lines', ?_, List.forall_mem_append.mpr ⟨hlines, hlines'⟩, ?_⟩
  · rw [Option.some_inj.mp hwrites, Option.some_inj.mp hwrites', List.map_append]
  · rw [List.filter_append, List.mapM_append, hsamples, hsamples']
    rfl

theorem readsAs_rows (rows : List Row) (h : ∀ r ∈ rows, r.Clean) :
    ReadsAs (rows.mapM Row.write) (rows.map Row.sample) := by
  refine ⟨rows.map fun r => r.sample.line, ?_, ?_, ?_⟩
  · rw [List.map_map]
    exact List.mapM_option_eq_some_map _ _ rows fun r hr => Row.write_eq (h r hr)
  · exact List.forall_mem_map.mpr fun r hr => newline_not_mem_line (h r hr).valid
  · rw [List.filter_eq_self.mpr (List.forall_mem_map.mpr fun r hr => isSample_line (h r hr).valid),
      List.mapM_map]
    exact List.mapM_option_eq_some_map _ _ rows fun r hr => parseLine_line (h r hr).valid

variable {β : Type} [LinearOrder β]

/-- Comments are no samples. -/
theorem readsAs_helpAndType (e : MetricEntry β) (hname : isName e.name)
    (hhelp : '\n' ∉ e.help.toList) : ReadsAs (some (writeHelpAndType e)) [] := by
  have hname' := newline_not_mem_name hname
  -- the two comments, one at a time
  have htype : ReadsAs (some ["# TYPE " ++ e.name ++ " " ++ e.metric.type ++ "\n"]) [] := by
    refine ⟨[("# TYPE " ++ e.name ++ " " ++ e.metric.type).toList], ?_, ?_, ?_⟩
    · simp [asWritten, ← String.toList_inj]
    · have htype' : '\n' ∉ e.metric.type.toList := by cases e.metric <;> simp [MetricValue.type]
      simp [hname', htype']
    · simp [isSample]
  have hhelp' : ReadsAs (some ["# HELP " ++ e.name ++ " " ++ e.help ++ "\n"]) [] := by
    refine ⟨[("# HELP " ++ e.name ++ " " ++ e.help).toList], ?_, ?_, ?_⟩
    · simp [asWritten, ← String.toList_inj]
    · simp [hname', hhelp]
    · simp [isSample]
  unfold writeHelpAndType
  split
  · exact hhelp'.append htype
  · exact htype

theorem readsAs_entry (num : NumberText β) (e : MetricEntry β) (hname : isName e.name)
    (hhelp : '\n' ∉ e.help.toList) (hrows : ∀ r ∈ e.rows num, r.Clean) :
    ReadsAs (writeEntry num e) ((e.rows num).map Row.sample) := by
  obtain ⟨lines, hlines, hrest⟩ := readsAs_rows (e.rows num) hrows
  rw [writeEntry, hlines, Option.map_some]
  exact (readsAs_helpAndType e hname hhelp).append ⟨lines, rfl, hrest⟩

theorem readsAs_entries (num : NumberText β) (entries : List (MetricEntry β))
    (h : ∀ e ∈ entries, ReadsAs (writeEntry num e) ((e.rows num).map Row.sample)) :
    ReadsAs ((entries.mapM (writeEntry num)).map List.flatten)
      (entries.flatMap fun e => (e.rows num).map Row.sample) := by
  induction entries with
  | nil => exact ⟨[], rfl, by simp, rfl⟩
  | cons e entries ih =>
    obtain ⟨he, hentries⟩ := List.forall_mem_cons.mp h
    obtain ⟨lines, hlines, hline⟩ := he
    obtain ⟨lines', hlines', hline'⟩ := ih hentries
    obtain ⟨written, hwritten, hflat⟩ := Option.map_eq_some_iff.mp hlines'
    rw [List.mapM_cons, hlines, hwritten, List.flatMap_cons]
    refine ReadsAs.append ⟨lines, rfl, hline⟩ ⟨lines', ?_, hline'⟩
    rw [← hflat]

/-! ## What was recorded -/

/-- What was done with a registered metric. -/
inductive Use (β : Type) [LinearOrder β] where
  | counter (value : Nat)
  | counterVec (labels : List String) (history : List (List String × (Nat → Nat)))
  | gauge (value : Int)
  | gaugeVec (labels : List String) (history : List (List String × (Int → Int)))
  | histogram (h : Histogram β)
  | histogramVec (labels : List String) (buckets : List β)
      (history : List (List String × (Histogram β → Histogram β)))

/-- A registered metric and its use. -/
structure Recorded (β : Type) [LinearOrder β] where
  name : String
  help : String
  use : Use β

/-- The entry of the registry. -/
def Recorded.entry (r : Recorded β) : MetricEntry β :=
  { name := r.name, help := r.help
    metric :=
      match r.use with
      | .counter value => .counter value
      | .counterVec labels history => .counterVec (Vec.fill 0 labels history)
      | .gauge value => .gauge value
      | .gaugeVec labels history => .gaugeVec (Vec.fill 0 labels history)
      | .histogram h => .histogram h
      | .histogramVec labels buckets history =>
        .histogramVec (Vec.fill (newHistogram buckets) labels history) }

/-- What should be read: the cells of the tuples. -/
def Recorded.rows (num : NumberText β) (r : Recorded β) : List Row :=
  match r.use with
  | .counter value =>
    [{ name := r.name, labelNames := [], labelValues := [], value := fmtUint64 value }]
  | .counterVec labels history => (stored 0 history).map fun s =>
    { name := r.name, labelNames := labels, labelValues := s.1, value := fmtUint64 s.2 }
  | .gauge value =>
    [{ name := r.name, labelNames := [], labelValues := [], value := fmtInt64 value }]
  | .gaugeVec labels history => (stored 0 history).map fun s =>
    { name := r.name, labelNames := labels, labelValues := s.1, value := fmtInt64 s.2 }
  | .histogram h => histogramRows num r.name [] [] h
  | .histogramVec labels buckets history =>
    (stored (newHistogram buckets) history).flatMap fun s =>
      histogramRows num r.name labels s.1 s.2

/-- Tuples that fit the labels and have no line end and no zero byte in them. -/
structure CleanUse {ν : Type} (labels : List String) (history : List (List String × (ν → ν))) :
    Prop where
  labeled : labels ≠ []
  names : ∀ n ∈ labels, isName n
  length : ∀ u ∈ history, u.1.length = labels.length
  oneLine : ∀ u ∈ history, ∀ v ∈ u.1, '\n' ∉ v.toList
  zeroFree : ∀ u ∈ history, ∀ v ∈ u.1, '\x00' ∉ v.toList

/-- The condition on a vector's use. -/
def Use.Clean : Use β → Prop
  | .counterVec labels history => CleanUse labels history
  | .gaugeVec labels history => CleanUse labels history
  | .histogramVec labels _ history => CleanUse labels history
  | _ => True

theorem CleanUse.zeroFreeTuple {ν : Type} {labels : List String}
    {history : List (List String × (ν → ν))} (h : CleanUse labels history) :
    ∀ u ∈ history, ZeroFreeTuple u.1 := by
  intro u hu
  refine ⟨fun hnil => h.labeled ?_, h.zeroFree u hu⟩
  rw [← List.length_eq_zero_iff, ← h.length u hu, hnil]
  rfl

/-- The registry writes the rows that were recorded, in some order. -/
theorem rows_entry_perm (num : NumberText β) (r : Recorded β) (h : r.use.Clean) :
    (r.entry.rows num).Perm (r.rows num) := by
  unfold MetricEntry.rows Recorded.entry Recorded.rows
  cases huse : r.use with
  | counter value => exact .refl _
  | gauge value => exact .refl _
  | histogram h => exact .refl _
  | counterVec labels history =>
    rw [huse] at h
    simp only [labels_fill]
    exact (each_fill_perm 0 labels history h.zeroFreeTuple).map _
  | gaugeVec labels history =>
    rw [huse] at h
    simp only [labels_fill]
    exact (each_fill_perm 0 labels history h.zeroFreeTuple).map _
  | histogramVec labels buckets history =>
    rw [huse] at h
    simp only [labels_fill]
    exact (each_fill_perm (newHistogram buckets) labels history h.zeroFreeTuple).flatMap_right _

/-! ## Clean rows -/

theorem isToken_iff (cs : List Char) : isToken cs ↔ cs ≠ [] ∧ ∀ c ∈ cs, c ≠ ' ' ∧ c ≠ '\n' := by
  simp [isToken]

theorem isToken_fmtUint64 (n : Nat) : isToken (fmtUint64 n).toList := by
  rw [isToken_iff, fmtUint64, Nat.repr_eq_ofList_toDigits, String.toList_ofList]
  refine ⟨Nat.toDigits_ne_nil, fun c hc => ?_⟩
  have hdigit := Nat.isDigit_of_mem_toDigits (by decide) (by decide) hc
  constructor
  · intro heq
    exact absurd (heq ▸ hdigit) (by decide)
  · intro heq
    exact absurd (heq ▸ hdigit) (by decide)

theorem toList_fmtInt64_negSucc (n : Nat) :
    (fmtInt64 (.negSucc n)).toList = '-' :: (fmtUint64 (n + 1)).toList := by
  simp [fmtInt64, fmtUint64, Int.repr]

theorem isToken_fmtInt64 (z : Int) : isToken (fmtInt64 z).toList := by
  cases z with
  | ofNat n => exact isToken_fmtUint64 n
  | negSucc n =>
    have hdigits := (isToken_iff _).mp (isToken_fmtUint64 (n + 1))
    rw [isToken_iff, toList_fmtInt64_negSucc]
    exact ⟨List.cons_ne_nil _ _, List.forall_mem_cons.mpr ⟨by decide, hdigits.2⟩⟩

theorem fmtUint64_injective : fmtUint64.Injective := by
  intro m n h
  rw [fmtUint64, fmtUint64, Nat.repr_eq_ofList_toDigits, Nat.repr_eq_ofList_toDigits,
    String.ofList_inj] at h
  rw [← @Nat.ofDigitChars_ten_toDigits m, h, Nat.ofDigitChars_ten_toDigits]

/-- A number that is not negative has no sign. -/
theorem fmtInt64_ofNat_ne (m n : Nat) : fmtInt64 (.ofNat m) ≠ fmtInt64 (.negSucc n) := by
  intro h
  have hsign : '-' ∈ (fmtUint64 m).toList := by
    rw [show (fmtUint64 m).toList = _ from congrArg String.toList h, toList_fmtInt64_negSucc]
    exact List.mem_cons_self
  rw [fmtUint64, Nat.repr_eq_ofList_toDigits, String.toList_ofList] at hsign
  exact absurd (Nat.isDigit_of_mem_toDigits (by decide) (by decide) hsign) (by decide)

theorem fmtInt64_injective : fmtInt64.Injective := by
  intro y z h
  cases y with
  | ofNat m =>
    cases z with
    | ofNat n => exact congrArg Int.ofNat (fmtUint64_injective h)
    | negSucc n => exact absurd h (fmtInt64_ofNat_ne m n)
  | negSucc m =>
    cases z with
    | ofNat n => exact absurd h.symm (fmtInt64_ofNat_ne n m)
    | negSucc n =>
      have htext := congrArg String.toList h
      rw [toList_fmtInt64_negSucc, toList_fmtInt64_negSucc, List.cons_inj_right,
        String.toList_inj] at htext
      have heq := fmtUint64_injective htext
      rw [show m = n by omega]

theorem isName_append {s suffix : String} (h : isName s) (hsuffix : suffix.toList.all isNameChar) :
    isName (s ++ suffix) := by
  rw [isName_iff] at h ⊢
  rw [String.toList_append]
  exact ⟨List.append_ne_nil_of_left_ne_nil h.1 _,
    List.forall_mem_append.mpr ⟨h.2, List.all_eq_true.mp hsuffix⟩⟩

theorem Row.clean_of {r : Row} (hname : isName r.name) (hnames : ∀ n ∈ r.labelNames, isName n)
    (hlen : r.labelValues.length = r.labelNames.length)
    (hlines : ∀ v ∈ r.labelValues, '\n' ∉ v.toList) (hvalue : isToken r.value.toList) : r.Clean :=
  ⟨⟨hname, fun l hl => hnames l.1 (List.of_mem_zip hl).1, hvalue⟩, hlen, hlines⟩

/-- Formatted floats have no blanks and no line ends. -/
def NumberText.Tokens (num : NumberText β) : Prop := ∀ x, isToken (num.fmtFloat x).toList

theorem histogramRows_clean {num : NumberText β} (hnum : num.Tokens) {name : String}
    (hname : isName name) {labels values : List String} (hnames : ∀ n ∈ labels, isName n)
    (hlen : values.length = labels.length) (hlines : ∀ v ∈ values, '\n' ∉ v.toList)
    (h : Histogram β) : ∀ r ∈ histogramRows num name labels values h, r.Clean := by
  -- the rows of the buckets have one label more
  have hbucket : ∀ (le : String) (count : Nat), '\n' ∉ le.toList →
      Row.Clean { name := name ++ "_bucket", labelNames := labels ++ ["le"]
                  labelValues := values ++ [le], value := fmtUint64 count } := by
    intro le count hle
    refine Row.clean_of (isName_append hname (by decide)) ?_ ?_ ?_ (isToken_fmtUint64 count)
    · exact List.forall_mem_append.mpr ⟨hnames, by simp [isName, isNameChar]⟩
    · simp [hlen]
    · exact List.forall_mem_append.mpr ⟨hlines, by simpa using hle⟩
  have hfloat : ∀ x, '\n' ∉ (num.fmtFloat x).toList := fun x hmem =>
    (((isToken_iff _).mp (hnum x)).2 '\n' hmem).2 rfl
  unfold histogramRows
  refine List.forall_mem_append.mpr ⟨?_, ?_⟩
  · exact List.forall_mem_map.mpr fun b _ => hbucket _ b.2 (hfloat b.1)
  · simp only [List.forall_mem_cons, List.not_mem_nil, false_implies, implies_true, and_true]
    refine ⟨hbucket "+Inf" _ (by decide), ?_, ?_⟩
    · exact Row.clean_of (isName_append hname (by decide)) hnames hlen hlines (hnum _)
    · exact Row.clean_of (isName_append hname (by decide)) hnames hlen hlines
        (isToken_fmtUint64 _)

/-- A metric that was registered with names of the format and a help text of one
    line, and used with clean tuples. -/
structure Recorded.Clean (r : Recorded β) : Prop where
  name : isName r.name
  help : '\n' ∉ r.help.toList
  use : r.use.Clean

/-- A tuple of the stored series is one of those that were used. -/
theorem CleanUse.of_mem_stored {ν : Type} {zero : ν} {labels : List String}
    {history : List (List String × (ν → ν))} (h : CleanUse labels history)
    {s : List String × ν} (hs : s ∈ stored zero history) :
    s.1.length = labels.length ∧ ∀ v ∈ s.1, '\n' ∉ v.toList := by
  obtain ⟨t, ht, rfl⟩ := List.mem_map.mp hs
  obtain ⟨u, hu, rfl⟩ := List.mem_map.mp (List.mem_dedup.mp ht)
  exact ⟨h.length u hu, h.oneLine u hu⟩

theorem Recorded.rows_clean {num : NumberText β} (hnum : num.Tokens) {r : Recorded β}
    (h : r.Clean) : ∀ row ∈ r.rows num, row.Clean := by
  have huse := h.use
  unfold Recorded.rows
  cases hcase : r.use with
  | counter value =>
    refine List.forall_mem_singleton.mpr ?_
    exact Row.clean_of h.name (by simp) rfl (by simp) (isToken_fmtUint64 value)
  | gauge value =>
    refine List.forall_mem_singleton.mpr ?_
    exact Row.clean_of h.name (by simp) rfl (by simp) (isToken_fmtInt64 value)
  | histogram hist => exact histogramRows_clean hnum h.name (by simp) rfl (by simp) hist
  | counterVec labels history =>
    rw [hcase] at huse
    refine List.forall_mem_map.mpr fun s hs => ?_
    obtain ⟨hlen, hlines⟩ := huse.of_mem_stored hs
    exact Row.clean_of h.name huse.names hlen hlines (isToken_fmtUint64 s.2)
  | gaugeVec labels history =>
    rw [hcase] at huse
    refine List.forall_mem_map.mpr fun s hs => ?_
    obtain ⟨hlen, hlines⟩ := huse.of_mem_stored hs
    exact Row.clean_of h.name huse.names hlen hlines (isToken_fmtInt64 s.2)
  | histogramVec labels buckets history =>
    rw [hcase] at huse
    intro row hrow
    obtain ⟨s, hs, hrow⟩ := List.mem_flatMap.mp hrow
    obtain ⟨hlen, hlines⟩ := huse.of_mem_stored hs
    exact histogramRows_clean hnum h.name huse.names hlen hlines s.2 row hrow

/-! ## Reading back -/

/-! ## Line ends and zero bytes -/

/-- Natural numbers in place of floats. -/
def plainText : NumberText Nat := { fmtFloat := Nat.repr, seconds := Int.toNat }

/-- Dial failures of a backend, by pool and backend. -/
def dialFailuresOf (history : List (List String × (Nat → Nat))) : Recorded Nat :=
  { name := "lb_dial_failures_total", help := "Total dial failures"
    use := .counterVec ["listener", "pool", "backend"] history }

/-- Series with quotes and backslashes in their labels, a gauge and a histogram. -/
def quotedMetrics : List (Recorded Nat) :=
  [dialFailuresOf [(["w\"eb", "a\\pi", "10.0.0.1:80"], (· + 1)), (["w", "a", "b"], (· + 2)),
      (["w\"eb", "a\\pi", "10.0.0.1:80"], (· + 1))],
    { name := "lb_backend_healthy", help := ""
      use := .gaugeVec ["pool", "backend"] [(["api", "[::1]:80"], (· - 1))] },
    { name := "lb_request_duration_seconds", help := ""
      use := .histogramVec ["listener", "pool", "backend"] [5, 1]
        [(["web", "api", "\\\"\x7d"], fun h => h.observe (fun x => x) 3)] }]

/-- The conditions on a use, in one test. -/
theorem CleanUse.of_tuples {ν : Type} {labels : List String}
    {history : List (List String × (ν → ν))}
    (h : labels ≠ [] ∧ (∀ n ∈ labels, isName n) ∧ ∀ t ∈ history.map Prod.fst,
      t.length = labels.length ∧ ∀ v ∈ t, '\n' ∉ v.toList ∧ '\x00' ∉ v.toList) :
    CleanUse labels history := by
  obtain ⟨hne, hnames, htuples⟩ := h
  have hused : ∀ u ∈ history, u.1 ∈ history.map Prod.fst := fun u hu => List.mem_map_of_mem hu
  exact ⟨hne, hnames, fun u hu => (htuples _ (hused u hu)).1,
    fun u hu v hv => ((htuples _ (hused u hu)).2 v hv).1,
    fun u hu v hv => ((htuples _ (hused u hu)).2 v hv).2⟩

end HootLb.Metrics
