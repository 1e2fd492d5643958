import HootLb.ForStd.RefMap
import HootLb.Native.Restart
import HootLb.Spec.PickComplete
import HootLb.Spec.StoreView

/-!
# The descriptor table of a handoff

The parent writes the names of its listeners, joined by colons and commas, into the
environment; the child splits it again. Listener names may themselves contain colons
and commas, and may be those of the internal listeners. This module determines the
names with which every listener reaches the child under its own name.

## Key results

- `reconstructListeners_handoff`: what the child reads
- `filterMap_readPair_iff`: every listener is read back exactly when no name contains a
  separator
- `handoff_exact_iff`: the same with the child's map of inherited listeners
-/

namespace HootLb.Restart

open Config Balancer

/-! ## Numbers -/

theorem itoa_toList (n : Nat) : (itoa n).toList = Nat.toDigits 10 n := Nat.toList_repr

theorem isDigit_of_mem_itoa (n : Nat) (c : Char) (h : c ∈ (itoa n).toList) : c.isDigit := by
  rw [itoa_toList] at h
  exact Nat.isDigit_of_mem_toDigits (by omega) (by omega) h

/-- Digits begin with no sign. -/
theorem cutSign_of_digits (cs : List Char) (h : ∀ c ∈ cs, c.isDigit) :
    cutSign cs = (false, cs) := by
  unfold cutSign
  split
  · exact absurd (h '-' List.mem_cons_self) (by decide)
  · exact absurd (h '+' List.mem_cons_self) (by decide)
  · rfl

/-- `Atoi` reads back what `Itoa` wrote. -/
theorem atoi_itoa (n : Nat) (h : n < 2 ^ 63) : atoi (itoa n) = some (n : Int) := by
  have hgo : goInt n = n := goInt_of_range n (by omega) (by omega)
  have hdigits : ∀ c ∈ Nat.toDigits 10 n, c.isDigit := by
    simpa only [itoa_toList] using isDigit_of_mem_itoa n
  have hall : (Nat.toDigits 10 n).all Char.isDigit := List.all_eq_true.mpr hdigits
  unfold atoi
  rw [itoa_toList, cutSign_of_digits _ hdigits]
  simp [hall, hgo]

/-! ## Separators -/

theorem split_intercalate (pieces : List String) (hne : pieces ≠ [])
    (h : ∀ s ∈ pieces, ',' ∉ s.toList) : split (",".intercalate pieces) ',' = pieces :=
  List.map_ofList_splitOn_intercalate "," ',' (by simp) pieces hne h

theorem not_mem_of_mem_split (s piece : String) (sep : Char) (h : piece ∈ split s sep) :
    sep ∉ piece.toList := by
  obtain ⟨cs, hcs, rfl⟩ := List.mem_map.mp h
  rw [String.toList_ofList]
  exact List.not_mem_of_mem_splitOn sep s.toList cs hcs

/-- Cutting at the first separator. -/
theorem splitN2_append (name rest : String) (h : ':' ∉ name.toList) :
    splitN2 (name ++ ":" ++ rest) ':' = [name, rest] := by
  have hname : ∀ c ∈ name.toList, decide (c ≠ ':') = true := by
    intro c hc
    simpa using fun heq : c = ':' => h (heq ▸ hc)
  have htext : (name ++ ":" ++ rest).toList = name.toList ++ ':' :: rest.toList := by simp
  unfold splitN2
  rw [htext, List.dropWhile_append_of_pos hname, List.takeWhile_append_of_pos hname]
  simp

/-! ## The pairs -/

theorem newFile_natCast (n : Nat) : newFile n = some n := by simp [newFile]

/-- A pair whose name has no colon is read back. -/
theorem readPair_pair (name : String) (i : Nat) (hname : ':' ∉ name.toList) (hi : i + 3 < 2 ^ 63) :
    readPair (name ++ ":" ++ itoa i) = some { name, protocol := "", file := 3 + i } := by
  have hfd : goInt ((i : Int) + 3) = ((3 + i : Nat) : Int) := by
    rw [goInt_of_range _ (by omega) (by omega)]
    omega
  unfold readPair
  rw [splitN2_append name _ hname]
  simp only [atoi_itoa i (by omega), hfd, newFile_natCast, Option.map_some]

/-- The name in a pair ends at its first colon. -/
theorem readPair_name (pair : String) (d : ListenerDesc Nat) (h : readPair pair = some d) :
    ':' ∉ d.name.toList ∧ ∀ c ∈ d.name.toList, c ∈ pair.toList := by
  unfold readPair splitN2 at h
  split at h
  · rename_i name idx hsplit
    split at hsplit
    · exact nomatch hsplit
    · obtain ⟨rfl, -⟩ : _ = name ∧ _ = idx := by simpa using hsplit
      split at h
      · exact nomatch h
      · obtain ⟨file, -, rfl⟩ := Option.map_eq_some_iff.mp h
        simp only [String.toList_ofList]
        exact ⟨fun hmem => by simpa using List.mem_takeWhile_imp hmem,
          fun c hc => (List.takeWhile_sublist _).subset hc⟩
  · exact nomatch h

/-- The descriptors of a handoff as they should be: one for each listener, numbered in
    the order of the passed files. -/
def expectedDescs (sorted : List (ListenerDesc Socket)) : List (ListenerDesc Nat) :=
  sorted.zipIdx.map fun (l, i) => { name := l.name, protocol := "", file := 3 + i }

/-- A name that separates nothing. -/
def PlainName (name : String) : Prop := ':' ∉ name.toList ∧ ',' ∉ name.toList

instance (name : String) : Decidable (PlainName name) := inferInstanceAs (Decidable (_ ∧ _))

theorem not_mem_comma_fdPairs (sorted : List (ListenerDesc Socket))
    (h : ∀ l ∈ sorted, ',' ∉ l.name.toList) (pair : String) (hpair : pair ∈ fdPairs sorted) :
    ',' ∉ pair.toList := by
  obtain ⟨⟨l, i⟩, hl, rfl⟩ := List.mem_map.mp hpair
  have hname := h l (List.fst_mem_of_mem_zipIdx hl)
  have hdigits : ',' ∉ (itoa i).toList :=
    fun hmem => absurd (isDigit_of_mem_itoa i ',' hmem) (by decide)
  simp [hname, hdigits]

/-- Every listener is read back exactly when no name contains a separator. -/
theorem filterMap_readPair_iff (sorted : List (ListenerDesc Socket)) (hne : sorted ≠ [])
    (hlen : sorted.length + 3 < 2 ^ 63) :
    (split (",".intercalate (fdPairs sorted)) ',').filterMap readPair = expectedDescs sorted ↔
      ∀ l ∈ sorted, PlainName l.name := by
  constructor
  · intro h l hl
    -- what is read has a plain name
    obtain ⟨i, hi⟩ := List.mem_iff_getElem?.mp hl
    have hmem : (⟨l.name, "", 3 + i⟩ : ListenerDesc Nat) ∈ expectedDescs sorted :=
      List.mem_map.mpr ⟨(l, i), List.mem_zipIdx_iff_getElem?.mpr hi, rfl⟩
    rw [← h] at hmem
    obtain ⟨pair, hpair, hread⟩ := List.mem_filterMap.mp hmem
    obtain ⟨hcolon, hsub⟩ := readPair_name pair _ hread
    exact ⟨hcolon, fun hcomma => not_mem_of_mem_split _ pair ',' hpair (hsub _ hcomma)⟩
  · intro h
    rw [split_intercalate _ (by simpa [fdPairs] using hne)
      (not_mem_comma_fdPairs sorted fun l hl => (h l hl).2)]
    unfold fdPairs expectedDescs
    rw [List.filterMap_map, ← List.filterMap_eq_map]
    refine List.filterMap_congr fun ⟨l, i⟩ hl => ?_
    have hi : i < sorted.length := by
      have := List.mem_zipIdx hl
      omega
    exact readPair_pair l.name i (h l (List.fst_mem_of_mem_zipIdx hl)).1 (by omega)

/-! ## The child's view -/

theorem fdMap_ne_empty (sorted : List (ListenerDesc Socket)) (hne : sorted ≠ []) :
    ",".intercalate (fdPairs sorted) ≠ "" := by
  obtain ⟨l, rest, rfl⟩ := List.exists_cons_of_ne_nil hne
  intro h
  have htext := congrArg String.toList h
  rw [String.toList_intercalate] at htext
  -- the table begins with the first pair, which has a colon
  unfold fdPairs at htext
  rw [List.zipIdx_cons, List.map_cons, List.map_cons] at htext
  cases hrest : (List.map _ (rest.zipIdx (0 + 1))).map String.toList with
  | nil =>
    rw [hrest] at htext
    simp at htext
  | cons b bs =>
    rw [hrest] at htext
    simp at htext

/-- The command for some listeners. -/
theorem handoffCmd_ok (environ : GoMap String) (configPath : String)
    (sorted : List (ListenerDesc Socket)) (cmd : Cmd)
    (h : handoffCmd environ configPath sorted = .ok cmd) :
    sorted ≠ [] ∧ cmd.extraFiles = (sorted.map fun l => .listener l.file) ++ [.readyW] ∧
      cmd.getenv envHandoff = "1" ∧
      cmd.getenv envFDMap = ",".intercalate (fdPairs sorted) ∧
      cmd.getenv envReadyFD = itoa (3 + sorted.length) := by
  unfold handoffCmd at h
  split at h
  · exact nomatch h
  · rename_i hne
    cases h
    refine ⟨by simpa using hne, rfl, ?_, ?_, ?_⟩
    · simp [Cmd.getenv, envHandoff, envFDMap, envConfig, envReadyFD]
    · simp [Cmd.getenv, envFDMap, envConfig, envReadyFD]
    · simp [Cmd.getenv, envReadyFD, Nat.add_comm]

section Handoff

variable {environ : GoMap String} {configPath : String} {sorted : List (ListenerDesc Socket)}
  {cmd : Cmd}

/-- What the child of a handoff reads. -/
theorem reconstructListeners_handoff (h : handoffCmd environ configPath sorted = .ok cmd)
    (hlen : sorted.length + 3 < 2 ^ 63) :
    reconstructListeners cmd.getenv =
      ((split (",".intercalate (fdPairs sorted)) ',').filterMap readPair,
        some (3 + sorted.length)) := by
  obtain ⟨hne, -, hhandoff, hmap, hready⟩ := handoffCmd_ok environ configPath sorted cmd h
  unfold reconstructListeners
  rw [hhandoff, hmap, hready, atoi_itoa _ (by omega)]
  simp only [fdMap_ne_empty sorted hne, ne_eq, not_true_eq_false, if_false, newFile_natCast]

/-- The files arrive in the order of the listeners, the pipe behind them. -/
theorem descriptor_handoff (h : handoffCmd environ configPath sorted = .ok cmd) :
    (∀ i l, sorted[i]? = some l → cmd.descriptor (3 + i) = some (.listener l.file)) ∧
      cmd.descriptor (3 + sorted.length) = some .readyW := by
  obtain ⟨-, hfiles, -⟩ := handoffCmd_ok environ configPath sorted cmd h
  unfold Cmd.descriptor
  rw [hfiles]
  constructor
  · intro i l hl
    obtain ⟨hi, rfl⟩ := List.getElem?_eq_some_iff.mp hl
    simp [List.getElem?_append_left, hi]
  · simp

/-- The child finds every listener under its name exactly when the names differ. -/
theorem inheritedMap_expected_iff :
    (∀ i l, sorted[i]? = some l →
        ((inheritedMap (expectedDescs sorted)).lookup l.name).map (·.file) = some (3 + i)) ↔
      (sorted.map (·.name)).Nodup := by
  have hnames : (expectedDescs sorted).map (·.name) = sorted.map (·.name) := by
    unfold expectedDescs
    rw [List.map_map]
    conv_rhs => rw [← List.zipIdx_map_fst 0 sorted, List.map_map]
    rfl
  constructor
  · intro h
    -- two positions of one name would have one number
    rw [List.nodup_iff_getElem?_ne_getElem?]
    intro i j hij hj heq
    rw [List.length_map] at hj
    have hi : i < sorted.length := by omega
    rw [List.getElem?_map, List.getElem?_map, List.getElem?_eq_getElem hi,
      List.getElem?_eq_getElem hj, Option.map_some, Option.map_some, Option.some.injEq] at heq
    have hfi := h i _ (List.getElem?_eq_getElem hi)
    have hfj := h j _ (List.getElem?_eq_getElem hj)
    rw [heq, hfj, Option.some.injEq] at hfi
    omega
  · intro hnd i l hl
    have hmem : (⟨l.name, "", 3 + i⟩ : ListenerDesc Nat) ∈ expectedDescs sorted :=
      List.mem_map.mpr ⟨(l, i), List.mem_zipIdx_iff_getElem?.mpr hl, rfl⟩
    have hlookup := RefMap.lookup_foldl_insert_of_mem (·.name) (expectedDescs sorted)
      (by rw [hnames]; exact hnd) _ hmem
    unfold inheritedMap
    rw [hlookup]
    rfl

end Handoff

/-! ## Handing over the listeners of a configuration -/

/-- The listeners of a running process whose files could be duplicated: some of those it
    registers for itself and some of the configured ones. -/
structure LiveListeners (cfg : Config) (internal proxies : List (ListenerDesc Socket)) : Prop where
  internal : (internal.map fun l => (l.name, l.protocol)).Sublist (internalListeners cfg)
  proxies : (proxies.map fun l => (l.name, l.protocol)).Sublist (proxyListeners cfg)

/-- What the loop of `triggerRestart` keeps is in the order of the registry. -/
private theorem descs_sublist (dup : Nat → Bool) (refs : List ListenerRef) (n : Nat) :
    (((refs.zipIdx n).filterMap fun (l, i) =>
        if l.isOpen && dup i then
          some ({ name := l.name, protocol := l.protocol, file := l.socket } : ListenerDesc Socket)
        else none).map fun l => (l.name, l.protocol)).Sublist
      (refs.map fun l => (l.name, l.protocol)) := by
  induction refs generalizing n with
  | nil => simp
  | cons l rest ih =>
    rw [List.zipIdx_cons, List.filterMap_cons, List.map_cons]
    dsimp only
    split
    · exact (ih (n + 1)).cons _
    · rename_i d hd
      split at hd
      · cases hd
        exact (ih (n + 1)).cons_cons _
      · exact nomatch hd

/-- `triggerRestart` gathers live listeners. -/
theorem Process.descs_live (cfg : Config) (p : Process) (dup : Nat → Bool)
    (h : (p.currentListeners.map fun l => (l.name, l.protocol)) =
      internalListeners cfg ++ proxyListeners cfg) :
    ∃ internal proxies, p.descs dup = internal ++ proxies ∧
      LiveListeners cfg internal proxies := by
  have hsub : ((p.descs dup).map fun l => (l.name, l.protocol)).Sublist
      (internalListeners cfg ++ proxyListeners cfg) := by
    rw [← h]
    exact descs_sublist dup p.currentListeners 0
  obtain ⟨internal, proxies, hsplit, hinternal, hproxies⟩ := List.sublist_append_iff.mp hsub
  obtain ⟨ds, ds', hds, rfl, rfl⟩ := List.map_eq_append_iff.mp hsplit
  exact ⟨ds, ds', hds, hinternal, hproxies⟩

/-- Every listener reaches the child as one descriptor, with its name and the number of
    its own socket, and is found there by its name; the readiness pipe comes last. -/
structure HandoffExact (sorted : List (ListenerDesc Socket)) (cmd : Cmd) : Prop where
  descs : (reconstructListeners cmd.getenv).1 = expectedDescs sorted
  sockets : ∀ i l, sorted[i]? = some l → cmd.descriptor (3 + i) = some (.listener l.file)
  ready : (reconstructListeners cmd.getenv).2 = some (3 + sorted.length) ∧
    cmd.descriptor (3 + sorted.length) = some .readyW
  inherited : ∀ i l, sorted[i]? = some l →
    ((inheritedMap (reconstructListeners cmd.getenv).1).lookup l.name).map (·.file) = some (3 + i)

theorem handoffExact_iff_names {environ : GoMap String} {configPath : String}
    {sorted : List (ListenerDesc Socket)} {cmd : Cmd}
    (h : handoffCmd environ configPath sorted = .ok cmd) (hlen : sorted.length + 3 < 2 ^ 63) :
    HandoffExact sorted cmd ↔
      (∀ l ∈ sorted, PlainName l.name) ∧ (sorted.map (·.name)).Nodup := by
  obtain ⟨hne, -⟩ := handoffCmd_ok environ configPath sorted cmd h
  obtain ⟨hsockets, hready⟩ := descriptor_handoff h
  have hread := reconstructListeners_handoff h hlen
  rw [← filterMap_readPair_iff sorted hne hlen, ← inheritedMap_expected_iff]
  constructor
  · intro hex
    have hdescs := hex.descs
    have hinherited := hex.inherited
    rw [hdescs] at hinherited
    rw [hread] at hdescs
    exact ⟨hdescs, hinherited⟩
  · rintro ⟨hdescs, hinherited⟩
    have hdescs : (reconstructListeners cmd.getenv).1 = expectedDescs sorted := by
      rw [hread]
      exact hdescs
    exact ⟨hdescs, hsockets, ⟨by rw [hread], hready⟩, by rw [hdescs]; exact hinherited⟩

namespace LiveListeners

variable {cfg : Config} {internal proxies : List (ListenerDesc Socket)}

theorem internal_names (h : LiveListeners cfg internal proxies) :
    (internal.map (·.name)).Sublist ["_metrics", "_admin"] := by
  have hnames : ((internalListeners cfg).map Prod.fst).Sublist ["_metrics", "_admin"] := by
    unfold internalListeners
    split <;> split <;> decide
  have hsub := h.internal.map Prod.fst
  rw [List.map_map] at hsub
  exact hsub.trans hnames

theorem proxy_names_nodup (h : LiveListeners cfg internal proxies) {getenv : String → String}
    {tags : BuildTags} (hacc : Accepted getenv tags cfg) : (proxies.map (·.name)).Nodup := by
  have hsub := h.proxies.map Prod.fst
  unfold proxyListeners at hsub
  rw [List.map_map, List.map_map] at hsub
  exact hacc.listener_names_nodup.sublist (hsub.trans (List.filter_sublist.map _))

end LiveListeners

/-- The listeners of an accepted configuration are handed over exactly when no live
    configured listener has a separator in its name or the name of a live internal one. -/
theorem handoff_exact_iff {getenv : String → String} {tags : BuildTags} (cfg : Config)
    (hacc : Accepted getenv tags cfg) (internal proxies sorted : List (ListenerDesc Socket))
    (hlive : LiveListeners cfg internal proxies)
    (hsorted : SortedByName sorted (internal ++ proxies)) (hlen : sorted.length + 3 < 2 ^ 63)
    (environ : GoMap String) (configPath : String) (cmd : Cmd)
    (hcmd : handoffCmd environ configPath sorted = .ok cmd) :
    HandoffExact sorted cmd ↔
      ∀ l ∈ proxies, PlainName l.name ∧ l.name ∉ internal.map (·.name) := by
  have hplain : ∀ l ∈ internal, PlainName l.name := by
    intro l hl
    have hmem := hlive.internal_names.subset (List.mem_map_of_mem hl)
    simp only [List.mem_cons, List.not_mem_nil, or_false] at hmem
    rcases hmem with hname | hname <;> rw [hname] <;> decide
  have hinternal : (internal.map (·.name)).Nodup :=
    List.Nodup.sublist hlive.internal_names (by decide)
  have hproxies := hlive.proxy_names_nodup hacc
  rw [handoffExact_iff_names hcmd hlen, (hsorted.1.map (·.name)).nodup_iff, List.map_append,
    List.nodup_append]
  constructor
  · rintro ⟨hnames, -, -, hdisjoint⟩ l hl
    refine ⟨hnames l (hsorted.1.mem_iff.mpr (List.mem_append_right _ hl)), fun hmem => ?_⟩
    exact hdisjoint _ hmem _ (List.mem_map_of_mem hl) rfl
  · intro h
    refine ⟨fun l hl => ?_, hinternal, hproxies, ?_⟩
    · rcases List.mem_append.mp (hsorted.1.mem_iff.mp hl) with hl | hl
      · exact hplain l hl
      · exact (h l hl).1
    · intro name hname name' hname' heq
      obtain ⟨l, hl, rfl⟩ := List.mem_map.mp hname'
      exact (h l hl).2 (heq ▸ hname)

/-- An admin listener and an HTTP listener are handed over. -/
theorem handoff_exact_iff_plain :
    ∃ cmd, handoffCmd ∅ "lb.yaml" [⟨"_admin", "http", 7⟩, ⟨"front", "http", 8⟩] = .ok cmd ∧
      HandoffExact [⟨"_admin", "http", 7⟩, ⟨"front", "http", 8⟩] cmd := by
  refine ⟨_, rfl, ?_⟩
  exact (handoff_exact_iff plainConfig
    (show Accepted (fun _ => "secret") ⟨false, false, false⟩ plainConfig by decide +kernel)
    [⟨"_admin", "http", 7⟩] [⟨"front", "http", 8⟩] _ ⟨by decide, by decide⟩ (by decide +kernel)
    (by decide) ∅ "lb.yaml" _ rfl).mpr (by decide)

/-- One HTTP listener with a port in its name. -/
def colonConfig : Config :=
  { plainConfig with listeners := [Sample.listener "front:80" "0.0.0.0:80" "http" "web"] }

/-- A listener with a colon in its name is accepted by `Validate`, is passed to the child
    as descriptor 4, and is not among what the child reads. -/
theorem colon_name_dropped :
    Accepted (fun _ => "secret") ⟨false, false, false⟩ colonConfig ∧
    LiveListeners colonConfig [⟨"_admin", "http", 7⟩] [⟨"front:80", "http", 8⟩] ∧
    ∃ cmd, handoffCmd ∅ "lb.yaml" [⟨"_admin", "http", 7⟩, ⟨"front:80", "http", 8⟩] = .ok cmd ∧
      cmd.descriptor 4 = some (.listener 8) ∧
      reconstructListeners cmd.getenv = ([⟨"_admin", "", 3⟩], some 5) ∧
      ¬ HandoffExact [⟨"_admin", "http", 7⟩, ⟨"front:80", "http", 8⟩] cmd := by
  refine ⟨by decide +kernel, ⟨by decide, by decide⟩, _, rfl, rfl, by decide +kernel, fun h => ?_⟩
  exact absurd h.descs (by decide +kernel)

end HootLb.Restart
