import HootLb.Native.Metrics

/-!
# Gauge vectors

What the operations of `GaugeVec` do to the value behind a key, and what the
dashboard reads out of a vector: a row is the sum of the entries whose second and
third labels are its pool and its backend.
-/

namespace HootLb.Metrics

open Config HootLb.Runtime

/-! ## Keys -/

/-- Labels without zero bytes can be read back from their key. -/
theorem parts_key (labels : List String) (hne : labels ≠ [])
    (h : ∀ s ∈ labels, '\x00' ∉ s.toList) : parts (key labels) = labels :=
  List.map_ofList_splitOn_intercalate "\x00" '\x00' (by decide) labels hne h

/-- As many labels with the same key are the same labels. -/
theorem eq_of_key_eq {labels labels' : List String} (hne : labels ≠ [])
    (h : ∀ s ∈ labels, '\x00' ∉ s.toList) (hlen : labels'.length = labels.length)
    (hkey : key labels' = key labels) : labels' = labels := by
  have hne' : labels' ≠ [] := by
    intro hnil
    rw [hnil] at hlen
    exact hne (List.length_eq_zero_iff.mp hlen.symm)
  have hpieces : ∀ s ∈ labels', '\x00' ∉ s.toList := by
    have hcount := (List.count_intercalate '\x00' (labels.map String.toList) (by simpa using hne)).2
    have hcount' := (List.count_intercalate '\x00' (labels'.map String.toList)
      (by simpa using hne')).2
    have htext := congrArg String.toList hkey
    simp only [key, String.toList_intercalate] at htext
    rw [show "\x00".toList = ['\x00'] from by decide] at htext
    rw [htext, List.length_map, hlen, ← List.length_map String.toList] at hcount'
    have hzero := hcount'.mp (hcount.mpr (by simpa using h))
    simpa using hzero
  rw [← parts_key labels hne h, ← hkey, parts_key labels' hne' hpieces]

theorem rowKey_eq_key (pool backend : String) : rowKey pool backend = key [pool, backend] := by
  rw [rowKey, key, ← String.toList_inj]
  simp

theorem rowKey_inj {pool backend pool' backend' : String}
    (h : ∀ s ∈ [pool, backend, pool', backend'], '\x00' ∉ s.toList) :
    rowKey pool backend = rowKey pool' backend' ↔ pool = pool' ∧ backend = backend' := by
  simp only [List.mem_cons, List.not_mem_nil, or_false, forall_eq_or_imp, forall_eq] at h
  obtain ⟨hp, hb, hp', hb'⟩ := h
  constructor
  · intro heq
    rw [rowKey_eq_key, rowKey_eq_key] at heq
    have hparts := congrArg parts heq
    rw [parts_key _ (by simp) (by simp [hp, hb]), parts_key _ (by simp) (by simp [hp', hb'])]
      at hparts
    simpa using hparts
  · rintro ⟨rfl, rfl⟩
    rfl

/-! ## Values -/

namespace GaugeVec

variable (gv : GaugeVec)

/-- The value of the gauge behind a key. -/
def value (k : String) : Option Int := RefMap.deref gv.items gv.gauges k

theorem withLabels_of_some {labels : List String} {g : Nat}
    (h : gv.items.lookup (key labels) = some g) : gv.withLabels labels = (g, gv) := by
  simp only [withLabels, h]

theorem withLabels_of_none {labels : List String} (h : gv.items.lookup (key labels) = none) :
    (gv.withLabels labels).1 = gv.gauges.length ∧
      (gv.withLabels labels).2.gauges = gv.gauges ++ [0] ∧
      (gv.withLabels labels).2.items = gv.items.insert (key labels) gv.gauges.length := by
  simp only [withLabels, h, and_self]

theorem lookup_withLabels (labels : List String) (k : String) :
    (gv.withLabels labels).2.items.lookup k =
      if k = key labels then some (gv.withLabels labels).1 else gv.items.lookup k := by
  cases hk : gv.items.lookup (key labels) with
  | some g =>
    rw [gv.withLabels_of_some hk]
    split
    · rename_i heq
      rw [heq, hk]
    · rfl
  | none =>
    obtain ⟨hg, -, hitems⟩ := gv.withLabels_of_none hk
    rw [hg, hitems, RefMap.lookup_insert_eq]

/-- A key that `With` meets for the first time starts at zero. -/
theorem value_withLabels (labels : List String) (k : String) :
    (gv.withLabels labels).2.value k =
      if k = key labels then some ((gv.value k).getD 0) else gv.value k := by
  cases hk : gv.items.lookup (key labels) with
  | some g =>
    rw [gv.withLabels_of_some hk]
    split
    · rename_i heq
      have hsome := gv.valid.deref_isSome (key labels)
      rw [hk] at hsome
      obtain ⟨v, hv⟩ := Option.isSome_iff_exists.mp hsome
      rw [heq, value, hv, Option.getD_some]
    · rfl
  | none =>
    obtain ⟨-, hgauges, hitems⟩ := gv.withLabels_of_none hk
    rw [value, hgauges, hitems, gv.valid.deref_alloc]
    by_cases heq : k = key labels
    · have hnone : gv.value k = none := by
        rw [value, RefMap.deref, heq, hk]
        rfl
      rw [if_pos heq, hnone, heq, Function.update_self]
      rfl
    · rw [Function.update_of_ne heq, if_neg heq]
      rfl

theorem value_adjust (g : Nat) (delta : Int) (k : String) :
    (gv.adjust g delta).value k =
      if gv.items.lookup k = some g then (gv.value k).map (· + delta) else gv.value k :=
  RefMap.deref_modify _ _ _ _ _

theorem lookup_remove (pool backend k : String) :
    (gv.removeByPoolBackend pool backend).items.lookup k =
      if namesBoth pool backend k then none else gv.items.lookup k := by
  refine (RefMap.lookup_filterKeys _ gv.items k).trans ?_
  cases namesBoth pool backend k <;> rfl

theorem value_remove (pool backend k : String) :
    (gv.removeByPoolBackend pool backend).value k =
      if namesBoth pool backend k then none else gv.value k := by
  unfold value RefMap.deref
  rw [lookup_remove]
  cases namesBoth pool backend k <;> rfl

end GaugeVec

/-! ## Rows of the dashboard -/

/-- An entry with these labels is counted in the row. -/
def readsRow (row : String) : List String → Bool
  | _ :: pool :: backend :: _ => rowKey pool backend = row
  | _ => false

/-- The entries of a row, added up. -/
def GaugeVec.rowSum (gv : GaugeVec) (row : String) : Int :=
  (gv.items.entries.map fun e =>
    if readsRow row (parts e.1) then gv.gauges.getD e.2 0 else 0).sum

/-- The loop over `Each` from any counts on. -/
private theorem lookup_counts (row : String) (es : List (List String × Int))
    (counts : GoMap Int) :
    ((es.foldl (fun counts (labels, value) =>
      match labels with
      | _ :: pool :: backend :: _ =>
        counts.insert (rowKey pool backend)
          ((counts.lookup (rowKey pool backend)).getD 0 + value)
      | _ => counts) counts).lookup row).getD 0 =
      (counts.lookup row).getD 0 + (es.map fun e => if readsRow row e.1 then e.2 else 0).sum := by
  induction es generalizing counts with
  | nil => simp
  | cons e rest ih =>
    obtain ⟨labels, value⟩ := e
    rw [List.foldl_cons, ih, List.map_cons, List.sum_cons, ← Int.add_assoc]
    congr 1
    match labels with
    | [] => simp [readsRow]
    | [_] => simp [readsRow]
    | [_, _] => simp [readsRow]
    | _ :: pool :: backend :: _ =>
      dsimp only
      rw [RefMap.lookup_insert_eq]
      by_cases hrow : row = rowKey pool backend
      · subst hrow
        simp [readsRow]
      · simp [readsRow, hrow, Ne.symm hrow]

theorem activeConnections_eq_rowSum (gv : GaugeVec) (pool backend : String) :
    activeConnections (some gv) pool backend = gv.rowSum (rowKey pool backend) := by
  unfold activeConnections connCounts
  refine (lookup_counts (rowKey pool backend) gv.each ∅).trans ?_
  rw [AList.lookup_empty, Option.getD_none, Int.zero_add]
  unfold GaugeVec.rowSum GaugeVec.each
  -- the order of the keys does not matter for the sum
  rw [List.map_map, ((List.mergeSort_perm _ _).map _).sum_eq, List.map_map]
  rfl

/-- What the dashboard shows for a backend. -/
theorem build_activeConnections (pools : List PoolConfig) (heap : Heap) (rs : Snapshot)
    (gv : GaugeVec) (p : PoolSnapshot) (hp : p ∈ build pools heap rs (some gv))
    (row : BackendSnapshot) (hrow : row ∈ p.backends) :
    row.activeConnections = gv.rowSum (rowKey p.name row.address) := by
  obtain ⟨cfg, -, rfl⟩ := List.mem_map.mp hp
  dsimp only at hrow ⊢
  split at hrow
  · exact nomatch hrow
  · obtain ⟨srv, -, rfl⟩ := List.mem_map.mp hrow
    exact activeConnections_eq_rowSum gv cfg.name srv.address

namespace GaugeVec

variable (gv : GaugeVec)

theorem mem_entries_lookup {k : String} {g : Nat} :
    (⟨k, g⟩ : (_ : String) × Nat) ∈ gv.items.entries ↔ gv.items.lookup k = some g :=
  AList.mem_lookup_iff.symm

/-- A new entry is zero. -/
theorem rowSum_withLabels (labels : List String) (row : String) :
    (gv.withLabels labels).2.rowSum row = gv.rowSum row := by
  cases hk : gv.items.lookup (key labels) with
  | some g => rw [gv.withLabels_of_some hk]
  | none =>
    obtain ⟨-, hgauges, hitems⟩ := gv.withLabels_of_none hk
    unfold rowSum
    rw [hgauges, hitems, AList.entries_insert_of_notMem (AList.lookup_eq_none.mp hk), List.map_cons,
      List.sum_cons]
    have hnew : (gv.gauges ++ [0]).getD gv.gauges.length 0 = 0 := by simp
    have hold : ∀ e ∈ gv.items.entries, (gv.gauges ++ [0]).getD e.2 0 = gv.gauges.getD e.2 0 := by
      intro e he
      have hlt := gv.valid e.1 e.2 (gv.mem_entries_lookup.mp he)
      rw [List.getD_eq_getElem?_getD, List.getElem?_append_left hlt,
        List.getD_eq_getElem?_getD]
    rw [hnew, ite_self, Int.zero_add]
    refine congrArg List.sum (List.map_congr_left fun e he => ?_)
    rw [hold e he]

/-- Adjusting the gauge of an entry changes the row that reads the entry. -/
theorem rowSum_adjust {k : String} {g : Nat} (hk : gv.items.lookup k = some g) (delta : Int)
    (row : String) :
    (gv.adjust g delta).rowSum row =
      gv.rowSum row + if readsRow row (parts k) then delta else 0 := by
  have hmem : (⟨k, g⟩ : (_ : String) × Nat) ∈ gv.items.entries := gv.mem_entries_lookup.mpr hk
  have hlt := gv.valid k g hk
  unfold rowSum adjust
  rw [List.sum_map_change gv.items.nodupKeys.nodup hmem (fun e =>
    if readsRow row (parts e.1) then gv.gauges.getD e.2 0 else 0)]
  · dsimp only
    split
    · simp [List.getD_eq_getElem?_getD, hlt]
    · rfl
  · intro e he hne
    -- another entry has another gauge
    have hother : g ≠ e.2 := by
      intro heq
      have hlookup : gv.items.lookup e.1 = some g := by
        rw [heq]
        exact gv.mem_entries_lookup.mp he
      have hkey : k = e.1 := gv.injective k e.1 g hk hlookup
      exact hne (by rw [hkey, heq])
    have hsame : (gv.gauges.modify g (· + delta)).getD e.2 0 = gv.gauges.getD e.2 0 := by
      simp [List.getD_eq_getElem?_getD, hother]
    dsimp only
    rw [hsame]

theorem rowSum_count (labels : List String) (delta : Int) (row : String) :
    (gv.count labels delta).rowSum row =
      gv.rowSum row + if readsRow row (parts (key labels)) then delta else 0 := by
  have hk : (gv.withLabels labels).2.items.lookup (key labels) = some (gv.withLabels labels).1 := by
    rw [gv.lookup_withLabels, if_pos rfl]
  rw [count, rowSum_adjust _ hk, rowSum_withLabels]

end GaugeVec

end HootLb.Metrics
