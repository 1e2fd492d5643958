import HootLb.ForStd.List
import HootLb.ForStd.RefMap
import HootLb.Native.Snapshot

/-!
# What the listener diff lets through

`DiffListeners` compares two lists of fingerprints through a map and two loops.
When the listener names of each side are unique, it accepts exactly the
rearrangements of the running listeners.

## Key results

- `diffListeners_eq_none_iff_perm`: with unique names on both sides the diff
  accepts the permutations of the running listeners
- `diffListeners_detects_changes`: the same, as equality of the sets of fingerprints
-/

namespace HootLb.Runtime

open Config

/-- The map holds the last fingerprint of each name. -/
private theorem oldByName_lookup (old : List ListenerFingerprint) (name : String) :
    (oldByName old).lookup name = old.reverse.find? fun lf => lf.name = name :=
  RefMap.lookup_foldl_insert _ old name

/-- The first loop passes when every new fingerprint is the old one of its name. -/
private theorem diffNew_eq_none_iff (old : GoMap ListenerFingerprint)
    (hkey : ∀ n lf, old.lookup n = some lf → lf.name = n) (new : List ListenerFingerprint) :
    diffNew old new = none ↔ ∀ nf ∈ new, old.lookup nf.name = some nf := by
  induction new with
  | nil => simp [diffNew]
  | cons nf rest ih =>
    rw [List.forall_mem_cons, ← ih]
    simp only [diffNew]
    cases hlf : old.lookup nf.name with
    | none => simp
    | some lf =>
      have hname := hkey nf.name lf hlf
      obtain ⟨name, address, protocol, tlsMode⟩ := lf
      obtain ⟨name', address', protocol', tlsMode'⟩ := nf
      simp only at hname
      subst hname
      dsimp only
      -- the three comparisons, in the order the loop makes them
      split
      · rename_i ha
        simp [ha]
      · split
        · rename_i hp
          simp [hp]
        · split
          · rename_i ht
            simp [ht]
          · simp_all

/-- The last fingerprint of a name is the only one when names are unique. -/
private theorem oldByName_lookup_iff (old : List ListenerFingerprint)
    (hnd : (old.map (·.name)).Nodup) (nf : ListenerFingerprint) :
    (oldByName old).lookup nf.name = some nf ↔ nf ∈ old := by
  constructor
  · intro h
    rw [oldByName_lookup] at h
    exact List.mem_reverse.mp (List.mem_of_find?_eq_some h)
  · exact fun h => RefMap.lookup_foldl_insert_of_mem _ old hnd nf h

/-- What the diff accepts when the running listeners have unique names. -/
theorem diffListeners_eq_none_iff (old new : List ListenerFingerprint)
    (hnd : (old.map (·.name)).Nodup) :
    diffListeners old new = none ↔ old.length = new.length ∧ (∀ nf ∈ new, nf ∈ old) ∧
      ∀ lf ∈ old, lf.name ∈ new.map (·.name) := by
  have hkey : ∀ n lf, (oldByName old).lookup n = some lf → lf.name = n := by
    intro n lf h
    rw [oldByName_lookup] at h
    simpa using List.find?_some h
  have hnew := diffNew_eq_none_iff (oldByName old) hkey new
  simp only [oldByName_lookup_iff old hnd] at hnew
  unfold diffListeners
  split
  · rename_i hlen
    simp [hlen]
  · rename_i hlen
    rw [← hnew]
    cases diffNew (oldByName old) new with
    | some e => simp
    | none =>
      dsimp only
      cases hfind : old.find? fun lf => !(new.map (·.name)).contains lf.name with
      | some lf =>
        have hmem := List.mem_of_find?_eq_some hfind
        have hnot : lf.name ∉ new.map (·.name) := by simpa using List.find?_some hfind
        exact iff_of_false (fun h => nomatch h) fun h => hnot (h.2.2 lf hmem)
      | none =>
        refine iff_of_true rfl ⟨not_not.mp hlen, rfl, fun lf hlf => ?_⟩
        simpa using List.find?_eq_none.mp hfind lf hlf

/-- A rearrangement of listeners with unique names passes the diff, and with
    unique names on both sides nothing else does. -/
theorem diffListeners_eq_none_iff_perm (old new : List ListenerFingerprint)
    (hold : (old.map (·.name)).Nodup) (hnew : (new.map (·.name)).Nodup) :
    diffListeners old new = none ↔ new.Perm old := by
  rw [diffListeners_eq_none_iff old new hold]
  constructor
  · rintro ⟨hlen, hsub, -⟩
    exact (List.subperm_of_subset hnew.of_map hsub).perm_of_length_le (Nat.le_of_eq hlen)
  · intro h
    exact ⟨h.length_eq.symm, fun nf hnf => h.mem_iff.mp hnf,
      fun lf hlf => List.mem_map_of_mem (h.mem_iff.mpr hlf)⟩

/-- With unique names, lists with the same fingerprints are rearrangements of each
    other. -/
private theorem perm_iff_mem_iff (old new : List ListenerFingerprint)
    (hold : (old.map (·.name)).Nodup) (hnew : (new.map (·.name)).Nodup) :
    new.Perm old ↔ ∀ lf, lf ∈ new ↔ lf ∈ old :=
  List.perm_ext_iff_of_nodup hnew.of_map hold.of_map

/-- The diff of two lists with unique names is empty exactly when the new one is a
    reordering of the old one, and that is when both hold the same fingerprints. -/
theorem diffListeners_detects_changes (old new : List ListenerFingerprint)
    (hold : (old.map (·.name)).Nodup) (hnew : (new.map (·.name)).Nodup) :
    (diffListeners old new = none ↔ new.Perm old) ∧
      (diffListeners old new = none ↔ ∀ lf, lf ∈ new ↔ lf ∈ old) := by
  have hperm := diffListeners_eq_none_iff_perm old new hold hnew
  exact ⟨hperm, hperm.trans (perm_iff_mem_iff old new hold hnew)⟩

/-- A front with a plain and a terminating listener. -/
def twoListeners : List ListenerFingerprint :=
  [{ name := "web", address := ":80", protocol := "http", tlsMode := "" },
    { name := "secure", address := ":443", protocol := "http", tlsMode := "terminate" }]

theorem diffListeners_detects_changes_two :
    diffListeners twoListeners twoListeners.reverse = none ∧
      diffListeners twoListeners (twoListeners.map fun lf => { lf with tlsMode := "" }) ≠ none := by
  have hnd : (twoListeners.map (·.name)).Nodup := by decide
  have hsame := (diffListeners_detects_changes twoListeners twoListeners.reverse hnd
    (by decide)).1
  have hplain := (diffListeners_detects_changes twoListeners
    (twoListeners.map fun lf => { lf with tlsMode := "" }) hnd (by decide)).1
  refine ⟨hsame.mpr (List.reverse_perm _), fun h => ?_⟩
  have hmodes := (hplain.mp h).map (·.tlsMode)
  exact absurd hmodes (by decide)

end HootLb.Runtime
