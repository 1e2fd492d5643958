import HootLb.ForStd.WeightedSlots
import HootLb.Native.Director
import HootLb.Spec.PoolValidity

/-!
# Weighted draws

`Random`, `IPHash` and the split routes all select by one loop: reduce a number by the
total weight and subtract weights until it is negative. Over the integers this cuts the
residues into consecutive intervals, one for each entry and as wide as its weight. The
code adds the weights up in a 64-bit `int`, and `IPHash` reduces by the low 32 bits of
the total, so that it depends on the total whether the reduction is by the total.

## Key results

- `stopsAt_eq_slot`: where the loop stops
- `weighted_draws_iff`: the weights for which the three draws are proportional
-/

namespace HootLb.Balancer

open WeightedSlots

variable {ρ α : Type}

/-! ## The loop -/

/-- The position at which the subtracting loop returns, if it does. -/
def stopsAt (target : Int) : List Int → Option Nat
  | [] => none
  | w :: ws =>
    let target := goInt (target - w)
    if target < 0 then some 0 else (stopsAt target ws).map (· + 1)

theorem walk_eq_stopsAt (deref : ρ → Server) (last : ρ) (target : Int) (cs : List ρ) :
    walk deref last target cs =
      ((stopsAt target (cs.map fun b => (deref b).weight)).bind (cs[·]?)).getD last := by
  induction cs generalizing target with
  | nil => rfl
  | cons b rest ih =>
    simp only [walk, List.map_cons, stopsAt]
    split
    · rfl
    · rw [ih, Option.bind_map]
      rfl

theorem splitWalk_eq_stopsAt (target : Int) (entries : List (L7.SplitEntry α)) :
    L7.splitWalk target entries =
      (stopsAt target (entries.map (·.weight))).bind (entries[·]?) := by
  induction entries generalizing target with
  | nil => rfl
  | cons e rest ih =>
    simp only [L7.splitWalk, List.map_cons, stopsAt]
    split
    · rfl
    · rw [ih, Option.bind_map]
      rfl

theorem stopsAt_lt_length {target : Int} {ws : List Int} {i : Nat}
    (h : stopsAt target ws = some i) : i < ws.length := by
  induction ws generalizing target i with
  | nil => cases h
  | cons w ws ih =>
    simp only [stopsAt] at h
    split at h
    · cases h
      exact Nat.zero_lt_succ _
    · obtain ⟨j, hj, rfl⟩ := Option.map_eq_some_iff.mp h
      exact Nat.succ_lt_succ (ih hj)

/-- As long as nothing overflows, the loop finds the interval of the target. -/
theorem stopsAt_eq_slot (ws : List Int) (hws : ∀ w ∈ ws, 0 < w ∧ w < 2 ^ 63) (t : Nat)
    (ht : t < 2 ^ 63) : stopsAt t ws = slot (ws.map Int.toNat) t := by
  induction ws generalizing t with
  | nil => rfl
  | cons w ws ih =>
    obtain ⟨hw, hrest⟩ := List.forall_mem_cons.mp hws
    -- both are in the range of an `int`, and so is their difference
    rw [stopsAt, goInt_of_range _ (by omega) (by omega), List.map_cons]
    by_cases h : t < w.toNat
    · rw [if_pos (by omega), slot_cons_lt _ h]
    · have hsub : (t : Int) - w = ((t - w.toNat : Nat) : Int) := by omega
      rw [if_neg (by omega), slot_cons_ge _ (by omega), hsub, ih hrest _ (by omega)]

/-! ## Shares -/

/-- Each residue of the total selects an entry, as many of them select an entry as its
    weight says, and they do so in the order of the list. -/
structure Proportional (ws : List Int) : Prop where
  inside : ∀ r : Nat, r < ws.sum.toNat → ∃ i, stopsAt r ws = some i
  shares : ∀ i w, ws[i]? = some w →
    (((Finset.range ws.sum.toNat).filter fun r : Nat => stopsAt r ws = some i).card : Int) = w
  ordered : ∀ r r' i i' : Nat, r ≤ r' → r' < ws.sum.toNat → stopsAt r ws = some i →
    stopsAt r' ws = some i' → i ≤ i'

/-- Positive weights of a list, and their total. -/
theorem sum_map_toNat (ws : List Int) (hws : ∀ w ∈ ws, 0 < w ∧ w < 2 ^ 63) :
    (ws.map Int.toNat).sum = ws.sum.toNat ∧ 0 ≤ ws.sum := by
  induction ws with
  | nil => simp
  | cons w ws ih =>
    obtain ⟨hw, hrest⟩ := List.forall_mem_cons.mp hws
    obtain ⟨hsum, hnonneg⟩ := ih hrest
    rw [List.map_cons, List.sum_cons, List.sum_cons, hsum]
    omega

theorem proportional_of_lt (ws : List Int) (hws : ∀ w ∈ ws, 0 < w ∧ w < 2 ^ 63)
    (hsum : ws.sum < 2 ^ 63) : Proportional ws := by
  obtain ⟨htotal, hnonneg⟩ := sum_map_toNat ws hws
  have hstop (r : Nat) (hr : r < ws.sum.toNat) : stopsAt r ws = slot (ws.map Int.toNat) r :=
    stopsAt_eq_slot ws hws r (by omega)
  refine ⟨?_, ?_, ?_⟩
  · intro r hr
    rw [hstop r hr]
    exact exists_slot (by omega)
  · -- below the total the loop stops at `i` exactly on the interval of `i`
    intro i w hi
    have hw := (hws w (List.mem_of_getElem? hi)).1
    have hcard : ((Finset.range (ws.map Int.toNat).sum).filter fun r =>
        slot (ws.map Int.toNat) r = some i).card = w.toNat := card_slot (by simp [hi])
    rw [htotal] at hcard
    have hfilter : ((Finset.range ws.sum.toNat).filter fun r : Nat => stopsAt r ws = some i) =
        (Finset.range ws.sum.toNat).filter fun r => slot (ws.map Int.toNat) r = some i :=
      Finset.filter_congr fun r hr => by rw [hstop r (Finset.mem_range.mp hr)]
    rw [hfilter, hcard]
    omega
  · intro r r' i i' hle hr' hi hi'
    rw [hstop r (by omega)] at hi
    rw [hstop r' hr'] at hi'
    exact slot_mono hle hi hi'

/-! ## The three draws -/

/-- Every draw is reduced by the total of the weights and selects the entry of its
    residue, and these are shared out by weight. `selects d i` says that the call for
    the draw `d` returns entry `i`. -/
def DrawsByWeight {δ : Type} (ws : List Int) (modulus : Int) (value : δ → Nat)
    (selects : δ → Nat → Prop) : Prop :=
  modulus = ws.sum ∧ Proportional ws ∧
    ∀ d, ∃ i, stopsAt (value d % ws.sum : Int) ws = some i ∧ selects d i

/-- Once the modulus is the total of the weights, everything else follows. -/
theorem drawsByWeight_iff {δ : Type} (ws : List Int) (hne : ws ≠ [])
    (hws : ∀ w ∈ ws, 0 < w ∧ w < 2 ^ 63) (modulus : Int) (hmodulus : modulus < 2 ^ 63)
    (value : δ → Nat) (selects : δ → Nat → Prop)
    (hselects : 0 < modulus → ∀ d i, stopsAt (value d % modulus : Int) ws = some i →
      selects d i) :
    DrawsByWeight ws modulus value selects ↔ modulus = ws.sum := by
  refine ⟨fun h => h.1, fun htotal => ?_⟩
  obtain ⟨-, hnonneg⟩ := sum_map_toNat ws hws
  have hpos : 0 < ws.sum := List.sum_pos ws (fun w hw => (hws w hw).1) hne
  have hprop := proportional_of_lt ws hws (by omega)
  refine ⟨htotal, hprop, fun d => ?_⟩
  have hresidue : ((value d % ws.sum.toNat : Nat) : Int) = (value d : Int) % ws.sum := by
    rw [Int.natCast_mod, Int.toNat_of_nonneg hnonneg]
  obtain ⟨i, hi⟩ := hprop.inside (value d % ws.sum.toNat) (Nat.mod_lt _ (by omega))
  rw [hresidue] at hi
  exact ⟨i, hi, hselects (by omega) d i (by rw [htotal, hi])⟩

theorem goInt_lt (x : Int) : goInt x < 2 ^ 63 := by
  have h := Int.bmod_lt (x := x) (m := 2 ^ 64) (by decide)
  unfold goInt
  omega

theorem wrappedTotal_lt (ws : List Int) : wrappedTotal ws < 2 ^ 63 := by
  rcases ws.eq_nil_or_concat with rfl | ⟨init, w, rfl⟩
  · decide
  · -- the last addition has wrapped around
    rw [wrappedTotal, List.concat_eq_append, List.foldl_append]
    exact goInt_lt _

/-- A total in a 64-bit `int` is right exactly when it fits. -/
theorem wrappedTotal_eq_sum_iff (ws : List Int) (hpos : ∀ w ∈ ws, 0 < w) :
    wrappedTotal ws = ws.sum ↔ ws.sum < 2 ^ 63 := by
  constructor
  · intro h
    have hlt := wrappedTotal_lt ws
    omega
  · exact wrappedTotal_eq_sum ws hpos

/-- Its low half, when it fits there. -/
theorem low_wrappedTotal_eq_sum_iff (ws : List Int) (hpos : ∀ w ∈ ws, 0 < w) :
    ((wrappedTotal ws % 2 ^ 32).toNat : Int) = ws.sum ↔ ws.sum < 2 ^ 32 := by
  constructor
  · intro h
    omega
  · intro hlt
    have hnonneg : 0 ≤ ws.sum := List.sum_nonneg fun w hw => (hpos w hw).le
    rw [(wrappedTotal_eq_sum_iff ws hpos).mpr (by omega)]
    omega

theorem walk_of_stopsAt (deref : ρ → Server) (last : ρ) (target : Int) (cs : List ρ) (i : Nat)
    (hi : stopsAt target (cs.map fun b => (deref b).weight) = some i) :
    cs[i]? = some (walk deref last target cs) := by
  have hlt := stopsAt_lt_length hi
  rw [List.length_map] at hlt
  rw [walk_eq_stopsAt, hi, Option.bind_some, List.getElem?_eq_getElem hlt, Option.getD_some]

theorem Random.pick_of_stopsAt (deref : ρ → Server) (draw : Nat) (rb : Random ρ)
    (htwo : 2 ≤ (candidates deref rb.backends).length)
    (htotal : 0 < totalWeight deref (candidates deref rb.backends)) (i : Nat)
    (hi : stopsAt (draw % totalWeight deref (candidates deref rb.backends))
      ((candidates deref rb.backends).map fun b => (deref b).weight) = some i) :
    ∃ b, (candidates deref rb.backends)[i]? = some b ∧ rb.pick deref draw = .ok b := by
  unfold Random.pick
  generalize candidates deref rb.backends = cs at *
  rcases cs with _ | ⟨b, _ | ⟨c, rest⟩⟩
  · simp at htwo
  · -- one candidate would be returned without a draw
    simp at htwo
  · simp only [if_neg (show ¬ totalWeight deref (b :: c :: rest) ≤ 0 by omega)]
    exact ⟨_, walk_of_stopsAt deref _ _ _ i hi, rfl⟩

theorem IPHash.pickHash_of_stopsAt (deref : ρ → Server) (hash : UInt32) (ih : IPHash ρ)
    (htwo : 2 ≤ (candidates deref ih.backends).length) (modulus : Nat)
    (htotal : (totalWeight deref (candidates deref ih.backends) % 2 ^ 32).toNat = modulus)
    (hpos : 0 < modulus) (i : Nat)
    (hi : stopsAt (hash.toNat % modulus : Nat)
      ((candidates deref ih.backends).map fun b => (deref b).weight) = some i) :
    ∃ b, (candidates deref ih.backends)[i]? = some b ∧ ih.pickHash deref hash = .ok b := by
  unfold IPHash.pickHash
  generalize candidates deref ih.backends = cs at *
  rcases cs with _ | ⟨b, _ | ⟨c, rest⟩⟩
  · simp at htwo
  · simp at htwo
  · simp only [htotal, if_neg (show ¬ modulus = 0 by omega)]
    exact ⟨_, walk_of_stopsAt deref _ _ _ i hi, rfl⟩

theorem pickSplitEntry_of_stopsAt (entries : List (L7.SplitEntry α)) (draw : Nat)
    (htotal : 0 < wrappedTotal (entries.map (·.weight))) (i : Nat)
    (hi : stopsAt (draw % wrappedTotal (entries.map (·.weight))) (entries.map (·.weight)) =
      some i) :
    ∃ e, entries[i]? = some e ∧ L7.pickSplitEntry entries draw = some e := by
  have hlt := stopsAt_lt_length hi
  rw [List.length_map] at hlt
  have htotal' : entries.foldl (fun total e => goInt (total + e.weight)) 0 =
      wrappedTotal (entries.map (·.weight)) := by
    rw [wrappedTotal, List.foldl_map]
  refine ⟨entries[i], List.getElem?_eq_getElem hlt, ?_⟩
  simp only [L7.pickSplitEntry, htotal', splitWalk_eq_stopsAt, hi, Option.bind_some,
    List.getElem?_eq_getElem hlt]
  rw [if_neg (by omega)]

/-- For two or more entries of positive weights, a draw of `Random` and of the split
    routes is by weight exactly when the total of the weights is a 64-bit integer, and one
    of `IPHash` exactly when it is below 2³². -/
theorem weighted_draws_iff (deref : ρ → Server) (backends : List ρ)
    (htwo : 2 ≤ (candidates deref backends).length)
    (hws : ∀ b ∈ candidates deref backends, 0 < (deref b).weight ∧ (deref b).weight < 2 ^ 63)
    (entries : List (L7.SplitEntry α)) (htwo' : 2 ≤ entries.length)
    (hws' : ∀ e ∈ entries, 0 < e.weight ∧ e.weight < 2 ^ 63) :
    let cs := candidates deref backends
    let ws := cs.map fun b => (deref b).weight
    let ws' := entries.map (·.weight)
    (DrawsByWeight ws (totalWeight deref cs) id
        (fun draw i => ∃ b, cs[i]? = some b ∧ Random.pick deref draw { backends } = .ok b) ↔
      ws.sum < 2 ^ 63) ∧
    (DrawsByWeight ws (totalWeight deref cs % 2 ^ 32).toNat UInt32.toNat
        (fun hash i => ∃ b, cs[i]? = some b ∧ IPHash.pickHash deref hash { backends } = .ok b ∧
          ∀ key, fnv32a (if key = "" then "default" else key) = hash →
            IPHash.pick deref key { backends } = .ok b) ↔
      ws.sum < 2 ^ 32) ∧
    (DrawsByWeight ws' (wrappedTotal ws') id
        (fun draw i => ∃ e, entries[i]? = some e ∧ L7.pickSplitEntry entries draw = some e) ↔
      ws'.sum < 2 ^ 63) := by
  intro cs ws ws'
  have hne : ws ≠ [] :=
    List.ne_nil_of_length_pos (by simp only [ws, cs, List.length_map]; omega)
  have hne' : ws' ≠ [] :=
    List.ne_nil_of_length_pos (by simp only [ws', List.length_map]; omega)
  have hpos : ∀ w ∈ ws, 0 < w ∧ w < 2 ^ 63 := by simpa [ws] using hws
  have hpos' : ∀ w ∈ ws', 0 < w ∧ w < 2 ^ 63 := by simpa [ws'] using hws'
  have htotal : totalWeight deref cs = wrappedTotal ws := totalWeight_eq_wrappedTotal deref cs
  have hlt := wrappedTotal_lt ws
  refine ⟨?_, ?_, ?_⟩
  · rw [drawsByWeight_iff ws hne hpos _ (by omega), htotal,
      wrappedTotal_eq_sum_iff ws fun w hw => (hpos w hw).1]
    exact fun hmodulus draw i hi => Random.pick_of_stopsAt deref draw _ htwo hmodulus i hi
  · rw [drawsByWeight_iff ws hne hpos _ (by omega), htotal,
      low_wrappedTotal_eq_sum_iff ws fun w hw => (hpos w hw).1]
    intro hmodulus hash i hi
    -- `Pick` sees a key only through its hash
    obtain ⟨b, hb, hpick⟩ := IPHash.pickHash_of_stopsAt deref hash { backends } htwo _ rfl
      (Int.natCast_pos.mp hmodulus) i (by rwa [Int.natCast_mod])
    refine ⟨b, hb, hpick, fun key hkey => ?_⟩
    rw [IPHash.pick_eq_pickHash, hkey, hpick]
  · rw [drawsByWeight_iff ws' hne' hpos' _ (wrappedTotal_lt ws'),
      wrappedTotal_eq_sum_iff ws' fun w hw => (hpos' w hw).1]
    exact fun hmodulus draw i hi => pickSplitEntry_of_stopsAt entries draw hmodulus i hi

theorem weighted_draws_two_to_one :
    let backends := [newServer "a" 2, newServer "b" 1]
    let entries : List (L7.SplitEntry String) := [⟨"a", 2⟩, ⟨"b", 1⟩]
    DrawsByWeight [2, 1] 3 id (fun draw i => ∃ b, backends[i]? = some b ∧
        Random.pick id draw { backends } = .ok b) ∧
      DrawsByWeight [2, 1] 3 UInt32.toNat (fun hash i => ∃ b, backends[i]? = some b ∧
        IPHash.pickHash id hash { backends } = .ok b ∧
        ∀ key, fnv32a (if key = "" then "default" else key) = hash →
          IPHash.pick id key { backends } = .ok b) ∧
      DrawsByWeight [2, 1] 3 id (fun draw i => ∃ e, entries[i]? = some e ∧
        L7.pickSplitEntry entries draw = some e) := by
  obtain ⟨hrandom, hhash, hsplit⟩ :=
    weighted_draws_iff id [newServer "a" 2, newServer "b" 1] (by decide) (by decide)
      [(⟨"a", 2⟩ : L7.SplitEntry String), ⟨"b", 1⟩] (by decide) (by decide)
  exact ⟨hrandom.mpr (by decide), hhash.mpr (by decide), hsplit.mpr (by decide)⟩

/-- Two weights of 2³¹ are a total of 2³², by whose low half no hash can be reduced. With
    one more the low half is 1, and every client is sent to the first of the two. Two
    weights of 2⁶² wrap around to a negative total. -/
theorem large_weights_not_drawn :
    (∀ key, IPHash.pick id key
        { backends := [newServer "a" (2 ^ 31), newServer "b" (2 ^ 31)] } = .panic) ∧
      (∀ key, IPHash.pick id key
          { backends := [newServer "a" (2 ^ 31), newServer "b" (2 ^ 31 + 1)] } =
        .ok (newServer "a" (2 ^ 31))) ∧
      (∀ draw, Random.pick id draw
        { backends := [newServer "a" (2 ^ 62), newServer "b" (2 ^ 62)] } = .panic) ∧
      ∀ draw, L7.pickSplitEntry [(⟨"a", 2 ^ 62⟩ : L7.SplitEntry String), ⟨"b", 2 ^ 62⟩] draw =
        none := by
  refine ⟨fun key => ?_, fun key => ?_, fun draw => ?_, fun draw => ?_⟩
  · exact (IPHash.pick_panic_iff _ _ _).mpr (by decide)
  · rw [IPHash.pick_eq_pickHash]
    -- modulo 1 every hash is 0, which the first backend takes
    obtain ⟨b, hb, hpick⟩ := IPHash.pickHash_of_stopsAt id
      (fnv32a (if key = "" then "default" else key))
      { backends := [newServer "a" (2 ^ 31), newServer "b" (2 ^ 31 + 1)] }
      (by decide) 1 (by decide) (by decide) 0 (by rw [Nat.mod_one]; decide)
    rw [hpick, ← Option.some.inj hb]
  · exact (Random.pick_panic_iff _ _ _).mpr (by decide)
  · unfold L7.pickSplitEntry
    exact if_pos (show goInt (goInt (0 + 2 ^ 62) + 2 ^ 62) ≤ 0 by decide)

end HootLb.Balancer
