import HootLb.Spec.WeightedDraws

/-!
# Clients of an `IPHash` when a backend goes away

The comment on `IPHash` calls its hash consistent: when the set of backends changes,
only a fraction of the clients is to move. The code reduces the hash of a client by the
total weight of the eligible backends, so that the loss of one backend changes the
divisor and with it the residue of nearly every client. Here it is worked out when the
clients of the other backends stay where they are.

## Key results

- `pickHash_eq_ok_iff`: the backend of a hash, by intervals
- `removal_keeps_clients`: when they stay, and that they do not stay otherwise
-/

namespace HootLb.Balancer

open WeightedSlots

variable {ρ : Type}

/-! ## The backend of a hash -/

/-- The width of a backend's interval. -/
def hashWidth (deref : ρ → Server) (b : ρ) : Nat := (deref b).weight.toNat

/-- What the eligible backends add up to. -/
def hashTotal (deref : ρ → Server) (cs : List ρ) : Nat := (cs.map (hashWidth deref)).sum

theorem map_toNat_weights (deref : ρ → Server) (cs : List ρ) :
    (cs.map fun b => (deref b).weight).map Int.toNat = cs.map (hashWidth deref) := by
  rw [List.map_map]
  rfl

theorem hashTotal_eq_sum (deref : ρ → Server) (cs : List ρ)
    (hpos : ∀ b ∈ cs, 0 < (deref b).weight) :
    (hashTotal deref cs : Int) = (cs.map fun b => (deref b).weight).sum := by
  induction cs with
  | nil => rfl
  | cons b cs ih =>
    obtain ⟨hb, hrest⟩ := List.forall_mem_cons.mp hpos
    have hcs := ih hrest
    simp only [hashTotal, List.map_cons, List.sum_cons, hashWidth] at hcs ⊢
    omega

theorem hashWidth_le_hashTotal (deref : ρ → Server) {cs : List ρ} {b : ρ} (hb : b ∈ cs) :
    hashWidth deref b ≤ hashTotal deref cs :=
  List.single_le_sum (fun _ _ => Nat.zero_le _) _ (List.mem_map_of_mem hb)

/-- As long as the total fits into 32 bits, `IPHash` selects the backend in whose
    interval the hash lies modulo the total. -/
theorem IPHash.pickHash_eq_ok_iff (deref : ρ → Server) (hash : UInt32) (ih : IPHash ρ)
    (cs : List ρ) (hcs : candidates deref ih.backends = cs) (hne : cs ≠ [])
    (hpos : ∀ b ∈ cs, 0 < (deref b).weight) (htotal : hashTotal deref cs < 2 ^ 32) (b : ρ) :
    ih.pickHash deref hash = .ok b ↔
      select (hashWidth deref) cs (hash.toNat % hashTotal deref cs) = some b := by
  have hsum := hashTotal_eq_sum deref cs hpos
  have hresidue : hash.toNat % hashTotal deref cs < hashTotal deref cs := by
    obtain ⟨a, ha⟩ := List.exists_mem_of_ne_nil cs hne
    have hle := hashWidth_le_hashTotal deref ha
    have hwa := hpos a ha
    unfold hashWidth at hle
    exact Nat.mod_lt _ (by omega)
  match cs, hne with
  | [a], _ =>
    -- a single candidate is taken without looking at the hash, and its interval is all there is
    rw [hashTotal, List.map_singleton, List.sum_singleton] at hresidue ⊢
    rw [select_cons, if_pos hresidue, IPHash.pickHash]
    simp [hcs]
  | a :: c :: rest, _ =>
    obtain ⟨i, hi⟩ := exists_slot hresidue
    have hws : ∀ w ∈ (a :: c :: rest).map fun b => (deref b).weight, 0 < w ∧ w < 2 ^ 63 := by
      intro w hw
      obtain ⟨x, hx, rfl⟩ := List.mem_map.mp hw
      have hle := hashWidth_le_hashTotal deref hx
      have hwx := hpos x hx
      unfold hashWidth at hle
      omega
    have hstop := stopsAt_eq_slot _ hws (hash.toNat % hashTotal deref (a :: c :: rest))
      (by omega)
    rw [map_toNat_weights, hi] at hstop
    obtain ⟨x, hx, hpick⟩ := ih.pickHash_of_stopsAt deref hash (by simp [hcs])
      (hashTotal deref (a :: c :: rest))
      (by rw [hcs, totalWeight_eq_sum deref _ hpos (by omega), ← hsum]; omega) (by omega) i
      (by rw [hcs]; exact hstop)
    rw [hcs] at hx
    rw [hpick, select, hi, Option.bind_some, hx]
    simp

/-! ## Losing a backend -/

/-- The eligible backends before and after `b` is removed, or is not eligible any more.
    Nothing else changes. -/
structure Loses (deref : ρ → Server) (before : IPHash ρ) (deref' : ρ → Server)
    (after : IPHash ρ) (pre : List ρ) (b : ρ) (post : List ρ) : Prop where
  before : candidates deref before.backends = pre ++ b :: post
  after : candidates deref' after.backends = pre ++ post
  weights : ∀ x ∈ pre ++ post, (deref' x).weight = (deref x).weight

/-- `UpdateBackends` with a list in which an eligible backend is left out. -/
theorem loses_of_updateBackends (deref : ρ → Server) (ih : IPHash ρ) (l₁ l₂ : List ρ) (b : ρ)
    (hbackends : ih.backends = l₁ ++ b :: l₂) (hb : (deref b).eligible) :
    Loses deref ih deref (ih.updateBackends (l₁ ++ l₂)) (candidates deref l₁) b
      (candidates deref l₂) where
  before := by simp [hbackends, candidates, hb]
  after := by simp [IPHash.updateBackends, candidates]
  weights := fun _ _ => rfl

/-- The flags of an eligible backend change so that it is not eligible any more. -/
theorem loses_of_not_eligible (deref deref' : ρ → Server) (ih : IPHash ρ) (l₁ l₂ : List ρ)
    (b : ρ) (hbackends : ih.backends = l₁ ++ b :: l₂) (hb : (deref b).eligible)
    (hb' : ¬ (deref' b).eligible) (hother : ∀ x ∈ l₁ ++ l₂, deref' x = deref x) :
    Loses deref ih deref' ih (candidates deref l₁) b (candidates deref l₂) where
  before := by simp [hbackends, candidates, hb]
  after := by
    have hfilter (l : List ρ) (hl : ∀ x ∈ l, deref' x = deref x) :
        candidates deref' l = candidates deref l :=
      List.filter_congr fun x hx => by rw [hl x hx]
    rw [← hfilter l₁ fun x hx => hother x (List.mem_append_left _ hx),
      ← hfilter l₂ fun x hx => hother x (List.mem_append_right _ hx)]
    simp [hbackends, candidates, hb']
  weights := by
    intro x hx
    rw [hother x]
    simp only [candidates, List.mem_append, List.mem_filter] at hx ⊢
    exact hx.imp And.left And.left

section Removal

variable {deref deref' : ρ → Server} {before after : IPHash ρ} {pre post : List ρ} {b : ρ}

theorem hashTotal_append_cons (deref : ρ → Server) (pre post : List ρ) (b : ρ) :
    hashTotal deref (pre ++ b :: post) = hashTotal deref (pre ++ post) + hashWidth deref b := by
  simp only [hashTotal, List.map_append, List.map_cons, List.sum_append, List.sum_cons]
  omega

/-- The backend of a hash before. -/
theorem Loses.pickHash_before (h : Loses deref before deref' after pre b post)
    (hpos : ∀ x ∈ pre ++ b :: post, 0 < (deref x).weight)
    (htotal : hashTotal deref (pre ++ b :: post) < 2 ^ 32) (hash : UInt32) (x : ρ) :
    before.pickHash deref hash = .ok x ↔
      select (hashWidth deref) (pre ++ b :: post)
        (hash.toNat % hashTotal deref (pre ++ b :: post)) = some x :=
  before.pickHash_eq_ok_iff deref hash _ h.before (by simp) hpos htotal x

/-- The backend of a hash after, by the widths from before. -/
theorem Loses.pickHash_after (h : Loses deref before deref' after pre b post)
    (hne : pre ++ post ≠ []) (hpos : ∀ x ∈ pre ++ b :: post, 0 < (deref x).weight)
    (htotal : hashTotal deref (pre ++ b :: post) < 2 ^ 32) (hash : UInt32) (x : ρ) :
    after.pickHash deref' hash = .ok x ↔
      select (hashWidth deref) (pre ++ post)
        (hash.toNat % hashTotal deref (pre ++ post)) = some x := by
  have hwidth : ∀ x ∈ pre ++ post, hashWidth deref' x = hashWidth deref x := by
    intro x hx
    rw [hashWidth, h.weights x hx, hashWidth]
  have hsame : hashTotal deref' (pre ++ post) = hashTotal deref (pre ++ post) := by
    rw [hashTotal, List.map_congr_left hwidth, hashTotal]
  have hle := hashTotal_append_cons deref pre post b
  rw [after.pickHash_eq_ok_iff deref' hash _ h.after hne _ (by omega) x, hsame,
    select_congr _ hwidth]
  intro x hx
  rw [h.weights x hx]
  apply hpos
  simp only [List.mem_append, List.mem_cons] at hx ⊢
  exact hx.imp_right Or.inr

theorem hashTotal_append (deref : ρ → Server) (pre post : List ρ) :
    hashTotal deref (pre ++ post) = hashTotal deref pre + hashTotal deref post := by
  rw [hashTotal, List.map_append, List.sum_append]
  rfl

theorem hashTotal_pos (deref : ρ → Server) {cs : List ρ} (hne : cs ≠ [])
    (hpos : ∀ b ∈ cs, 0 < (deref b).weight) : 0 < hashTotal deref cs := by
  obtain ⟨a, ha⟩ := List.exists_mem_of_ne_nil cs hne
  have hle := hashWidth_le_hashTotal deref ha
  have hwa := hpos a ha
  unfold hashWidth at hle
  omega

/-- If the lost weight is a multiple of what remains, the residue of a hash loses the
    lost weight or keeps its value, as the intervals do. -/
theorem Loses.keeps_of_dvd (h : Loses deref before deref' after pre b post)
    (hne : pre ++ post ≠ []) (hpos : ∀ x ∈ pre ++ b :: post, 0 < (deref x).weight)
    (htotal : hashTotal deref (pre ++ b :: post) < 2 ^ 32)
    (hdvd : hashTotal deref (pre ++ post) ∣ hashWidth deref b) (hash : UInt32) (x : ρ)
    (hx : x ≠ b) (hpick : before.pickHash deref hash = .ok x) :
    after.pickHash deref' hash = .ok x := by
  rw [h.pickHash_before hpos htotal, select_append_cons] at hpick
  rw [h.pickHash_after hne hpos htotal, select_append]
  have hsplit := hashTotal_append deref pre post
  have hwhole := hashTotal_append_cons deref pre post b
  have hdvd' : hashTotal deref (pre ++ post) ∣ hashTotal deref (pre ++ b :: post) := by
    rw [hwhole]
    exact Nat.dvd_add (Nat.dvd_refl _) hdvd
  rw [← Nat.mod_mod_of_dvd hash.toNat hdvd']
  have hlt := Nat.mod_lt hash.toNat (hashTotal_pos deref (by simp) hpos)
  generalize hash.toNat % hashTotal deref (pre ++ b :: post) = r at *
  have hfold : (pre.map (hashWidth deref)).sum = hashTotal deref pre := rfl
  rw [hfold] at hpick ⊢
  by_cases hpre : r < hashTotal deref pre
  · -- before the interval of `b` nothing moves
    rw [if_pos hpre] at hpick
    rw [Nat.mod_eq_of_lt (by omega), if_pos hpre, hpick]
  · rw [if_neg hpre] at hpick
    by_cases hb : r < hashTotal deref pre + hashWidth deref b
    · rw [if_pos hb] at hpick
      exact absurd (Option.some.inj hpick).symm hx
    · -- behind it the intervals and the residues move down by the width of `b`
      rw [if_neg hb] at hpick
      obtain ⟨q, hq⟩ := hdvd
      have hmod : r % hashTotal deref (pre ++ post) = r - hashWidth deref b := by
        rw [show r = r - hashWidth deref b + hashTotal deref (pre ++ post) * q by omega,
          Nat.add_mul_mod_self_left, Nat.mod_eq_of_lt (by omega)]
        omega
      rw [hmod, if_neg (by omega), Nat.sub_right_comm, hpick]

/-- Conversely the hashes of the others, as far as they are below twice the total, show
    that nothing changes when the residues are turned by the lost weight. -/
theorem Loses.dvd_of_keeps (h : Loses deref before deref' after pre b post)
    (hnd : (pre ++ b :: post).Nodup) (htwo : 2 ≤ (pre ++ post).length)
    (hpos : ∀ x ∈ pre ++ b :: post, 0 < (deref x).weight)
    (htotal : 2 * hashTotal deref (pre ++ b :: post) ≤ 2 ^ 32)
    (hkeeps : ∀ hash x, x ≠ b → before.pickHash deref hash = .ok x →
      after.pickHash deref' hash = .ok x) :
    hashTotal deref (pre ++ post) ∣ hashWidth deref b := by
  have hne : pre ++ post ≠ [] := List.ne_nil_of_length_pos (by omega)
  have hsplit := hashTotal_append deref pre post
  have hwhole := hashTotal_append_cons deref pre post b
  obtain ⟨hnd', hb⟩ := (List.nodup_middle.trans List.nodup_cons).mp hnd |>.symm
  have hwpos : ∀ x ∈ pre ++ post, 0 < hashWidth deref x := by
    intro x hx
    have hwx := hpos x (by simp only [List.mem_append, List.mem_cons] at hx ⊢; tauto)
    unfold hashWidth
    omega
  apply dvd_of_select_rotate (hashWidth deref) hnd' hwpos htwo
  intro r hr
  rw [← hashTotal] at hr ⊢
  obtain ⟨x, hx⟩ := exists_select (hashWidth deref) hr
  have hxb : x ≠ b := by
    intro hxb
    rw [hxb] at hx
    exact hb (mem_of_select _ hx)
  -- a client whose hash is `n` was with `x` and has to stay there
  have hmove (n : Nat) (hn : n < 2 ^ 32)
      (hsel : select (hashWidth deref) (pre ++ b :: post)
        (n % hashTotal deref (pre ++ b :: post)) = some x) :
      select (hashWidth deref) (pre ++ post) (n % hashTotal deref (pre ++ post)) = some x := by
    have hn' : (UInt32.ofNat n).toNat = n := UInt32.toNat_ofNat_of_lt' hn
    have hkept := hkeeps (UInt32.ofNat n) x hxb
    rw [h.pickHash_before hpos (by omega), h.pickHash_after hne hpos (by omega), hn'] at hkept
    exact hkept hsel
  have hfold : (pre.map (hashWidth deref)).sum = hashTotal deref pre := rfl
  rw [hx]
  rw [select_append, hfold] at hx
  by_cases hpre : r < hashTotal deref pre
  · -- before, a hash of the total plus `r` had the residue `r`
    rw [if_pos hpre] at hx
    have hsel := hmove (hashTotal deref (pre ++ b :: post) + r) (by omega) (by
      rw [Nat.add_mod_left, Nat.mod_eq_of_lt (by omega), select_append_cons, hfold,
        if_pos hpre, hx])
    rwa [hwhole, Nat.add_assoc, Nat.add_mod_left, Nat.add_comm] at hsel
  · -- before, the interval of `b` was in front of what is now at `r`
    rw [if_neg hpre] at hx
    have hsel := hmove (r + hashWidth deref b) (by omega) (by
      rw [Nat.mod_eq_of_lt (by omega), select_append_cons, hfold, if_neg (by omega),
        if_neg (by omega), Nat.sub_right_comm, Nat.add_sub_cancel, hx])
    exact hsel

theorem Loses.keeps_of_single (h : Loses deref before deref' after pre b post)
    (hone : (pre ++ post).length = 1) (hpos : ∀ x ∈ pre ++ b :: post, 0 < (deref x).weight)
    (htotal : hashTotal deref (pre ++ b :: post) < 2 ^ 32) (hash : UInt32) (x : ρ)
    (hx : x ≠ b) (hpick : before.pickHash deref hash = .ok x) :
    after.pickHash deref' hash = .ok x := by
  rw [h.pickHash_before hpos htotal] at hpick
  have hmem := mem_of_select _ hpick
  have hother : x ∈ pre ++ post := by
    simp only [List.mem_append, List.mem_cons] at hmem ⊢
    tauto
  obtain ⟨c, hc⟩ := List.length_eq_one_iff.mp hone
  rw [hc, List.mem_singleton] at hother
  rw [IPHash.pickHash]
  simp [h.after, hc, hother]

end Removal

end HootLb.Balancer
