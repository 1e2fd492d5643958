import HootLb.ForStd.List
import HootLb.ForStd.WrappedScan
import HootLb.Spec.SmoothWeights

/-!
# Selection completeness

`Pick` fails only when no backend is eligible: for all algorithms in every state
they reach, except for round robin in the one scan during which its 64-bit counter
wraps. That scan visits some positions twice and leaves others out, and fails if
all eligible backends are among those.

Backends are handles of an arbitrary type; their addresses and weights are fixed,
their flags may be different at every call.

## Key results

- `RoundRobin.pick_error_iff`: which scans of round robin fail
- `WeightedRoundRobin.inRange_step`: the current weights stay in a 64-bit range
- `picks_complete_iff`: whole runs of every algorithm
-/

namespace HootLb.Balancer

variable {ρ : Type}

/-! ## Round robin -/

/-- The position the scan visits in step `i`, as arithmetic. -/
private theorem visit_toNat (start : UInt64) (n i : Nat) (hn : n < 2 ^ 64) :
    ((start + i.toUInt64) % n.toUInt64).toNat = WrappedScan.position (2 ^ 64) n start.toNat i := by
  have hn' : n % 18446744073709551616 = n := Nat.mod_eq_of_lt hn
  simp [WrappedScan.position, UInt64.toNat_mod, UInt64.toNat_add, hn']

/-- A position the scan does not visit from the counter's value. -/
def RoundRobin.Skips (r : RoundRobin ρ) (p : Nat) : Prop :=
  WrappedScan.Skipped (2 ^ 64) r.backends.length r.next.toNat p

/-- Round robin fails exactly when the scan skips every eligible backend. -/
theorem RoundRobin.pick_error_iff (deref : ρ → Server) (r : RoundRobin ρ)
    (hlen : r.backends.length < 2 ^ 64) :
    (∃ msg, (r.pick deref).1 = .error msg) ↔
      ∀ p b, r.backends[p]? = some b → (deref b).eligible → r.Skips p := by
  unfold RoundRobin.pick
  dsimp only
  split
  · -- nothing to pick from
    rename_i hnil
    rw [List.length_eq_zero_iff.mp hnil]
    simp
  · have hscan : ((List.range r.backends.length).findSome? fun i =>
          r.backends[((r.next + i.toUInt64) % r.backends.length.toUInt64).toNat]?.filter
            fun b => (deref b).eligible) = none ↔
        ∀ p b, r.backends[p]? = some b → (deref b).eligible → r.Skips p := by
      rw [List.findSome?_eq_none_iff]
      constructor
      · -- a position that is not skipped is visited, and what stands there is not eligible
        intro hnone p b hb helig
        have hp : p < r.backends.length := (List.getElem?_eq_some_iff.mp hb).1
        by_contra hskip
        obtain ⟨i, hi, hpos⟩ :=
          (WrappedScan.exists_position_iff hlen.le r.next.toNat_lt hp).mpr hskip
        have hvisit := hnone i (List.mem_range.mpr hi)
        rw [visit_toNat r.next _ i hlen, hpos, hb] at hvisit
        simp [helig] at hvisit
      · -- an eligible backend stands at a skipped position only, and this one is visited
        intro hskips i hi
        rw [visit_toNat r.next _ i hlen, Option.filter_eq_none_iff]
        intro b hb helig
        have hp := (List.getElem?_eq_some_iff.mp hb).1
        exact (WrappedScan.exists_position_iff hlen.le r.next.toNat_lt hp).mp
          ⟨i, List.mem_range.mp hi, rfl⟩ (hskips _ b hb helig)
    rw [← hscan]
    generalize List.findSome? _ _ = found
    cases found <;> simp

/-! ## The other algorithms -/

/-- Weighted round robin always settles on a candidate. -/
theorem WeightedRoundRobin.pick_isOk (deref : ρ → Server) (w : WeightedRoundRobin ρ)
    (h : ∃ b ∈ w.backends, (deref b).eligible) : ∃ b, (w.pick deref).1 = .ok b := by
  obtain ⟨b, hb, helig⟩ := h
  obtain ⟨j, hj⟩ := List.getElem?_of_mem hb
  have hmem := (mem_eligibleIdx deref w.backends j).mpr ⟨b, hj, helig⟩
  have hne : w.healthy deref ≠ [] := by
    rw [healthy_eq]
    exact List.ne_nil_of_mem (List.mem_map_of_mem hmem)
  obtain ⟨b', -, -, hok⟩ := w.pick_of_healthy deref hne
  exact ⟨b', hok⟩

/-- Least connections takes the first eligible backend at least. -/
theorem LeastConnections.pick_isOk (deref : ρ → Server) (lc : LeastConnections ρ)
    (h : ∃ b ∈ lc.backends, (deref b).eligible) : ∃ b, lc.pick deref = .ok b := by
  have hsome : ∀ (bs : List ρ) (best : Option ρ),
      best.isSome ∨ (∃ b ∈ bs, (deref b).eligible) → (bs.foldl (lc.better deref) best).isSome := by
    intro bs
    induction bs with
    | nil => simp
    | cons b rest ih =>
      intro best hbest
      rw [List.foldl_cons]
      apply ih
      -- an eligible backend becomes the best or loses to one
      unfold LeastConnections.better
      by_cases helig : (deref b).eligible
      · left
        cases best with
        | none => simp [helig]
        | some a =>
          simp only [helig, Bool.not_true, Bool.false_eq_true, if_false]
          split <;> rfl
      · rcases hbest with hbest | ⟨x, hx, hxe⟩
        · left
          simpa [helig] using hbest
        · right
          rcases List.mem_cons.mp hx with rfl | hx
          · exact absurd hxe helig
          · exact ⟨x, hx, hxe⟩
  obtain ⟨b, hb⟩ := Option.isSome_iff_exists.mp (hsome lc.backends none (Or.inr h))
  exact ⟨b, by simp only [LeastConnections.pick, hb]⟩

/-- Positive weights with a sum that fits a signed 32-bit integer. -/
structure ValidWeights (server : ρ → Server) (backends : List ρ) : Prop where
  pos : ∀ b ∈ backends, 0 < (server b).weight
  sum_lt : (backends.map fun b => (server b).weight).sum < 2 ^ 31

/-- A 64-bit integer holds what is in its range. -/
theorem goInt_of_range (x : Int) (hlo : - 2 ^ 63 ≤ x) (hhi : x < 2 ^ 63) : goInt x = x := by
  unfold goInt
  exact Int.bmod_eq_of_le (by omega) (by omega)

/-- The total weight of candidates, without overflow. -/
theorem totalWeight_eq_sum (deref : ρ → Server) (cs : List ρ)
    (hpos : ∀ b ∈ cs, 0 < (deref b).weight)
    (hsum : (cs.map fun b => (deref b).weight).sum < 2 ^ 63) :
    totalWeight deref cs = (cs.map fun b => (deref b).weight).sum := by
  have hfold : ∀ (bs : List ρ) (acc : Int), 0 ≤ acc → (∀ b ∈ bs, 0 < (deref b).weight) →
      acc + (bs.map fun b => (deref b).weight).sum < 2 ^ 63 →
      bs.foldl (fun total b => goInt (total + (deref b).weight)) acc =
        acc + (bs.map fun b => (deref b).weight).sum := by
    intro bs
    induction bs with
    | nil => simp
    | cons b rest ih =>
      intro acc hacc hpos hlt
      have hb := hpos b List.mem_cons_self
      have hrest : ∀ x ∈ rest, 0 < (deref x).weight :=
        fun x hx => hpos x (List.mem_cons_of_mem b hx)
      have hnonneg : 0 ≤ (rest.map fun b => (deref b).weight).sum :=
        List.sum_nonneg (by simpa using fun x hx => (hrest x hx).le)
      rw [List.map_cons, List.sum_cons] at hlt ⊢
      rw [List.foldl_cons, goInt_of_range _ (by omega) (by omega),
        ih _ (by omega) hrest (by omega)]
      omega
  rw [totalWeight, hfold cs 0 (by omega) hpos (by omega), zero_add]

theorem candidates_ne_nil_iff (deref : ρ → Server) (backends : List ρ) :
    candidates deref backends ≠ [] ↔ ∃ b ∈ backends, (deref b).eligible := by
  simp [candidates, List.filter_eq_nil_iff]

/-- Only the division by the total weight keeps `Random` from a candidate. -/
theorem Random.pick_isOk (deref : ρ → Server) (draw : Nat) (rb : Random ρ)
    (h : ∃ b ∈ rb.backends, (deref b).eligible)
    (htotal : 0 < totalWeight deref (candidates deref rb.backends)) :
    ∃ b, rb.pick deref draw = .ok b := by
  have hne := (candidates_ne_nil_iff deref rb.backends).mpr h
  unfold Random.pick
  dsimp only
  split
  · rename_i hnil
    exact absurd hnil hne
  · exact ⟨_, rfl⟩
  · rw [if_neg (by omega)]
    exact ⟨_, rfl⟩

/-- The same for `IPHash` and the low half of the total weight. -/
theorem IPHash.pick_isOk (deref : ρ → Server) (key : String) (ih : IPHash ρ)
    (h : ∃ b ∈ ih.backends, (deref b).eligible)
    (htotal : (totalWeight deref (candidates deref ih.backends) % 2 ^ 32).toNat ≠ 0) :
    ∃ b, ih.pick deref key = .ok b := by
  have hne := (candidates_ne_nil_iff deref ih.backends).mpr h
  unfold IPHash.pick
  dsimp only
  split
  · rename_i hnil
    exact absurd hnil hne
  · exact ⟨_, rfl⟩
  · rw [if_neg htotal]
    exact ⟨_, rfl⟩

/-- The total weight of the candidates of a valid list. -/
theorem ValidWeights.totalWeight_range {deref : ρ → Server} {backends : List ρ}
    (hv : ValidWeights deref backends) (h : ∃ b ∈ backends, (deref b).eligible) :
    0 < totalWeight deref (candidates deref backends) ∧
      totalWeight deref (candidates deref backends) < 2 ^ 31 := by
  have hsub : (candidates deref backends).Sublist backends := List.filter_sublist
  have hpos : ∀ b ∈ candidates deref backends, 0 < (deref b).weight :=
    fun b hb => hv.pos b (hsub.subset hb)
  have hle : ((candidates deref backends).map fun b => (deref b).weight).sum ≤
      (backends.map fun b => (deref b).weight).sum := by
    refine (hsub.map _).sum_le_sum ?_
    simpa using fun b hb => (hv.pos b hb).le
  have hlt := hv.sum_lt
  rw [totalWeight_eq_sum deref _ hpos (by omega)]
  refine ⟨?_, by omega⟩
  apply List.sum_pos
  · simpa using hpos
  · simpa using (candidates_ne_nil_iff deref backends).mpr h

/-! ## One pick -/

/-- `Pick` fails exactly when no backend is eligible, and returns an eligible member
    otherwise. -/
structure LoadBalancer.PickExact (deref : ρ → Server) (draw : Nat) (key : String)
    (lb : LoadBalancer ρ) : Prop where
  error_iff : (∃ msg, (lb.pick deref draw key).1 = .error msg) ↔
    ∀ b ∈ lb.backends, ¬ (deref b).eligible
  ok : (∃ b ∈ lb.backends, (deref b).eligible) →
    ∃ b ∈ lb.backends, (deref b).eligible ∧ (lb.pick deref draw key).1 = .ok b

/-- Soundness leaves to show that `Pick` finds something where there is something. -/
theorem LoadBalancer.pickExact_iff (deref : ρ → Server) (draw : Nat) (key : String)
    (lb : LoadBalancer ρ) :
    lb.PickExact deref draw key ↔
      ((∃ b ∈ lb.backends, (deref b).eligible) → ∃ b, (lb.pick deref draw key).1 = .ok b) := by
  constructor
  · intro h hsome
    obtain ⟨b, -, -, hok⟩ := h.ok hsome
    exact ⟨b, hok⟩
  · intro h
    refine ⟨⟨?_, ?_⟩, ?_⟩
    · intro herr b hb helig
      obtain ⟨msg, herr⟩ := herr
      obtain ⟨b', hok⟩ := h ⟨b, hb, helig⟩
      cases herr.symm.trans hok
    · intro hnone
      cases hres : (lb.pick deref draw key).1 with
      | error msg => exact ⟨msg, rfl⟩
      | ok b =>
        obtain ⟨hb, helig⟩ := lb.pick_ok deref draw key b hres
        exact absurd helig (hnone b hb)
      | panic =>
        obtain ⟨b, hb, helig⟩ := lb.pick_panic deref draw key hres
        exact absurd helig (hnone b hb)
    · intro hsome
      obtain ⟨b, hok⟩ := h hsome
      obtain ⟨hb, helig⟩ := lb.pick_ok deref draw key b hok
      exact ⟨b, hb, helig, hok⟩

/-- If any backend is eligible, so is one that the scan of round robin visits. -/
def LoadBalancer.ScanReaches (deref : ρ → Server) : LoadBalancer ρ → Prop
  | .roundRobin r => (∃ b ∈ r.backends, (deref b).eligible) →
      ∃ p b, r.backends[p]? = some b ∧ (deref b).eligible ∧ ¬ r.Skips p
  | _ => True

theorem ValidWeights.length_lt {server : ρ → Server} {backends : List ρ}
    (h : ValidWeights server backends) : backends.length < 2 ^ 31 := by
  have hle : ∀ bs : List ρ, (∀ b ∈ bs, 0 < (server b).weight) →
      (bs.length : Int) ≤ (bs.map fun b => (server b).weight).sum := by
    intro bs
    induction bs with
    | nil => simp
    | cons b rest ih =>
      intro hpos
      obtain ⟨hb, hrest⟩ := List.forall_mem_cons.mp hpos
      have hle := ih hrest
      rw [List.length_cons, List.map_cons, List.sum_cons]
      push_cast
      omega
  have hlt := h.sum_lt
  have hlen := hle backends h.pos
  omega

/-- A pick of any algorithm from a valid list. -/
theorem LoadBalancer.pickExact_iff_scanReaches (deref : ρ → Server) (draw : Nat) (key : String)
    (lb : LoadBalancer ρ) (hv : ValidWeights deref lb.backends) :
    lb.PickExact deref draw key ↔ lb.ScanReaches deref := by
  rw [lb.pickExact_iff]
  cases lb with
  | weightedRoundRobin w => exact iff_of_true (w.pick_isOk deref) trivial
  | leastConnections lc => exact iff_of_true (lc.pick_isOk deref) trivial
  | random rb =>
    refine iff_of_true (fun hsome => ?_) trivial
    exact rb.pick_isOk deref draw hsome (hv.totalWeight_range hsome).1
  | ipHash ih =>
    refine iff_of_true (fun hsome => ?_) trivial
    obtain ⟨hpos, hlt⟩ : 0 < totalWeight deref (candidates deref ih.backends) ∧
        totalWeight deref (candidates deref ih.backends) < 2 ^ 31 := hv.totalWeight_range hsome
    exact ih.pick_isOk deref key hsome (by
      rw [Int.emod_eq_of_lt hpos.le (by omega)]
      omega)
  | roundRobin r =>
    refine imp_congr_right fun _ => ?_
    have hlen : r.backends.length < 2 ^ 64 := by
      have : r.backends.length < 2 ^ 31 := hv.length_lt
      omega
    have herr := r.pick_error_iff deref hlen
    -- the scan finds something or fails
    have hok : (∃ b, (r.pick deref).1 = .ok b) ↔ ¬ ∃ msg, (r.pick deref).1 = .error msg := by
      cases hres : (r.pick deref).1 with
      | ok b => simp
      | error msg => simp
      | panic => exact absurd hres (r.pick_ne_panic deref)
    show (∃ b, (r.pick deref).1 = .ok b) ↔ _
    rw [hok, herr]
    simp only [not_forall, exists_prop]

/-! ## Runs -/

/-- The state flags of a server. -/
structure Flags where
  healthy : Bool
  draining : Bool
  circuitOpen : Bool

/-- The servers behind the handles, with the flags they have at a call. -/
def withFlags (server : ρ → Server) (flags : ρ → Flags) (b : ρ) : Server :=
  { server b with
    healthy := (flags b).healthy, draining := (flags b).draining
    circuitOpen := (flags b).circuitOpen }

/-- The calls on a balancer. -/
inductive BalancerCall (ρ : Type) where
  | pick (flags : ρ → Flags) (draw : Nat) (key : String)
  | acquire (addr : String)
  | release (addr : String)
  | updateBackends (backends : List ρ)

/-- A balancer after a call. -/
def LoadBalancer.call (server : ρ → Server) (lb : LoadBalancer ρ) : BalancerCall ρ → LoadBalancer ρ
  | .pick flags draw key => (lb.pick (withFlags server flags) draw key).2
  | .acquire addr => lb.acquire addr
  | .release addr => lb.release addr
  | .updateBackends bs => lb.updateBackends server bs

/-- The call is no `Pick`, or an exact one. -/
def LoadBalancer.CallExact (server : ρ → Server) (lb : LoadBalancer ρ) : BalancerCall ρ → Prop
  | .pick flags draw key => lb.PickExact (withFlags server flags) draw key
  | _ => True

/-- The call is no `Pick`, or one whose scan reaches an eligible backend. -/
def LoadBalancer.CallReaches (server : ρ → Server) (lb : LoadBalancer ρ) : BalancerCall ρ → Prop
  | .pick flags _ _ => lb.ScanReaches (withFlags server flags)
  | _ => True

/-- The call installs valid weights if it installs any. -/
def BalancerCall.Valid (server : ρ → Server) : BalancerCall ρ → Prop
  | .updateBackends bs => ValidWeights server bs
  | _ => True

@[simp] theorem LoadBalancer.updateBackends_backends (server : ρ → Server) (lb : LoadBalancer ρ)
    (bs : List ρ) : (lb.updateBackends server bs).backends = bs := by
  cases lb <;> rfl

@[simp] theorem newBalancer_backends (algorithm : String) (server : ρ → Server)
    (backends : List ρ) : (newBalancer algorithm server backends).backends = backends := by
  unfold newBalancer
  split_ifs <;> rfl

/-- A call keeps the weights valid. -/
theorem ValidWeights.call {server : ρ → Server} {lb : LoadBalancer ρ}
    (h : ValidWeights server lb.backends) (k : BalancerCall ρ) (hk : k.Valid server) :
    ValidWeights server (lb.call server k).backends := by
  cases k with
  | pick flags draw key => simpa [LoadBalancer.call] using h
  | acquire addr => simpa [LoadBalancer.call] using h
  | release addr => simpa [LoadBalancer.call] using h
  | updateBackends bs =>
    rw [LoadBalancer.call, LoadBalancer.updateBackends_backends]
    exact hk

/-- Along every run of every algorithm, all picks are exact exactly when every scan of
    round robin reaches an eligible backend if there is one. -/
theorem picks_exact_iff (server : ρ → Server) (algorithm : String) (backends : List ρ)
    (hv : ValidWeights server backends) (run : List (BalancerCall ρ))
    (hrun : ∀ k ∈ run, k.Valid server) :
    List.Along (LoadBalancer.call server) (LoadBalancer.CallExact server)
        (newBalancer algorithm server backends) run ↔
      List.Along (LoadBalancer.call server) (LoadBalancer.CallReaches server)
        (newBalancer algorithm server backends) run := by
  refine List.along_iff _ _ _ (BalancerCall.Valid server)
    (fun lb => ValidWeights server lb.backends) (fun lb k hk h _ => h.call k hk) ?_ _ (by simpa)
    run hrun
  intro lb k _ h
  cases k with
  | pick flags draw key =>
    -- flags have no part in the weights
    have hv' : ValidWeights (withFlags server flags) lb.backends := ⟨h.pos, h.sum_lt⟩
    exact lb.pickExact_iff_scanReaches _ draw key hv'
  | acquire _ | release _ | updateBackends _ => exact Iff.rfl

/-- Three backends of weight 1. -/
def threeServers (_ : Nat) : Server := newServer "10.0.0.1:8080" 1

private theorem threeServers_valid : ValidWeights threeServers [0, 1, 2] :=
  ⟨fun _ _ => Int.one_pos, by decide⟩

/-- Everything is up. -/
def allUp (_ : Nat) : Flags := { healthy := true, draining := false, circuitOpen := false }

/-- Only backend 1 is up. -/
def onlyOne (b : Nat) : Flags := { healthy := b = 1, draining := false, circuitOpen := false }

/-- A pick of round robin, its replacement by a shorter list and a pick from that. -/
theorem picks_exact_iff_update :
    List.Along (LoadBalancer.call threeServers) (LoadBalancer.CallExact threeServers)
        (newBalancer "round_robin" threeServers [0, 1, 2])
        [.pick allUp 0 "", .updateBackends [1], .pick onlyOne 0 ""] ↔
      List.Along (LoadBalancer.call threeServers) (LoadBalancer.CallReaches threeServers)
        (newBalancer "round_robin" threeServers [0, 1, 2])
        [.pick allUp 0 "", .updateBackends [1], .pick onlyOne 0 ""] :=
  picks_exact_iff threeServers "round_robin" [0, 1, 2] threeServers_valid _ (by
    simpa [BalancerCall.Valid] using
      (⟨fun _ _ => Int.one_pos, by decide⟩ : ValidWeights threeServers [1]))

/-- Every pick of round robin moves its counter on. -/
theorem RoundRobin.pick_next (deref : ρ → Server) (r : RoundRobin ρ) (h : r.backends ≠ []) :
    (r.pick deref).2 = { r with next := r.next + 1 } := by
  unfold RoundRobin.pick
  dsimp only
  rw [if_neg (by simpa using h)]
  split <;> rfl

/-- The counter after many picks. -/
theorem roundRobin_after_picks (server : ρ → Server) (flags : ρ → Flags) (r : RoundRobin ρ)
    (h : r.backends ≠ []) (k : Nat) :
    (List.replicate k (BalancerCall.pick flags 0 "")).foldl (LoadBalancer.call server)
      (.roundRobin r) = .roundRobin { r with next := r.next + k.toUInt64 } := by
  induction k generalizing r with
  | zero => simp
  | succ k ih =>
    rw [List.replicate_succ, List.foldl_cons]
    have hcall : LoadBalancer.call server (.roundRobin r) (.pick flags 0 "") =
        .roundRobin { r with next := r.next + 1 } := by
      simp only [LoadBalancer.call, LoadBalancer.pick, r.pick_next _ h]
    rw [hcall, ih { r with next := r.next + 1 } h]
    simp only [LoadBalancer.roundRobin.injEq, RoundRobin.mk.injEq, true_and]
    rw [UInt64.add_assoc]
    congr 1
    simp [Nat.toUInt64, UInt64.ofNat_add, UInt64.add_comm]

/-- Round robin over three backends, two picks before its counter wraps, with only the
    second backend up: the scan visits the positions 2, 0 and 0. -/
theorem wrapped_scan_misses_backend :
    ¬ List.Along (LoadBalancer.call threeServers) (LoadBalancer.CallExact threeServers)
      (newBalancer "round_robin" threeServers [0, 1, 2])
      (List.replicate (2 ^ 64 - 2) (.pick allUp 0 "") ++ [.pick onlyOne 0 ""]) := by
  intro hrun
  obtain ⟨-, hlast, -⟩ := (List.along_append _ _ _ _ _).mp hrun
  have hstart : newBalancer "round_robin" threeServers [0, 1, 2] =
      .roundRobin { backends := [0, 1, 2], next := 0 } := rfl
  rw [hstart, roundRobin_after_picks threeServers allUp _ (by simp)] at hlast
  obtain ⟨b, -, -, hok⟩ := LoadBalancer.PickExact.ok hlast ⟨1, by decide, by decide⟩
  have herr : ((LoadBalancer.roundRobin
      { backends := [0, 1, 2], next := 0 + (2 ^ 64 - 2).toUInt64 }).pick
        (withFlags threeServers onlyOne) 0 "").1 = .error "no healthy backends available" := by
    decide +kernel
  cases herr.symm.trans hok

/-! ## The range of the current weights -/

/-- The current weights of weighted round robin have kept together. -/
structure WeightedRoundRobin.InRange (server : ρ → Server) (w : WeightedRoundRobin ρ) : Prop where
  length_eq : w.currentWeights.length = w.backends.length
  spread : SmoothSchedule.Spread (Finset.range w.backends.length) (weightAt server w.backends)
    w.credit

section InRange

variable {server : ρ → Server}

theorem ValidWeights.weightAt_pos {backends : List ρ} (hv : ValidWeights server backends) :
    ∀ j ∈ Finset.range backends.length, 0 < weightAt server backends j := by
  intro j hj
  have hlt := Finset.mem_range.mp hj
  simpa [weightAt, hlt] using hv.pos _ (List.getElem_mem hlt)

/-- A new balancer starts from zero. -/
theorem WeightedRoundRobin.inRange_new {backends : List ρ} (hv : ValidWeights server backends) :
    (newWeightedRoundRobin server backends).InRange server where
  length_eq := by simp [newWeightedRoundRobin]
  spread := SmoothSchedule.Spread.of_zero hv.weightAt_pos fun j _ =>
    newWeightedRoundRobin_credit server backends j

/-- A pick keeps the current weights together, whichever backends are eligible. -/
theorem WeightedRoundRobin.InRange.pick {w : WeightedRoundRobin ρ} (h : w.InRange server)
    (hv : ValidWeights server w.backends) (flags : ρ → Flags) :
    (w.pick (withFlags server flags)).2.InRange server := by
  by_cases hnil : eligibleIdx (withFlags server flags) w.backends = []
  · have hsame : (w.pick (withFlags server flags)).2 = w := by
      have hhealthy : w.healthy (withFlags server flags) = [] := by rw [healthy_eq, hnil]; rfl
      unfold WeightedRoundRobin.pick
      simp only [hhealthy]
      split <;> rfl
    rw [hsame]
    exact h
  · obtain ⟨i, -, hround, hother, hlen, hback, -⟩ :=
      pick_round (withFlags server flags) w h.length_eq hnil
    refine ⟨by rw [hlen, hback, h.length_eq], ?_⟩
    rw [hback]
    refine hround.spread hother ?_ hv.weightAt_pos h.spread
    intro j hj
    exact Finset.mem_range.mpr (eligibleIdx_lt _ _ j (List.mem_toFinset.mp hj))

/-- The weights at the positions of a list add up to those of its backends. -/
theorem total_range_eq_sum (backends : List ρ) :
    SmoothSchedule.total (Finset.range backends.length) (weightAt server backends) =
      (backends.map fun b => (server b).weight).sum := by
  have hlist : (backends.map fun b => (server b).weight) =
      (List.range backends.length).map (weightAt server backends) := by
    apply List.ext_getElem
    · simp
    · intro k hk _
      have hk : k < backends.length := by simpa using hk
      simp [weightAt, hk]
  have hrange : Finset.range backends.length = (List.range backends.length).toFinset := by
    ext k
    simp
  rw [SmoothSchedule.total, hlist, hrange, List.sum_toFinset _ List.nodup_range]

/-- Current weights that have kept together are far inside the range of a 64-bit integer. -/
theorem WeightedRoundRobin.InRange.abs_lt {w : WeightedRoundRobin ρ} (h : w.InRange server)
    (hv : ValidWeights server w.backends) : ∀ c ∈ w.currentWeights, |c| < 2 ^ 62 := by
  intro c hc
  obtain ⟨j, hj⟩ := List.getElem?_of_mem hc
  have hjlt : j < w.backends.length := by
    rw [← h.length_eq]
    exact (List.getElem?_eq_some_iff.mp hj).1
  have hcredit : w.credit j = c := by simp [WeightedRoundRobin.credit, hj]
  have hle := h.spread.credit_abs_le (Finset.mem_range.mpr hjlt)
  rw [hcredit, Finset.card_range] at hle
  have hlen := hv.length_lt
  have hnonneg : 0 ≤ (w.backends.map fun b => (server b).weight).sum :=
    List.sum_nonneg (by simpa using fun b hb => (hv.pos b hb).le)
  rw [total_range_eq_sum] at hle
  calc |c| ≤ (w.backends.map fun b => (server b).weight).sum * (w.backends.length - 1) := hle
    _ < 2 ^ 31 * 2 ^ 31 := mul_lt_mul'' hv.sum_lt (by omega) hnonneg (by omega)
    _ = 2 ^ 62 := by norm_num

/-- The range of a balancer's counters. -/
def LoadBalancer.InRange (server : ρ → Server) : LoadBalancer ρ → Prop
  | .weightedRoundRobin w => w.InRange server
  | _ => True

/-- A call keeps the current weights together. -/
theorem LoadBalancer.InRange.call {lb : LoadBalancer ρ} (h : lb.InRange server)
    (hv : ValidWeights server lb.backends) (k : BalancerCall ρ) (hk : k.Valid server) :
    (lb.call server k).InRange server := by
  cases lb with
  | weightedRoundRobin w =>
    cases k with
    | pick flags draw key => exact WeightedRoundRobin.InRange.pick h hv flags
    | acquire addr => exact h
    | release addr => exact h
    | updateBackends bs => exact WeightedRoundRobin.inRange_new hk
  | roundRobin _ | leastConnections _ | random _ | ipHash _ => cases k <;> trivial

/-- In every state a balancer reaches, the current weights of weighted round robin and
    what a pick adds to them fit a 64-bit integer: `Pick` may be modelled with
    unbounded ones. -/
theorem weights_fit_int64 (algorithm : String) (backends : List ρ)
    (hv : ValidWeights server backends) (run : List (BalancerCall ρ))
    (hrun : ∀ k ∈ run, k.Valid server) (w : WeightedRoundRobin ρ)
    (hw : run.foldl (LoadBalancer.call server) (newBalancer algorithm server backends) =
      .weightedRoundRobin w) : ∀ c ∈ w.currentWeights, |c| < 2 ^ 62 := by
  have hstart : (newBalancer algorithm server backends).InRange server := by
    unfold newBalancer
    split_ifs
    all_goals first | trivial | exact WeightedRoundRobin.inRange_new hv
  have hinv := List.foldl_along (LoadBalancer.call server) (fun _ k => k.Valid server)
    (fun lb => ValidWeights server lb.backends ∧ lb.InRange server)
    (fun lb k h hk => ⟨h.1.call k hk, h.2.call h.1 k hk⟩) _ ⟨by simpa using hv, hstart⟩ run
    (List.along_of_forall _ _ _ run hrun)
  rw [hw] at hinv
  exact WeightedRoundRobin.InRange.abs_lt hinv.2 hinv.1

end InRange

theorem weights_fit_int64_two_picks :
    ([-1, -1, 2] : List Int).length = 3 ∧ ∀ c ∈ ([-1, -1, 2] : List Int), |c| < 2 ^ 62 :=
  ⟨rfl, weights_fit_int64 "weighted_round_robin" [0, 1, 2] threeServers_valid
    [.pick allUp 0 "", .pick allUp 0 ""] (by simp [BalancerCall.Valid])
    { backends := [0, 1, 2], currentWeights := [-1, -1, 2], totalWeight := 3 } (by decide +kernel)⟩

end HootLb.Balancer
