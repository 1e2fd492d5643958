import HootLb.Native.PoolState

/-!
# Selection soundness

Whatever the algorithm, its internal state, the random draw and the client key,
a backend that `Pick` returns is a member of the balancer's list and passes the
eligibility test at the time of the call. We prove this per algorithm and
combine the five into `LoadBalancer.pick_ok`.

## Key results

- `LoadBalancer.pick_ok`: a picked backend is an eligible member
- `LoadBalancer.pick_backends`: `Pick` never changes the list it selects from
- `PoolState.pick_ok`: the same for the balancer of a pool state
-/

namespace HootLb.Balancer

variable {ρ : Type}

/-! ## Weighted round robin -/

/-- The scan's winner is the best it started with or one of the candidates. -/
private theorem scan_best_mem (weights : List Int) (best : Option (Nat × Int))
    (cs : List (Nat × Int)) (idx : Nat) (w : Int)
    (h : (WeightedRoundRobin.scan weights best cs).2 = some (idx, w)) :
    best.map (·.1) = some idx ∨ idx ∈ cs.map (·.1) := by
  induction cs generalizing weights best with
  | nil => simp only [WeightedRoundRobin.scan] at h; left; rw [h]; rfl
  | cons c rest ih =>
    obtain ⟨i, wi⟩ := c
    simp only [WeightedRoundRobin.scan] at h
    cases best with
    | none =>
      rcases ih _ _ h with hb | hr
      · simp only [Option.map_some, Option.some.injEq] at hb
        right; simp [hb]
      · right; simp [hr]
    | some b =>
      rcases ih _ _ h with hb | hr
      · split at hb
        · simp only [Option.map_some, Option.some.injEq] at hb
          right; simp [hb]
        · left; exact hb
      · right; simp [hr]

/-- Starting from a best or from a non-empty candidate list, the scan has a winner. -/
theorem scan_best_isSome (weights : List Int) (best : Option (Nat × Int))
    (cs : List (Nat × Int)) (h : best.isSome ∨ cs ≠ []) :
    (WeightedRoundRobin.scan weights best cs).2.isSome := by
  induction cs generalizing weights best with
  | nil =>
    rcases h with h | h
    · simpa only [WeightedRoundRobin.scan] using h
    · exact absurd rfl h
  | cons c rest ih =>
    obtain ⟨i, wi⟩ := c
    simp only [WeightedRoundRobin.scan]
    cases best with
    | none => exact ih _ _ (Or.inl rfl)
    | some b => exact ih _ _ (Or.inl (by split <;> rfl))

/-- Every index among the healthy candidates is the index of an eligible backend. -/
private theorem healthy_mem (deref : ρ → Server) (w : WeightedRoundRobin ρ) (idx : Nat)
    (h : idx ∈ (w.healthy deref).map (·.1)) :
    ∃ b, w.backends[idx]? = some b ∧ (deref b).eligible := by
  simp only [WeightedRoundRobin.healthy, List.map_map, List.mem_map, List.mem_filter] at h
  obtain ⟨⟨b, i⟩, ⟨hmem, helig⟩, hidx⟩ := h
  simp only [Function.comp_apply] at hidx
  subst hidx
  exact ⟨b, List.mem_zipIdx_iff_getElem?.mp hmem, helig⟩

/-- With candidates, `Pick` settles on one of them. -/
theorem WeightedRoundRobin.pick_of_healthy (deref : ρ → Server) (w : WeightedRoundRobin ρ)
    (h : w.healthy deref ≠ []) :
    ∃ b ∈ w.backends, (deref b).eligible ∧ (w.pick deref).1 = .ok b := by
  have hnonempty : w.backends.length ≠ 0 := by
    intro hzero
    exact h (by simp [WeightedRoundRobin.healthy, List.length_eq_zero_iff.mp hzero])
  unfold WeightedRoundRobin.pick
  rw [if_neg hnonempty]
  dsimp only
  -- both selecting branches look up an index of a healthy candidate
  split
  · rename_i hnil
    exact absurd hnil h
  · rename_i c hc
    obtain ⟨b, hb, helig⟩ := healthy_mem deref w c.1 (by rw [hc]; simp)
    exact ⟨b, List.mem_of_getElem? hb, helig, by rw [hb]⟩
  · rename_i hne _
    have hsome := scan_best_isSome w.currentWeights none (w.healthy deref) (Or.inr hne)
    obtain ⟨⟨idx, cw⟩, hbest⟩ := Option.isSome_iff_exists.mp hsome
    have hidx : idx ∈ (w.healthy deref).map (·.1) := by
      rcases scan_best_mem _ _ _ _ _ hbest with hb | hm
      · cases hb
      · exact hm
    obtain ⟨b, hb, helig⟩ := healthy_mem deref w idx hidx
    exact ⟨b, List.mem_of_getElem? hb, helig, by
      simp only [hbest, Option.map_some, Option.getD_some, hb]⟩

/-- Without candidates, `Pick` fails. -/
theorem WeightedRoundRobin.pick_of_healthy_nil (deref : ρ → Server) (w : WeightedRoundRobin ρ)
    (h : w.healthy deref = []) : ∃ msg, (w.pick deref).1 = .error msg := by
  unfold WeightedRoundRobin.pick
  simp only [h]
  split <;> exact ⟨_, rfl⟩

private theorem wrr_pick_ok (deref : ρ → Server) (w : WeightedRoundRobin ρ) (b : ρ)
    (h : (w.pick deref).1 = .ok b) : b ∈ w.backends ∧ (deref b).eligible := by
  by_cases hnil : w.healthy deref = []
  · obtain ⟨msg, herr⟩ := w.pick_of_healthy_nil deref hnil
    exact nomatch herr.symm.trans h
  · obtain ⟨b', hmem, helig, hok⟩ := w.pick_of_healthy deref hnil
    cases hok.symm.trans h
    exact ⟨hmem, helig⟩

theorem WeightedRoundRobin.pick_ne_panic (deref : ρ → Server) (w : WeightedRoundRobin ρ) :
    (w.pick deref).1 ≠ .panic := by
  intro h
  by_cases hnil : w.healthy deref = []
  · obtain ⟨msg, herr⟩ := w.pick_of_healthy_nil deref hnil
    exact nomatch herr.symm.trans h
  · obtain ⟨b, -, -, hok⟩ := w.pick_of_healthy deref hnil
    exact nomatch hok.symm.trans h

private theorem wrr_pick_backends (deref : ρ → Server) (w : WeightedRoundRobin ρ) :
    (w.pick deref).2.backends = w.backends := by
  unfold WeightedRoundRobin.pick
  split
  · rfl
  · dsimp only
    split <;> rfl

/-! ## Round robin -/

private theorem rr_pick_ok (deref : ρ → Server) (r : RoundRobin ρ) (b : ρ)
    (h : (r.pick deref).1 = .ok b) : b ∈ r.backends ∧ (deref b).eligible := by
  unfold RoundRobin.pick at h
  dsimp only at h
  split at h
  · exact nomatch h
  · split at h
    · rename_i hfind
      cases h
      obtain ⟨i, -, hvisit⟩ := List.exists_of_findSome?_eq_some hfind
      rw [Option.filter_eq_some_iff] at hvisit
      exact ⟨List.mem_of_getElem? hvisit.1, hvisit.2⟩
    · exact nomatch h

theorem RoundRobin.pick_ne_panic (deref : ρ → Server) (r : RoundRobin ρ) :
    (r.pick deref).1 ≠ .panic := by
  unfold RoundRobin.pick
  dsimp only
  split
  · exact fun h => by cases h
  · split <;> exact fun h => by cases h

private theorem rr_pick_backends (deref : ρ → Server) (r : RoundRobin ρ) :
    (r.pick deref).2.backends = r.backends := by
  unfold RoundRobin.pick
  dsimp only
  split
  · rfl
  · split <;> rfl

/-! ## Least connections -/

/-- One step of the scan keeps the old best or takes the visited backend, which
    is then eligible. -/
private theorem better_cases (deref : ρ → Server) (lc : LeastConnections ρ) (best : Option ρ)
    (b a : ρ) (h : lc.better deref best b = some a) :
    best = some a ∨ (a = b ∧ (deref b).eligible) := by
  unfold LeastConnections.better at h
  split at h
  · left; exact h
  · rename_i helig
    have helig : (deref b).eligible := by simpa using helig
    split at h
    · cases h; exact Or.inr ⟨rfl, helig⟩
    · dsimp only at h
      split at h
      · cases h; exact Or.inr ⟨rfl, helig⟩
      · left; exact h

/-- The scan's result is the best it started with or an eligible backend it visited. -/
private theorem foldl_better (deref : ρ → Server) (lc : LeastConnections ρ) (bs : List ρ)
    (best : Option ρ) (a : ρ) (h : bs.foldl (lc.better deref) best = some a) :
    best = some a ∨ (a ∈ bs ∧ (deref a).eligible) := by
  induction bs generalizing best with
  | nil => left; exact h
  | cons x rest ih =>
    rw [List.foldl_cons] at h
    rcases ih _ h with hbest | ⟨hmem, helig⟩
    · rcases better_cases deref lc best x a hbest with hb | ⟨rfl, helig⟩
      · left; exact hb
      · right; exact ⟨List.mem_cons_self, helig⟩
    · right; exact ⟨List.mem_cons_of_mem _ hmem, helig⟩

private theorem lc_pick_ok (deref : ρ → Server) (lc : LeastConnections ρ) (b : ρ)
    (h : lc.pick deref = .ok b) : b ∈ lc.backends ∧ (deref b).eligible := by
  unfold LeastConnections.pick at h
  split at h
  · exact nomatch h
  · rename_i hbest
    cases h
    rcases foldl_better deref lc lc.backends none b hbest with hb | hm
    · exact nomatch hb
    · exact hm

theorem LeastConnections.pick_ne_panic (deref : ρ → Server) (lc : LeastConnections ρ) :
    lc.pick deref ≠ .panic := by
  unfold LeastConnections.pick
  split <;> exact fun h => by cases h

theorem LeastConnections.count_acquire (lc : LeastConnections ρ) (addr other : String) :
    (lc.acquire addr).count other = lc.count other + if addr = other then 1 else 0 := by
  unfold LeastConnections.acquire LeastConnections.count
  by_cases h : addr = other
  · subst h
    rw [AList.lookup_insert, if_pos rfl, Option.getD_some]
  · rw [AList.lookup_insert_ne (Ne.symm h), if_neg h, Nat.add_zero]

theorem LeastConnections.count_release (lc : LeastConnections ρ) (addr other : String) :
    (lc.release addr).count other = lc.count other - if addr = other then 1 else 0 := by
  unfold LeastConnections.release
  by_cases h : addr = other
  · subst h
    rw [if_pos rfl]
    split
    · unfold LeastConnections.count
      rw [AList.lookup_insert, Option.getD_some]
    · omega
  · rw [if_neg h, Nat.sub_zero]
    split
    · unfold LeastConnections.count
      rw [AList.lookup_insert_ne (Ne.symm h)]
    · rfl

/-! ## Weighted random and client hashing -/

private theorem walk_mem (deref : ρ → Server) (last : ρ) (target : Int) (cs : List ρ) :
    walk deref last target cs = last ∨ walk deref last target cs ∈ cs := by
  induction cs generalizing target with
  | nil => left; rfl
  | cons c rest ih =>
    simp only [walk]
    split
    · right; simp
    · rcases ih (goInt (target - (deref c).weight)) with hl | hr
      · left; exact hl
      · right; exact List.mem_cons_of_mem _ hr

private theorem candidates_mem (deref : ρ → Server) (backends : List ρ) (b : ρ)
    (h : b ∈ candidates deref backends) : b ∈ backends ∧ (deref b).eligible := by
  simpa only [candidates, List.mem_filter] using h

/-- The walk over a non-empty candidate list ends at a candidate. -/
private theorem walk_candidate (deref : ρ → Server) (backends : List ρ) (c : ρ) (rest : List ρ)
    (hcs : candidates deref backends = c :: rest) (target : Int) :
    walk deref ((c :: rest).getLast (by simp)) target (candidates deref backends) ∈ backends ∧
      (deref (walk deref ((c :: rest).getLast (by simp)) target
        (candidates deref backends))).eligible := by
  apply candidates_mem
  rcases walk_mem deref ((c :: rest).getLast (by simp)) target (candidates deref backends)
    with hl | hm
  · rw [hl, hcs]; exact List.getLast_mem _
  · exact hm

private theorem random_pick_ok (deref : ρ → Server) (draw : Nat) (rb : Random ρ) (b : ρ)
    (h : rb.pick deref draw = .ok b) : b ∈ rb.backends ∧ (deref b).eligible := by
  unfold Random.pick at h
  dsimp only at h
  split at h
  · exact nomatch h
  · rename_i c hc
    cases h
    exact candidates_mem deref _ _ (by rw [hc]; simp)
  · rename_i c rest _ hc
    split at h
    · exact nomatch h
    · cases h
      exact walk_candidate deref rb.backends c rest hc _

private theorem ipHash_pick_ok (deref : ρ → Server) (key : String) (ih : IPHash ρ) (b : ρ)
    (h : ih.pick deref key = .ok b) : b ∈ ih.backends ∧ (deref b).eligible := by
  unfold IPHash.pick at h
  dsimp only at h
  split at h
  · exact nomatch h
  · rename_i c hc
    cases h
    exact candidates_mem deref _ _ (by rw [hc]; simp)
  · rename_i c rest _ hc
    split at h
    · exact nomatch h
    · cases h
      exact walk_candidate deref ih.backends c rest hc _

/-! ## All algorithms -/

/-- A backend that `Pick` returns is a member of the balancer's list and is
    eligible, for every algorithm, state, draw and client key. -/
theorem LoadBalancer.pick_ok (deref : ρ → Server) (draw : Nat) (key : String)
    (lb : LoadBalancer ρ) (b : ρ) (h : (lb.pick deref draw key).1 = .ok b) :
    b ∈ lb.backends ∧ (deref b).eligible := by
  cases lb with
  | roundRobin lb => exact rr_pick_ok deref lb b h
  | weightedRoundRobin lb => exact wrr_pick_ok deref lb b h
  | leastConnections lb => exact lc_pick_ok deref lb b h
  | random lb => exact random_pick_ok deref draw lb b h
  | ipHash lb => exact ipHash_pick_ok deref key lb b h

/-- `Pick` never changes the list it selects from. -/
@[simp] theorem LoadBalancer.pick_backends (deref : ρ → Server) (draw : Nat) (key : String)
    (lb : LoadBalancer ρ) : (lb.pick deref draw key).2.backends = lb.backends := by
  cases lb with
  | roundRobin lb => exact rr_pick_backends deref lb
  | weightedRoundRobin lb => exact wrr_pick_backends deref lb
  | leastConnections _ | random _ | ipHash _ => rfl

@[simp] theorem LoadBalancer.acquire_backends (lb : LoadBalancer ρ) (addr : String) :
    (lb.acquire addr).backends = lb.backends := by
  cases lb <;> rfl

@[simp] theorem LoadBalancer.release_backends (lb : LoadBalancer ρ) (addr : String) :
    (lb.release addr).backends = lb.backends := by
  cases lb with
  | leastConnections lc =>
    simp only [LoadBalancer.release, LoadBalancer.backends, LeastConnections.release]
    split <;> rfl
  | roundRobin _ | weightedRoundRobin _ | random _ | ipHash _ => rfl

/-- A panic comes from the arithmetic over eligible backends. -/
theorem LoadBalancer.pick_panic (deref : ρ → Server) (draw : Nat) (key : String)
    (lb : LoadBalancer ρ) (h : (lb.pick deref draw key).1 = .panic) :
    ∃ b ∈ lb.backends, (deref b).eligible := by
  cases lb with
  | roundRobin r => exact absurd h (r.pick_ne_panic deref)
  | weightedRoundRobin w => exact absurd h (w.pick_ne_panic deref)
  | leastConnections lc => exact absurd h (lc.pick_ne_panic deref)
  | random r =>
    simp only [LoadBalancer.pick, Random.pick] at h
    cases hcs : candidates deref r.backends with
    | nil => simp [hcs] at h
    | cons b rest => exact ⟨b, candidates_mem deref r.backends b (by rw [hcs]; simp)⟩
  | ipHash ih =>
    simp only [LoadBalancer.pick, IPHash.pick] at h
    cases hcs : candidates deref ih.backends with
    | nil => simp [hcs] at h
    | cons b rest => exact ⟨b, candidates_mem deref ih.backends b (by rw [hcs]; simp)⟩

/-- Releasing a list of addresses, one after the other. -/
theorem connCount_releases (lc : LeastConnections ρ) (addrs : List String) (addr : String) :
    (addrs.foldl (fun lb a => lb.release a) (LoadBalancer.leastConnections lc)).connCount addr =
      lc.count addr - addrs.count addr := by
  induction addrs generalizing lc with
  | nil => rfl
  | cons a rest ih =>
    rw [List.foldl_cons, LoadBalancer.release, ih, LeastConnections.count_release, List.count_cons]
    by_cases h : a = addr
    · simp only [h, if_true, beq_self_eq_true]
      omega
    · simp [h]

theorem releases_leastConnections (lc : LeastConnections ρ) (addrs : List String) :
    ∃ lc', addrs.foldl (fun lb a => lb.release a) (LoadBalancer.leastConnections lc) =
      .leastConnections lc' := by
  induction addrs generalizing lc with
  | nil => exact ⟨lc, rfl⟩
  | cons a rest ih => exact ih (lc.release a)

end HootLb.Balancer

namespace HootLb.Runtime

open Balancer

/-- A handle that the pool's `Pick` returns names an eligible server. -/
theorem PoolState.pick_ok (ps : PoolState) (draw : Nat) (key : String) (i : Nat)
    (h : (ps.pick draw key).1 = .ok i) :
    ∃ s, ps.servers[i]? = some s ∧ s.eligible := by
  have helig := (LoadBalancer.pick_ok ps.deref draw key ps.lb i h).2
  unfold PoolState.deref derefIn at helig
  cases hs : ps.servers[i]? with
  | none =>
    rw [List.getD_eq_getElem?_getD, hs] at helig
    exact nomatch helig
  | some s =>
    rw [List.getD_eq_getElem?_getD, hs] at helig
    exact ⟨s, rfl, helig⟩

end HootLb.Runtime
