import Mathlib.Data.List.Sublists
import HootLb.Spec.Hysteresis
import HootLb.Spec.PickComplete
import HootLb.Spec.ReloadedSettings

/-!
# Validity of reachable pools

Backends enter a pool by the configuration file, by the admin API and from a
discovery source; only the first door has a validator. This module determines the
runs of the process in which all servers keep a positive weight and a well-formed
address and no pool gets weights with which `Pick` can panic.

## Key results

- `LoadBalancer.neverPanics_iff`: the lists of weights on which no pick panics
- `PoolState.BuiltFrom.valid_iff`: when a pool just built is valid
- `System.poolsValid_step_iff`: one operation of the process
- `pools_valid_iff`: whole runs from startup
-/

namespace HootLb.Balancer

variable {ρ : Type}

/-! ## Panics -/

/-- The total of weights in a 64-bit `int`. -/
def wrappedTotal (ws : List Int) : Int := ws.foldl (fun total w => goInt (total + w)) 0

/-- A total an algorithm can draw from: `Intn` wants it positive, `IPHash` divides by
    its low half. -/
def UsableTotal (algorithm : String) (total : Int) : Prop :=
  (algorithm = "random" → 0 < total) ∧ (algorithm = "ip_hash" → (total % 2 ^ 32).toNat ≠ 0)

instance (algorithm : String) (total : Int) : Decidable (UsableTotal algorithm total) :=
  inferInstanceAs (Decidable (_ ∧ _))

/-- Whichever backends are eligible, the total of their weights can be drawn from. A
    single eligible backend is taken without a draw. -/
def SafeWeights (algorithm : String) (ws : List Int) : Prop :=
  ∀ l ∈ ws.sublists, 2 ≤ l.length → UsableTotal algorithm (wrappedTotal l)

instance (algorithm : String) (ws : List Int) : Decidable (SafeWeights algorithm ws) :=
  inferInstanceAs (Decidable (∀ l ∈ ws.sublists, _))

/-- Positive weights add up as integers do as long as the total fits. -/
theorem wrappedTotal_eq_sum (ws : List Int) (hpos : ∀ w ∈ ws, 0 < w) (hsum : ws.sum < 2 ^ 63) :
    wrappedTotal ws = ws.sum := by
  have h := totalWeight_eq_sum (newServer "") ws hpos (by simpa [newServer] using hsum)
  simpa [totalWeight, wrappedTotal, newServer] using h

/-- Positive weights with a total below the divisor's range are safe for every algorithm. -/
theorem safeWeights_of_pos (algorithm : String) (ws : List Int) (hpos : ∀ w ∈ ws, 0 < w)
    (hsum : ws.sum < 2 ^ 32) : SafeWeights algorithm ws := by
  intro l hl htwo
  have hsub : l.Sublist ws := List.mem_sublists.mp hl
  have hle : l.sum ≤ ws.sum := hsub.sum_le_sum fun w hw => (hpos w hw).le
  have hlpos : ∀ w ∈ l, 0 < w := fun w hw => hpos w (hsub.subset hw)
  have hlsum : 0 < l.sum := List.sum_pos l hlpos (by rintro rfl; simp at htwo)
  rw [wrappedTotal_eq_sum l hlpos (by omega)]
  exact ⟨fun _ => hlsum, fun _ => by omega⟩

/-- No pick panics, whatever the flags of the servers. -/
def LoadBalancer.NeverPanics (server : ρ → Server) (lb : LoadBalancer ρ) : Prop :=
  ∀ flags draw key, (lb.pick (withFlags server flags) draw key).1 ≠ .panic

theorem Random.pick_panic_iff (deref : ρ → Server) (draw : Nat) (rb : Random ρ) :
    rb.pick deref draw = .panic ↔
      2 ≤ (candidates deref rb.backends).length ∧
        totalWeight deref (candidates deref rb.backends) ≤ 0 := by
  unfold Random.pick
  rcases candidates deref rb.backends with _ | ⟨b, _ | ⟨c, rest⟩⟩
  · simp
  · simp
  · dsimp only
    split <;> rename_i htotal <;> simp [htotal]

theorem IPHash.pick_panic_iff (deref : ρ → Server) (key : String) (ih : IPHash ρ) :
    ih.pick deref key = .panic ↔
      2 ≤ (candidates deref ih.backends).length ∧
        (totalWeight deref (candidates deref ih.backends) % 2 ^ 32).toNat = 0 := by
  unfold IPHash.pick
  rcases candidates deref ih.backends with _ | ⟨b, _ | ⟨c, rest⟩⟩
  · simp
  · simp
  · dsimp only
    split <;> rename_i htotal <;> simp only [htotal] <;> simp

theorem totalWeight_eq_wrappedTotal (deref : ρ → Server) (cs : List ρ) :
    totalWeight deref cs = wrappedTotal (cs.map fun b => (deref b).weight) := by
  simp [totalWeight, wrappedTotal, List.foldl_map]

/-- Every selection of the backends is what some flags make eligible. -/
theorem exists_flags_candidates (server : ρ → Server) (backends bs : List ρ)
    (hnd : backends.Nodup) (hsub : bs.Sublist backends) :
    ∃ flags, candidates (withFlags server flags) backends = bs := by
  classical
  refine ⟨fun b => { healthy := bs.contains b, draining := false, circuitOpen := false }, ?_⟩
  conv_rhs => rw [← hnd.filter_mem_sublist hsub]
  simp [candidates, withFlags, Server.eligible]

/-- Over all flags, the totals drawn from are those of the selections of the weights. -/
private theorem forall_candidates_iff (server : ρ → Server) (backends : List ρ)
    (hnd : backends.Nodup) (Q : Int → Prop) :
    (∀ flags, 2 ≤ (candidates (withFlags server flags) backends).length →
        Q (totalWeight (withFlags server flags)
          (candidates (withFlags server flags) backends))) ↔
      ∀ l ∈ (backends.map fun b => (server b).weight).sublists, 2 ≤ l.length →
        Q (wrappedTotal l) := by
  constructor
  · intro h l hl htwo
    obtain ⟨bs, hsub, rfl⟩ := List.sublist_map_iff.mp (List.mem_sublists.mp hl)
    obtain ⟨flags, hflags⟩ := exists_flags_candidates server backends bs hnd hsub
    have hq := h flags (by rw [hflags]; simpa using htwo)
    rw [totalWeight_eq_wrappedTotal, hflags] at hq
    exact hq
  · intro h flags htwo
    rw [totalWeight_eq_wrappedTotal]
    refine h _ (List.mem_sublists.mpr (List.filter_sublist.map _)) (by simpa using htwo)

/-- No pick panics exactly when every selection of the weights has a usable total. -/
theorem LoadBalancer.neverPanics_iff (server : ρ → Server) (lb : LoadBalancer ρ)
    (hnd : lb.backends.Nodup) :
    lb.NeverPanics server ↔
      SafeWeights lb.algorithm (lb.backends.map fun b => (server b).weight) := by
  -- an algorithm that draws nothing
  have undrawn (hne : ∀ deref draw key, (lb.pick deref draw key).1 ≠ .panic)
      (hr : lb.algorithm ≠ "random") (hi : lb.algorithm ≠ "ip_hash") :
      lb.NeverPanics server ↔
        SafeWeights lb.algorithm (lb.backends.map fun b => (server b).weight) :=
    iff_of_true (fun _ _ _ => hne _ _ _) fun _ _ _ => ⟨fun h => absurd h hr, fun h => absurd h hi⟩
  cases lb with
  | roundRobin r =>
    exact undrawn (fun deref _ _ => r.pick_ne_panic deref) (by simp [algorithm])
      (by simp [algorithm])
  | weightedRoundRobin w =>
    exact undrawn (fun deref _ _ => w.pick_ne_panic deref) (by simp [algorithm])
      (by simp [algorithm])
  | leastConnections lc =>
    exact undrawn (fun deref _ _ => lc.pick_ne_panic deref) (by simp [algorithm])
      (by simp [algorithm])
  | random rb =>
    have hpick : NeverPanics server (.random rb) ↔
        ∀ flags, 2 ≤ (candidates (withFlags server flags) rb.backends).length →
          0 < totalWeight (withFlags server flags)
            (candidates (withFlags server flags) rb.backends) := by
      constructor
      · intro h flags htwo
        by_contra hle
        exact h flags 0 "" ((rb.pick_panic_iff _ 0).mpr ⟨htwo, by omega⟩)
      · intro h flags draw key hpanic
        obtain ⟨htwo, hle⟩ := (rb.pick_panic_iff _ draw).mp hpanic
        have := h flags htwo
        omega
    refine hpick.trans ((forall_candidates_iff server rb.backends hnd (0 < ·)).trans ?_)
    refine forall₃_congr fun l _ _ => ?_
    simp [UsableTotal, algorithm]
  | ipHash ih =>
    have hpick : NeverPanics server (.ipHash ih) ↔
        ∀ flags, 2 ≤ (candidates (withFlags server flags) ih.backends).length →
          (totalWeight (withFlags server flags)
            (candidates (withFlags server flags) ih.backends) % 2 ^ 32).toNat ≠ 0 := by
      constructor
      · intro h flags htwo hzero
        exact h flags 0 "" ((ih.pick_panic_iff _ "").mpr ⟨htwo, hzero⟩)
      · intro h flags draw key hpanic
        obtain ⟨htwo, hzero⟩ := (ih.pick_panic_iff _ key).mp hpanic
        exact h flags htwo hzero
    refine hpick.trans ((forall_candidates_iff server ih.backends hnd
      (fun t => (t % 2 ^ 32).toNat ≠ 0)).trans ?_)
    refine forall₃_congr fun l _ _ => ?_
    simp [UsableTotal, algorithm]

/-- An unknown algorithm draws nothing either. -/
theorem newBalancer_safeWeights (algorithm : String) (server : ρ → Server) (backends : List ρ)
    (ws : List Int) :
    SafeWeights (newBalancer algorithm server backends).algorithm ws ↔
      SafeWeights algorithm ws := by
  by_cases h : algorithm ∈
      ["round_robin", "weighted_round_robin", "least_conn", "random", "ip_hash"]
  · rw [newBalancer_algorithm algorithm server backends h]
  · simp only [List.mem_cons, List.not_mem_nil, or_false, not_or] at h
    obtain ⟨hrr, hwrr, hlc, hrandom, hhash⟩ := h
    simp [SafeWeights, UsableTotal, newBalancer, LoadBalancer.algorithm, *]

@[simp] theorem LoadBalancer.pick_algorithm (deref : ρ → Server) (draw : Nat) (key : String)
    (lb : LoadBalancer ρ) : (lb.pick deref draw key).2.algorithm = lb.algorithm := by
  cases lb <;> rfl

@[simp] theorem LoadBalancer.acquire_algorithm (lb : LoadBalancer ρ) (addr : String) :
    (lb.acquire addr).algorithm = lb.algorithm := by
  cases lb <;> rfl

@[simp] theorem LoadBalancer.release_algorithm (lb : LoadBalancer ρ) (addr : String) :
    (lb.release addr).algorithm = lb.algorithm := by
  cases lb <;> rfl

end HootLb.Balancer

namespace HootLb.Runtime

open Balancer Circuitbreaker Config

/-! ## Valid pools -/

/-- What `Validate` demands of a configured backend. -/
def Backend.Valid (b : Backend) : Prop := 0 < b.weight ∧ validateHostPort b.address = none

instance (b : Backend) : Decidable b.Valid := inferInstanceAs (Decidable (_ ∧ _))

/-- Every server has a positive weight and a well-formed address, and no pick panics,
    whatever becomes of the flags. -/
structure PoolState.Valid (ps : PoolState) : Prop where
  members : ∀ b ∈ ps.members, b.Valid
  picks : ps.lb.NeverPanics ps.deref

/-- The balancer of a pool selects among all its servers. -/
def PoolState.Wired (ps : PoolState) : Prop := ps.lb.backends = List.range ps.servers.length

section Valid

variable {ps : PoolState}

theorem PoolState.Wired.valid_iff (h : ps.Wired) :
    ps.Valid ↔ (∀ b ∈ ps.members, b.Valid) ∧
      SafeWeights ps.lb.algorithm (ps.members.map (·.weight)) := by
  have hweights : (ps.lb.backends.map fun i => (ps.deref i).weight) =
      ps.members.map (·.weight) := by
    rw [h]
    apply List.ext_getElem
    · simp [PoolState.members]
    · intro i hi _
      have hi : i < ps.servers.length := by simpa using hi
      simp [PoolState.members, PoolState.deref, derefIn, hi]
  have hpicks := ps.lb.neverPanics_iff ps.deref (by rw [h]; exact List.nodup_range)
  rw [hweights] at hpicks
  rw [← hpicks]
  exact ⟨fun hv => ⟨hv.members, hv.picks⟩, fun hv => ⟨hv.1, hv.2⟩⟩

/-- Events leave the kind of a balancer alone. -/
private theorem balancerAfter_algorithm (e : PoolEvent) :
    (ps.balancerAfter e).algorithm = ps.lb.algorithm := by
  cases e <;> simp [PoolState.balancerAfter]

private theorem balancerAfter_backends (e : PoolEvent) :
    (ps.balancerAfter e).backends = ps.lb.backends := by
  cases e <;> simp [PoolState.balancerAfter]

theorem PoolState.Wired.apply (h : ps.Wired) (now : Time) (e : PoolEvent) :
    (ps.apply now e).Wired := by
  obtain ⟨i, c, hs, -⟩ := ps.apply_servers now e
  unfold PoolState.Wired
  rw [ps.apply_lb, balancerAfter_backends, hs, List.length_modify]
  exact h

/-- No event makes a valid pool invalid. -/
theorem PoolState.Valid.apply (hv : ps.Valid) (h : ps.Wired) (now : Time) (e : PoolEvent) :
    (ps.apply now e).Valid := by
  rw [(h.apply now e).valid_iff, ps.apply_members, ps.apply_lb, balancerAfter_algorithm]
  exact h.valid_iff.mp hv

variable {p : PoolConfig} {bs : List Backend}

theorem PoolState.BuiltFrom.wired (h : ps.BuiltFrom p bs) : ps.Wired := by
  obtain rfl | rfl := h <;> exact newBalancer_backends _ _ _

/-- A pool just built is valid when its backends are and their weights are safe. -/
theorem PoolState.BuiltFrom.valid_iff (h : ps.BuiltFrom p bs) :
    ps.Valid ↔ (∀ b ∈ bs, b.Valid) ∧ SafeWeights p.algorithm (bs.map (·.weight)) := by
  have hmembers : ps.members = bs := by
    obtain rfl | rfl := h <;> simp
  have hsafe : SafeWeights ps.lb.algorithm (bs.map (·.weight)) ↔
      SafeWeights p.algorithm (bs.map (·.weight)) := by
    obtain rfl | rfl := h <;> exact newBalancer_safeWeights _ _ _ _
  rw [h.wired.valid_iff, hmembers, hsafe]

end Valid

/-- Every pool of the current snapshot is valid. -/
def Store.PoolsValid (σ : Store) : Prop := ∀ name ps, σ.pool? name = some ps → ps.Valid

/-- Every pool of the current snapshot selects among all its servers. -/
def Store.PoolsWired (σ : Store) : Prop := ∀ name ps, σ.pool? name = some ps → ps.Wired

section Store

variable {σ : Store}

theorem Store.PoolsWired.updatePool (h : σ.PoolsWired) (hwf : σ.WF) (poolName : String)
    (newBackends : List Backend) (cfg : PoolConfig) :
    (σ.updatePool poolName newBackends cfg).PoolsWired := by
  intro name ps hps
  by_cases hname : name = poolName
  · subst hname
    rw [σ.updatePool_pool?_self _ _ _ hwf] at hps
    cases hps
    exact PoolState.BuiltFrom.wired (.inr rfl)
  · rw [σ.updatePool_pool?_of_ne _ _ _ _ hwf hname] at hps
    exact h name ps hps

/-- A partial update has to bring valid backends with safe weights. -/
theorem Store.updatePool_poolsValid_iff (h : σ.PoolsValid) (hwf : σ.WF) (u : PoolUpdate) :
    (σ.updatePool u.poolName u.newBackends u.cfg).PoolsValid ↔
      (∀ b ∈ u.newBackends, b.Valid) ∧
        SafeWeights u.cfg.algorithm (u.newBackends.map (·.weight)) := by
  have hnew : (updatedPoolState u.cfg u.newBackends).Valid ↔ _ :=
    PoolState.BuiltFrom.valid_iff (.inr rfl)
  rw [← hnew]
  constructor
  · intro hv
    exact hv u.poolName _ (σ.updatePool_pool?_self _ _ _ hwf)
  · intro hu name ps hps
    by_cases hname : name = u.poolName
    · subst hname
      rw [σ.updatePool_pool?_self _ _ _ hwf] at hps
      cases hps
      exact hu
    · rw [σ.updatePool_pool?_of_ne _ _ _ _ hwf hname] at hps
      exact h name ps hps

/-- A change in place that keeps a property of pools keeps it in the store. -/
private theorem modifyPool_forall (P : PoolState → Prop) (ref : PoolRef)
    (f : PoolState → PoolState) (hf : ∀ name ps, σ.pool? name = some ps → P (f ps))
    (h : ∀ name ps, σ.pool? name = some ps → P ps) (name : String) (ps : PoolState)
    (hps : (σ.modifyPool ref f).pool? name = some ps) : P ps := by
  rw [σ.modifyPool_pool?] at hps
  split at hps
  · obtain ⟨ps₀, hps₀, rfl⟩ := Option.map_eq_some_iff.mp hps
    exact hf name ps₀ hps₀
  · exact h name ps hps

end Store

/-- What the discovery sources supply for a configuration is valid, and the weights of
    every pool are safe. -/
def UsableBuild (env : BuildEnv) (cfg : Config) : Prop :=
  ∀ p ∈ cfg.pools, (p.discovery.isSome → ∀ b ∈ poolBackends env p, b.Valid) ∧
    SafeWeights p.algorithm ((poolBackends env p).map (·.weight))

/-- The pools of a build, in terms of the configuration. -/
private theorem forall_builtPools_iff (env : BuildEnv) (cfgs : List PoolConfig)
    (hnd : (cfgs.map (·.name)).Nodup) (P : PoolState → Prop) :
    (∀ name ps, builtPools env cfgs name = some ps → P ps) ↔ ∀ p ∈ cfgs, P (built env p) := by
  constructor
  · intro h p hp
    exact h p.name _ (builtPools_of_mem env cfgs hnd p hp)
  · intro h name ps hps
    obtain ⟨p, hp, rfl⟩ := List.mem_map.mp
      ((builtPools_isSome env cfgs name).mp (by rw [hps]; rfl))
    rw [builtPools_of_mem env cfgs hnd p hp] at hps
    cases hps
    exact h p hp

/-- The pools built for an accepted configuration: static backends are valid already. -/
theorem builtPools_valid_iff {getenv : String → String} {tags : BuildTags} {cfg : Config}
    (env : BuildEnv) (hacc : Accepted getenv tags cfg) :
    (∀ name ps, builtPools env cfg.pools name = some ps → ps.Valid) ↔ UsableBuild env cfg := by
  rw [forall_builtPools_iff env cfg.pools hacc.pool_names_nodup]
  refine forall₂_congr fun p hp => ?_
  have hbuilt : (built env p).Valid ↔ _ := PoolState.BuiltFrom.valid_iff (.inl rfl)
  rw [hbuilt]
  refine and_congr_left fun _ => ⟨fun h _ => h, fun h => ?_⟩
  cases hd : p.discovery with
  | some d => exact h (by rw [hd]; rfl)
  | none =>
    intro b hb
    simp only [poolBackends, hd, List.mem_map] at hb
    obtain ⟨bc, hbc, rfl⟩ := hb
    exact hacc.backend_ok p hp bc hbc

end HootLb.Runtime

namespace HootLb

open Balancer Config HootLb.Runtime HootLb.Reload HootLb.Admin

/-! ## Operations of the process -/

/-- What an operation brings into the pools is usable: the backend of an accepted add,
    the answer of a poll that changes something, the configuration and the answers of a
    reload that completes. Settings come from the configuration of startup, so the
    weights that remain after a removal have to be safe for its algorithm. -/
def System.InputsUsable (s : System) : Op → Prop
  | .addBackend poolName body =>
    ∀ p req ps, addBackendCheck s.cfg poolName body = .ok (p, req) →
      s.store.pool? poolName = some ps → (∀ srv ∈ ps.servers, srv.address ≠ req.address) →
        Backend.Valid { address := req.address, weight := req.weight } ∧
          SafeWeights p.algorithm (ps.members.map (·.weight) ++ [req.weight])
  | .removeBackend poolName address =>
    ∀ p ps, removeBackendCheck s.cfg poolName = .ok p → s.store.pool? poolName = some ps →
      (∃ srv ∈ ps.servers, srv.address = address) →
        SafeWeights p.algorithm
          ((ps.members.filter fun b => b.address ≠ address).map (·.weight))
  | .poll k resolved =>
    ∀ p bs, s.pollers[k]? = some p → resolved = .ok bs →
      backendSetsEqual p.lastBackends bs = false →
        (∀ b ∈ bs, b.Valid) ∧ SafeWeights p.cfg.algorithm (bs.map (·.weight))
  | .reload env =>
    ∀ cfg, s.watcher.reloadError env s.store.current.listeners = none →
      s.watcher.host.load env.file = .ok cfg → UsableBuild env.build cfg
  | _ => True

/-- The updates of an add. -/
private theorem poolUpdate_add_iff (s : System) (poolName : String)
    (body : Option AddBackendRequest) (u : PoolUpdate) :
    s.poolUpdate (.addBackend poolName body) = some u ↔
      ∃ p req ps, addBackendCheck s.cfg poolName body = .ok (p, req) ∧
        s.store.pool? poolName = some ps ∧ (∀ srv ∈ ps.servers, srv.address ≠ req.address) ∧
        u = ⟨poolName, ps.members ++ [{ address := req.address, weight := req.weight }], p⟩ := by
  simp only [System.poolUpdate]
  cases addBackendCheck s.cfg poolName body with
  | error r => simp
  | ok c =>
    obtain ⟨p, req⟩ := c
    cases s.store.pool? poolName with
    | none => simp [addBackendPlan]
    | some ps =>
      by_cases hfound : ∃ srv ∈ ps.servers, srv.address = req.address
      · simp [addBackendPlan, hfound]
      · have hfresh : ∀ srv ∈ ps.servers, ¬ srv.address = req.address := by simpa using hfound
        simpa [addBackendPlan, hfound, and_iff_right hfresh] using eq_comm

/-- The updates of a removal. -/
private theorem poolUpdate_remove_iff (s : System) (poolName address : String) (u : PoolUpdate) :
    s.poolUpdate (.removeBackend poolName address) = some u ↔
      ∃ p ps, removeBackendCheck s.cfg poolName = .ok p ∧ s.store.pool? poolName = some ps ∧
        (∃ srv ∈ ps.servers, srv.address = address) ∧
        u = ⟨poolName, ps.members.filter fun b => b.address ≠ address, p⟩ := by
  simp only [System.poolUpdate]
  cases removeBackendCheck s.cfg poolName with
  | error r => simp
  | ok p =>
    cases s.store.pool? poolName with
    | none => simp [removeBackendPlan]
    | some ps =>
      by_cases hfound : ∃ srv ∈ ps.servers, srv.address = address
      · simpa [removeBackendPlan, hfound] using eq_comm
      · simp [removeBackendPlan, hfound]

/-- The updates of a poll. -/
private theorem poolUpdate_poll_iff (s : System) (k : Nat)
    (resolved : Except String (List Backend)) (u : PoolUpdate) :
    s.poolUpdate (.poll k resolved) = some u ↔
      ∃ p bs, s.pollers[k]? = some p ∧ resolved = .ok bs ∧
        backendSetsEqual p.lastBackends bs = false ∧ u = ⟨p.poolName, bs, p.cfg⟩ := by
  simp only [System.poolUpdate]
  cases s.pollers[k]? with
  | none => simp
  | some p =>
    cases resolved with
    | error why => simp [Poller.pollCheck]
    | ok bs =>
      cases hb : backendSetsEqual p.lastBackends bs with
      | true => simp [Poller.pollCheck, hb]
      | false => simpa [Poller.pollCheck, hb] using eq_comm

/-- What the invariant asks of a partial update comes down to what the operation brings:
    the members of the pool are valid already. -/
private theorem updates_usable_iff (s : System) (op : Op) (hop : op.isMembership)
    (h : s.store.PoolsValid) :
    (∀ u, s.poolUpdate op = some u → (∀ b ∈ u.newBackends, b.Valid) ∧
      SafeWeights u.cfg.algorithm (u.newBackends.map (·.weight))) ↔ s.InputsUsable op := by
  cases op with
  | addBackend poolName body =>
    constructor
    · intro hu p req ps hcheck hps hfresh
      obtain ⟨hv, hsafe⟩ :=
        hu _ ((poolUpdate_add_iff s poolName body _).mpr ⟨p, req, ps, hcheck, hps, hfresh, rfl⟩)
      exact ⟨hv _ (by simp), by simpa using hsafe⟩
    · intro hin u hu
      obtain ⟨p, req, ps, hcheck, hps, hfresh, rfl⟩ := (poolUpdate_add_iff s _ _ u).mp hu
      obtain ⟨hv, hsafe⟩ := hin p req ps hcheck hps hfresh
      refine ⟨fun b hb => ?_, by simpa using hsafe⟩
      rcases List.mem_append.mp hb with hb | hb
      · exact (h poolName ps hps).members b hb
      · exact List.mem_singleton.mp hb ▸ hv
  | removeBackend poolName address =>
    constructor
    · intro hu p ps hcheck hps hfound
      exact (hu _ ((poolUpdate_remove_iff s _ _ _).mpr ⟨p, ps, hcheck, hps, hfound, rfl⟩)).2
    · intro hin u hu
      obtain ⟨p, ps, hcheck, hps, hfound, rfl⟩ := (poolUpdate_remove_iff s _ _ u).mp hu
      exact ⟨fun b hb => (h poolName ps hps).members b (List.mem_filter.mp hb).1,
        hin p ps hcheck hps hfound⟩
  | poll k resolved =>
    constructor
    · intro hu p bs hp hres hne
      exact hu _ ((poolUpdate_poll_iff s k resolved _).mpr ⟨p, bs, hp, hres, hne, rfl⟩)
    · intro hin u hu
      obtain ⟨p, bs, hp, hres, hne, rfl⟩ := (poolUpdate_poll_iff s k resolved u).mp hu
      exact hin p bs hp hres hne
  | reload | drainBackend | undrainBackend | event | advance => cases hop

/-- The current snapshot is well formed, and its pools are wired and valid. -/
structure System.Sound (s : System) : Prop where
  wf : s.store.WF
  wired : s.store.PoolsWired
  valid : s.store.PoolsValid

/-- The new pools after a reload that completes. -/
private theorem step_reload_pools (s : System) (env : ReloadEnv)
    (he : s.watcher.reloadError env s.store.current.listeners = none) :
    ∃ cfg, s.watcher.host.load env.file = .ok cfg ∧
      ∀ name, (s.step (.reload env)).store.pool? name = builtPools env.build cfg.pools name := by
  obtain ⟨cfg, hload, hview⟩ := s.step_reload_of_ok env he
  refine ⟨cfg, hload, fun name => ?_⟩
  rw [Store.pool?_eq_view, hview]
  rfl

private theorem builtPools_wired (env : BuildEnv) (cfgs : List PoolConfig) (name : String)
    (ps : PoolState) (h : builtPools env cfgs name = some ps) : ps.Wired := by
  obtain ⟨p, -, rfl⟩ := Option.map_eq_some_iff.mp h
  exact PoolState.BuiltFrom.wired (.inl rfl)

/-- Operations keep the pools wired. -/
private theorem step_wired (s : System) (op : Op) (hwf : s.store.WF) (h : s.store.PoolsWired) :
    (s.step op).store.PoolsWired := by
  apply s.step_store_inv op h
  · intro u _
    exact h.updatePool hwf _ _ _
  · intro ref e
    exact modifyPool_forall _ ref _ (fun name ps hps => (h name ps hps).apply _ _) h
  · intro env _ name ps hps
    cases he : s.watcher.reloadError env s.store.current.listeners with
    | some e =>
      rw [Store.pool?_eq_view, s.step_reload_of_error env e he] at hps
      exact h name ps hps
    | none =>
      obtain ⟨cfg, -, hpools⟩ := step_reload_pools s env he
      rw [hpools] at hps
      exact builtPools_wired _ _ name ps hps

/-- A reload that fails leaves the pools alone; any other builds them from its file. -/
private theorem poolsValid_reload_iff (s : System) (env : ReloadEnv) (h : s.Sound) :
    (s.step (.reload env)).store.PoolsValid ↔ s.InputsUsable (.reload env) := by
  cases he : s.watcher.reloadError env s.store.current.listeners with
  | some e =>
    refine iff_of_true (fun name ps hps => ?_) (fun cfg hnone => ?_)
    · rw [Store.pool?_eq_view, s.step_reload_of_error env e he] at hps
      exact h.valid name ps hps
    · exact nomatch he.symm.trans hnone
  | none =>
    obtain ⟨cfg, hload, hpools⟩ := step_reload_pools s env he
    have hacc := s.watcher.host.load_accepted env.file cfg hload
    have hbuilt : (s.step (.reload env)).store.PoolsValid ↔ UsableBuild env.build cfg := by
      rw [← builtPools_valid_iff env.build hacc]
      exact forall₂_congr fun name ps => by rw [hpools]
    rw [hbuilt]
    constructor
    · intro hu cfg' _ hload'
      rw [hload] at hload'
      cases hload'
      exact hu
    · exact fun hu => hu cfg he hload

/-- What happens to an installed pool keeps it valid. -/
private theorem poolsValid_inPlace (s : System) (op : Op) (h : s.Sound)
    (hm : op.isMembership = false) (hre : ∀ env, op ≠ .reload env) :
    (s.step op).store.PoolsValid := by
  rw [s.step_store_inPlace op hm hre]
  cases s.inPlace op with
  | none => exact h.valid
  | some c =>
    exact modifyPool_forall _ c.1 _
      (fun name ps hps => (h.valid name ps hps).apply (h.wired name ps hps) _ _) h.valid

/-- One operation leaves all pools valid exactly when what it brings is usable. -/
theorem System.poolsValid_step_iff (s : System) (op : Op) (h : s.Sound) :
    (s.step op).store.PoolsValid ↔ s.InputsUsable op := by
  cases hm : op.isMembership with
  | true =>
    rw [← updates_usable_iff s op hm h.valid, s.step_store op hm]
    cases s.poolUpdate op with
    | none => exact iff_of_true h.valid (fun u hu => nomatch hu)
    | some u =>
      rw [Store.applyUpdate, Store.updatePool_poolsValid_iff h.valid h.wf u]
      exact ⟨fun hu u' hu' => Option.some.inj hu' ▸ hu, fun hu => hu u rfl⟩
  | false =>
    cases op with
    | reload env => exact poolsValid_reload_iff s env h
    | addBackend | removeBackend | poll => cases hm
    | drainBackend | undrainBackend | event | advance =>
      -- these have no inputs that could make a pool unusable
      exact iff_of_true (poolsValid_inPlace s _ h hm (fun env => nofun)) trivial

/-- Along a run of the process, in every snapshot all servers have a positive weight and a
    well-formed address and no pick can panic, exactly when the discovery answers at
    startup are usable and every operation brings usable inputs. -/
theorem pools_valid_iff (host : Host) (file : Except String Bytes) (env : BuildEnv)
    (now : Circuitbreaker.Time) (s : System) (h : startup host file env now = .ok s)
    (ops : List Op) :
    (s.store.PoolsValid ∧
        List.Along System.step (fun s op => (s.step op).store.PoolsValid) s ops) ↔
      UsableBuild env s.cfg ∧ List.Along System.step System.InputsUsable s ops := by
  obtain ⟨hload, -, hwf, hview, -, -⟩ := startup_spec host file env now s h
  have hacc := host.load_accepted file s.cfg hload
  have hpools : ∀ name, s.store.pool? name = builtPools env s.cfg.pools name := by
    intro name
    rw [Store.pool?_eq_view, hview]
    rfl
  have hstart : s.store.PoolsValid ↔ UsableBuild env s.cfg := by
    rw [← builtPools_valid_iff env hacc]
    exact forall₂_congr fun name ps => by rw [hpools]
  rw [← hstart]
  refine and_congr_right fun hvalid => ?_
  have hwired : s.store.PoolsWired :=
    fun name ps hps => builtPools_wired env s.cfg.pools name ps (hpools name ▸ hps)
  exact List.along_next_iff System.step (fun s => s.store.PoolsValid) System.InputsUsable
    System.Sound
    (fun s op hs hop => ⟨s.step_wf op hs.wf, step_wired s op hs.wf hs.wired,
      (s.poolsValid_step_iff op hs).mpr hop⟩)
    (fun s op hs => s.poolsValid_step_iff op hs) s ⟨hwf, hwired, hvalid⟩ ops

/-- One pool that draws its backends at random. -/
def randomConfig : Config :=
  { plainConfig with
    pools := [{ Sample.pool "web" "10.0.0.1:8080" with algorithm := "random" }] }

/-- An add of a second backend with a positive weight and a port. -/
theorem pools_valid_iff_add :
    ∃ s, startup (Sample.host [randomConfig]) (.ok [0])
        (Sample.env fun _ => .error "no such host") 0 = .ok s ∧
      s.store.PoolsValid ∧
      (s.step (.addBackend "web" (some ⟨"10.0.0.2:8080", 3⟩))).store.PoolsValid := by
  refine ⟨_, rfl, ?_⟩
  have hbuild : UsableBuild (Sample.env fun _ => .error "no such host") randomConfig := by
    intro p hp
    obtain rfl := List.mem_singleton.mp hp
    exact ⟨(nomatch ·), safeWeights_of_pos _ _ (by decide) (by decide)⟩
  have hrun := (pools_valid_iff (Sample.host [randomConfig]) (.ok [0])
    (Sample.env fun _ => .error "no such host") 0 _ rfl
    [.addBackend "web" (some ⟨"10.0.0.2:8080", 3⟩)]).mpr ⟨hbuild, ?_, trivial⟩
  · exact ⟨hrun.1, hrun.2.1⟩
  · intro p req ps hcheck hps _
    cases hcheck
    cases hps
    exact ⟨by decide, safeWeights_of_pos _ _ (by decide) (by decide)⟩

/-- An add with a negative weight and no port is accepted. The total of the two weights
    is zero, and the next pick panics. -/
theorem unchecked_add_panics :
    ∃ s, startup (Sample.host [randomConfig]) (.ok [0])
        (Sample.env fun _ => .error "no such host") 0 = .ok s ∧
      (Admin.addBackend s.cfg "web" (some ⟨"10.0.0.2", -1⟩) s.store).1.status = 201 ∧
      ((s.step (.addBackend "web" (some ⟨"10.0.0.2", -1⟩))).store.pool? "web").map
        (fun ps => (ps.members, (ps.pick 0 "").1)) =
          some ([⟨"10.0.0.1:8080", 1⟩, ⟨"10.0.0.2", -1⟩], .panic) ∧
      ¬ (s.step (.addBackend "web" (some ⟨"10.0.0.2", -1⟩))).store.PoolsValid := by
  refine ⟨_, rfl, rfl, by decide +kernel, fun h => ?_⟩
  exact absurd ((h "web" _ rfl).members ⟨"10.0.0.2", -1⟩ (by decide)) (by decide)

end HootLb
