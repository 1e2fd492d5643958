import HootLb.Spec.BreakerRecovery
import HootLb.Spec.PartialUpdate

/-!
# Updates after a reload

The admin handlers and the pollers hold the configuration of startup for good.
After a reload, a membership operation therefore answers by the old
configuration and rebuilds its pool with the old settings. This module says
exactly when that goes unnoticed.

## Key results

- `updatedPoolState_eq_build_iff`: when two pool configurations give the same
  pool state, in terms of their settings
- `follows_reloaded_config_iff`: when an operation after a reload behaves as the
  reloaded configuration prescribes
-/

namespace HootLb.Balancer

variable {ρ : Type}

/-- The configuration name of a balancer's algorithm. -/
def LoadBalancer.algorithm : LoadBalancer ρ → String
  | .roundRobin _ => "round_robin"
  | .weightedRoundRobin _ => "weighted_round_robin"
  | .leastConnections _ => "least_conn"
  | .random _ => "random"
  | .ipHash _ => "ip_hash"

theorem newBalancer_algorithm (algorithm : String) (deref : ρ → Server) (backends : List ρ)
    (h : algorithm ∈ ["round_robin", "weighted_round_robin", "least_conn", "random", "ip_hash"]) :
    (newBalancer algorithm deref backends).algorithm = algorithm := by
  simp only [List.mem_cons, List.not_mem_nil, or_false] at h
  rcases h with rfl | rfl | rfl | rfl | rfl <;> rfl

end HootLb.Balancer

namespace HootLb.Runtime

open Balancer Circuitbreaker Config

/-- The health check block, when it makes a checker. -/
def effectiveHealthCheck (p : PoolConfig) : Option HealthCheckConfig :=
  p.healthCheck.filter fun hc => hc.type ≠ "none"

/-- Two configurations of a pool that make the same pool state out of the given
    backends, the second one by a full build. Without backends there are no
    breakers that could differ. -/
structure SameSettings (old new : PoolConfig) (bs : List Backend) : Prop where
  algorithm : old.algorithm = new.algorithm
  healthCheck : effectiveHealthCheck old = effectiveHealthCheck new
  sticky : old.sticky = new.sticky
  circuitBreaker : old.circuitBreaker = new.circuitBreaker ∨
    (bs = [] ∧ old.circuitBreaker.isSome ∧ new.circuitBreaker.isSome)
  retry : new.retry = none

/-- The configuration a checker was made with. -/
private theorem newChecker_eq (p : PoolConfig) (servers : List Server) :
    newChecker p servers = (effectiveHealthCheck p).map fun hc =>
      { poolName := p.name, cfg := hc
        backends := (List.range servers.length).map fun i =>
          { server := i, consecutiveSuccess := 0, consecutiveFailure := 0 } } := by
  unfold newChecker effectiveHealthCheck
  cases p.healthCheck with
  | none => rfl
  | some hc => by_cases h : hc.type = "none" <;> simp [h, Option.filter]

/-- The breakers of a non-empty list of servers show their configuration. -/
private theorem newBreakers_injective (cb cb' : CircuitBreakerConfig) (servers : List Server)
    (hne : servers ≠ []) (h : newBreakers cb servers = newBreakers cb' servers) : cb = cb' := by
  obtain ⟨init, s, rfl⟩ := (List.eq_nil_or_concat' servers).resolve_left hne
  rw [newBreakers_concat, newBreakers_concat] at h
  have hlast := congrArg (AList.lookup s.address) h
  rw [AList.lookup_insert, AList.lookup_insert] at hlast
  simp only [newBreaker, Option.some.injEq, BreakerCell.mk.injEq, Breaker.mk.injEq] at hlast
  obtain ⟨⟨-, -, hthr, hdur, hmax, -⟩, -⟩ := hlast
  cases cb
  cases cb'
  simp_all

private theorem breakers_eq_iff (old new : Option CircuitBreakerConfig) (bs : List Backend) :
    (old.map fun cb => newBreakers cb (newServers bs)) =
        (new.map fun cb => newBreakers cb (newServers bs)) ↔
      old = new ∨ (bs = [] ∧ old.isSome ∧ new.isSome) := by
  cases old with
  | none => cases new <;> simp
  | some cb =>
    cases new with
    | none => simp
    | some cb' =>
      simp only [Option.map_some, Option.some.injEq, Option.isSome_some, and_self, and_true]
      constructor
      · intro h
        by_cases hbs : bs = []
        · exact Or.inr hbs
        · exact Or.inl (newBreakers_injective cb cb' _ (by simpa [newServers] using hbs) h)
      · rintro (rfl | rfl) <;> rfl

/-- When a partial update under one configuration gives the pool state that a full
    build under another one gives. -/
theorem updatedPoolState_eq_build_iff (old new : PoolConfig) (bs : List Backend)
    (hname : old.name = new.name)
    (hold : old.algorithm ∈
      ["round_robin", "weighted_round_robin", "least_conn", "random", "ip_hash"])
    (hnew : new.algorithm ∈
      ["round_robin", "weighted_round_robin", "least_conn", "random", "ip_hash"]) :
    updatedPoolState old bs = buildPoolState new bs ↔ SameSettings old new bs := by
  constructor
  · intro h
    refine ⟨?_, ?_, congrArg PoolState.sticky h, ?_, (congrArg PoolState.retry h).symm⟩
    · have := congrArg (fun ps => ps.lb.algorithm) h
      simpa only [updatedPoolState, buildPoolState, newBalancer_algorithm _ _ _ hold,
        newBalancer_algorithm _ _ _ hnew] using this
    · have := congrArg (fun ps => ps.fr.map (·.cfg)) h
      simpa only [updatedPoolState, buildPoolState, newChecker_eq, Option.map_map,
        Function.comp_def, Option.map_id'] using this
    · exact (breakers_eq_iff _ _ bs).mp (congrArg PoolState.breakers h)
  · rintro ⟨halg, hhc, hsticky, hcb, hretry⟩
    simp only [updatedPoolState, buildPoolState, newChecker_eq, halg, hhc, hname, hsticky, hretry,
      (breakers_eq_iff _ _ bs).mpr hcb]

end HootLb.Runtime

namespace HootLb

open Config HootLb.Runtime HootLb.Reload HootLb.Admin

/-- The admin API answers as handlers that hold `C` would. -/
def System.AnswersBy (s : System) (C : Config) : Op → Prop
  | .addBackend poolName body =>
    (Admin.addBackend s.cfg poolName body s.store).1 = (Admin.addBackend C poolName body s.store).1
  | .removeBackend poolName address =>
    (Admin.removeBackend s.cfg poolName address s.store).1 =
      (Admin.removeBackend C poolName address s.store).1
  | _ => True

/-- The operation behaves as `C` prescribes: it is answered by `C`, and the pool
    it rebuilds has the algorithm, health check, sticky, breaker and retry
    settings that `C` gives the pool, being what a build under `C` would make of
    the same backends. -/
structure System.Follows (s : System) (C : Config) (op : Op) : Prop where
  answers : s.AnswersBy C op
  settings : ∀ u, s.poolUpdate op = some u → ∃ p, findPoolConfig C u.poolName = some p ∧
    (s.step op).store.pool? u.poolName = some (buildPoolState p u.newBackends)

/-- A pool as the startup configuration and the reloaded one give it: absent from
    both; dropped, which a request notices unless `dropped` holds; or in both with
    discovery in both or in neither, and `kept` settings. -/
def PoolKept (dropped : Prop) (kept : PoolConfig → PoolConfig → Prop) :
    Option PoolConfig → Option PoolConfig → Prop
  | none, none => True
  | none, some _ => False
  | some p₀, none => p₀.discovery = none ∧ dropped
  | some p₀, some p => p₀.discovery.isSome = p.discovery.isSome ∧ kept p₀ p

/-- The startup configuration `C₀` and the reloaded `C` agree on what the
    operation reads from them. -/
def System.ConfigKept (s : System) (C₀ C : Config) (op : Op) : Prop :=
  let kept (p₀ p : PoolConfig) : Prop :=
    ∀ u, s.poolUpdate op = some u → SameSettings p₀ p u.newBackends
  match op with
  | .addBackend poolName body =>
    PoolKept (∃ req, body = some req ∧ req.address ≠ "") kept
      (findPoolConfig C₀ poolName) (findPoolConfig C poolName)
  | .removeBackend poolName _ =>
    PoolKept True kept (findPoolConfig C₀ poolName) (findPoolConfig C poolName)
  | op => ∀ u, s.poolUpdate op = some u →
      ∃ p, findPoolConfig C u.poolName = some p ∧ SameSettings u.cfg p u.newBackends

/-- The pools of the snapshot after a completed reload are those of the new
    configuration. -/
theorem reload_pool?_isSome (s : System) (env : ReloadEnv) (C : Config)
    (hload : s.watcher.host.load env.file = .ok C)
    (hacc : (s.watcher.checkAndReload env s.store).1 = none) (name : String) :
    ((s.step (.reload env)).store.pool? name).isSome = (findPoolConfig C name).isSome := by
  rw [Watcher.checkAndReload_fst] at hacc
  obtain ⟨cfg, hcfg, -, hview, -⟩ := s.watcher.checkAndReload_of_ok env s.store hacc
  rw [hload] at hcfg
  cases hcfg
  rw [Store.pool?_eq_view]
  simp only [System.step]
  rw [hview, Bool.eq_iff_iff]
  exact (builtPools_isSome env.build C.pools name).trans
    (by simp [findPoolConfig, List.find?_isSome])

/-! ## Answers -/

/-- The shape of both membership requests' answers: what the configuration says
    about the pool, then the rest of the handler. -/
private def answer (conflict : String) (rest : Response) : Option PoolConfig → Response
  | none => { status := 404, error := some "pool not found" }
  | some p => if p.discovery.isSome then { status := 409, error := some conflict } else rest

/-- When two configurations lead to the same answer. -/
private theorem answer_eq_iff (conflict : String) (rest : Response) (f₀ f : Option PoolConfig)
    (hconflict : rest ≠ { status := 409, error := some conflict })
    (hfound : f.isSome → rest ≠ { status := 404, error := some "pool not found" }) :
    answer conflict rest f₀ = answer conflict rest f ↔
      PoolKept (rest = { status := 404, error := some "pool not found" })
        (fun _ _ => True) f₀ f := by
  cases f₀ with
  | none =>
    cases f with
    | none => simp [PoolKept]
    | some p =>
      have hne := hfound rfl
      cases hp : p.discovery with
      | none => simpa [answer, PoolKept, hp] using Ne.symm hne
      | some d => simp [answer, PoolKept, hp]
  | some p₀ =>
    cases f with
    | none => cases hp₀ : p₀.discovery <;> simp [answer, PoolKept, hp₀]
    | some p =>
      cases hp₀ : p₀.discovery <;> cases hp : p.discovery <;>
        simp [answer, PoolKept, hp₀, hp, hconflict, Ne.symm hconflict]

/-- What `addBackend` answers for a pool without discovery. -/
private def addAnswer (body : Option AddBackendRequest) (pool : Option PoolState) : Response :=
  match body with
  | none => { status := 400, error := some "invalid request body" }
  | some req =>
    if req.address = "" then { status := 400, error := some "address is required" }
    else
      match addBackendPlan req pool with
      | .error r => r
      | .ok _ => { status := 201, error := none }

/-- What `removeBackend` answers for a pool without discovery. -/
private def removeAnswer (address : String) (pool : Option PoolState) : Response :=
  match removeBackendPlan address pool with
  | .error r => r
  | .ok _ => { status := 204, error := none }

private theorem addBackend_fst (cfg : Config) (poolName : String)
    (body : Option AddBackendRequest) (σ : Store) :
    (Admin.addBackend cfg poolName body σ).1 =
      answer "cannot add backends to a discovery-driven pool"
        (addAnswer body (σ.pool? poolName)) (findPoolConfig cfg poolName) := by
  unfold Admin.addBackend addBackendCheck checkPoolConfig answer addAnswer
  cases findPoolConfig cfg poolName with
  | none => rfl
  | some p =>
    cases hd : p.discovery.isSome with
    | true => simp [hd]
    | false =>
      cases body with
      | none => simp [hd]
      | some req =>
        by_cases ha : req.address = ""
        · simp [hd, ha]
        · simp only [hd, ha, Bool.false_eq_true, if_false]
          cases addBackendPlan req (σ.pool? poolName) <;> rfl

private theorem removeBackend_fst (cfg : Config) (poolName address : String) (σ : Store) :
    (Admin.removeBackend cfg poolName address σ).1 =
      answer "cannot remove backends from a discovery-driven pool"
        (removeAnswer address (σ.pool? poolName)) (findPoolConfig cfg poolName) := by
  unfold Admin.removeBackend removeBackendCheck checkPoolConfig answer removeAnswer
  cases findPoolConfig cfg poolName with
  | none => rfl
  | some p =>
    cases hd : p.discovery.isSome with
    | true => simp [hd]
    | false =>
      simp only [hd, Bool.false_eq_true, if_false]
      cases removeBackendPlan address (σ.pool? poolName) <;> rfl

/-- The possible answers of `addBackend` for a pool without discovery. -/
private theorem addAnswer_cases (body : Option AddBackendRequest) (pool : Option PoolState) :
    addAnswer body pool ≠
        { status := 409, error := some "cannot add backends to a discovery-driven pool" } ∧
    (addAnswer body pool = { status := 404, error := some "pool not found" } ↔
      pool = none ∧ ∃ req, body = some req ∧ req.address ≠ "") := by
  unfold addAnswer
  cases body with
  | none => simp
  | some req =>
    by_cases ha : req.address = ""
    · simp [ha]
    · cases pool with
      | none => simp [ha, addBackendPlan]
      | some ps =>
        cases hany : ps.servers.any fun srv => srv.address = req.address <;>
          simp [ha, addBackendPlan, hany]

/-- The possible answers of `removeBackend` for a pool without discovery. -/
private theorem removeAnswer_cases (address : String) (pool : Option PoolState) :
    removeAnswer address pool ≠
        { status := 409, error := some "cannot remove backends from a discovery-driven pool" } ∧
    (removeAnswer address pool = { status := 404, error := some "pool not found" } ↔
      pool = none) := by
  unfold removeAnswer
  cases pool with
  | none => simp [removeBackendPlan]
  | some ps =>
    cases hany : ps.servers.any fun srv => srv.address = address <;>
      simp [removeBackendPlan, hany]

/-! ## Operations after a reload -/

/-- The configuration of an update is a pool of the startup configuration. -/
private theorem poolUpdate_cfg (s : System) (op : Op) (u : PoolUpdate)
    (hpollers : ∀ p ∈ s.pollers, p.cfg ∈ s.cfg.pools ∧ p.poolName = p.cfg.name)
    (h : s.poolUpdate op = some u) : u.cfg ∈ s.cfg.pools ∧ u.cfg.name = u.poolName := by
  cases op with
  | addBackend poolName body =>
    obtain ⟨hname, hfind, -⟩ := s.poolUpdate_addBackend poolName body u h
    obtain ⟨hmem, hn⟩ := findPoolConfig_spec _ _ _ hfind
    exact ⟨hmem, hn.trans hname.symm⟩
  | removeBackend poolName address =>
    obtain ⟨hname, hfind, -⟩ := s.poolUpdate_removeBackend poolName address u h
    obtain ⟨hmem, hn⟩ := findPoolConfig_spec _ _ _ hfind
    exact ⟨hmem, hn.trans hname.symm⟩
  | poll k resolved =>
    obtain ⟨p, hp, -, -, hname, hcfg⟩ := s.poolUpdate_poll k resolved u h
    obtain ⟨hmem, hn⟩ := hpollers p (List.mem_of_getElem? hp)
    rw [hcfg, hname]
    exact ⟨hmem, hn.symm⟩
  | reload | drainBackend | undrainBackend | event | advance => exact nomatch h

/-- The rebuilt pool has the settings of `C` exactly when the configurations
    agree on them. -/
private theorem settings_iff (getenv : String → String) (tags : BuildTags) (s : System)
    (C : Config) (op : Op) (hop : op.isMembership) (hwf : s.store.WF)
    (hpollers : ∀ p ∈ s.pollers, p.cfg ∈ s.cfg.pools ∧ p.poolName = p.cfg.name)
    (hold : Accepted getenv tags s.cfg) (hnew : Accepted getenv tags C) (u : PoolUpdate)
    (hu : s.poolUpdate op = some u) (p : PoolConfig)
    (hp : findPoolConfig C u.poolName = some p) :
    (s.step op).store.pool? u.poolName = some (buildPoolState p u.newBackends) ↔
      SameSettings u.cfg p u.newBackends := by
  obtain ⟨hmem, hname⟩ := poolUpdate_cfg s op u hpollers hu
  obtain ⟨hmem', hname'⟩ := findPoolConfig_spec _ _ _ hp
  rw [s.step_store op hop, hu]
  show (s.store.updatePool u.poolName u.newBackends u.cfg).pool? u.poolName = _ ↔ _
  rw [Store.updatePool_pool?_self _ _ _ _ hwf, Option.some.injEq]
  exact updatedPoolState_eq_build_iff u.cfg p u.newBackends (hname.trans hname'.symm)
    (hold.algorithm_known _ hmem) (hnew.algorithm_known _ hmem')

/-- Answer and settings of a request on one pool, which the startup configuration
    gives as `f₀` and the reloaded one as `f`. -/
private theorem poolKept_and_settings (dropped : Prop) (f₀ f : Option PoolConfig)
    (U : PoolUpdate → Prop) (installed : PoolUpdate → PoolConfig → Prop)
    (hU : ∀ u, U u → f₀ = some u.cfg ∧ f.isSome)
    (hset : ∀ u, U u → ∀ p, f = some p → (installed u p ↔ SameSettings u.cfg p u.newBackends)) :
    (PoolKept dropped (fun _ _ => True) f₀ f ∧ ∀ u, U u → ∃ p, f = some p ∧ installed u p) ↔
      PoolKept dropped (fun p₀ p => ∀ u, U u → SameSettings p₀ p u.newBackends) f₀ f := by
  cases f₀ with
  | none =>
    cases f with
    | none => simpa [PoolKept] using fun u hu => nomatch (hU u hu).1
    | some p => simp [PoolKept]
  | some p₀ =>
    cases f with
    | none => simpa [PoolKept] using fun _ _ u hu => nomatch (hU u hu).2
    | some p =>
      simp only [PoolKept, and_true]
      refine and_congr_right fun _ => forall_congr' fun u => imp_congr_right fun hu => ?_
      obtain ⟨hcfg, -⟩ := hU u hu
      cases hcfg
      simpa using hset u hu p rfl

/-- The same for a request that names its pool, in a snapshot with the pools of
    `C`. -/
private theorem requestKept_iff (s : System) (C₀ C : Config) (op : Op) (poolName : String)
    (dropped : Prop)
    (hpool : (s.store.pool? poolName).isSome = (findPoolConfig C poolName).isSome)
    (hset : ∀ u, s.poolUpdate op = some u → ∀ p, findPoolConfig C u.poolName = some p →
      ((s.step op).store.pool? u.poolName = some (buildPoolState p u.newBackends) ↔
        SameSettings u.cfg p u.newBackends))
    (hupd : ∀ u, s.poolUpdate op = some u → u.poolName = poolName ∧
      findPoolConfig C₀ poolName = some u.cfg ∧ (s.store.pool? poolName).isSome) :
    (PoolKept dropped (fun _ _ => True) (findPoolConfig C₀ poolName) (findPoolConfig C poolName) ∧
      ∀ u, s.poolUpdate op = some u → ∃ p, findPoolConfig C u.poolName = some p ∧
        (s.step op).store.pool? u.poolName = some (buildPoolState p u.newBackends)) ↔
    PoolKept dropped (fun p₀ p => ∀ u, s.poolUpdate op = some u →
      SameSettings p₀ p u.newBackends)
      (findPoolConfig C₀ poolName) (findPoolConfig C poolName) := by
  rw [← poolKept_and_settings dropped _ _ (fun u => s.poolUpdate op = some u) (fun u p =>
    (s.step op).store.pool? u.poolName = some (buildPoolState p u.newBackends))
    (fun u hu => ⟨(hupd u hu).2.1, hpool.symm.trans (hupd u hu).2.2⟩)
    (fun u hu p hp => hset u hu p ((hupd u hu).1 ▸ hp))]
  refine and_congr_right fun _ => forall_congr' fun u => imp_congr_right fun hu => ?_
  rw [(hupd u hu).1]

/-- The condition on a dropped pool matters only when the pool is dropped. -/
private theorem PoolKept.congr_dropped (a b : Prop) (kept : PoolConfig → PoolConfig → Prop)
    (f₀ f : Option PoolConfig) (h : f = none → (a ↔ b)) :
    PoolKept a kept f₀ f ↔ PoolKept b kept f₀ f := by
  cases f with
  | none => cases f₀ <;> simp [PoolKept, h rfl]
  | some p => cases f₀ <;> rfl

/-- After startup and one completed reload to `C`, an add, a removal or a poll
    behaves as `C` prescribes exactly when the startup configuration agrees with
    `C` on everything the operation takes from it. -/
theorem follows_reloaded_config_iff (host : Host) (file : Except String Bytes) (env₀ : BuildEnv)
    (now : Circuitbreaker.Time) (s₀ : System) (env : ReloadEnv) (C : Config) (op : Op)
    (hstart : startup host file env₀ now = .ok s₀) (hload : host.load env.file = .ok C)
    (hacc : (s₀.watcher.checkAndReload env s₀.store).1 = none) (hop : op.isMembership) :
    (s₀.step (.reload env)).Follows C op ↔
      (s₀.step (.reload env)).ConfigKept s₀.cfg C op := by
  obtain ⟨hcfg, hhost, hwf₀, -, -, hstartp⟩ := startup_spec host file env₀ now s₀ hstart
  have hold := host.load_accepted file s₀.cfg hcfg
  have hnew := host.load_accepted env.file C hload
  have hpool := reload_pool?_isSome s₀ env C (by rw [hhost]; exact hload) hacc
  have hwf := s₀.step_wf (.reload env) hwf₀
  have hpollers : ∀ p ∈ s₀.pollers, p.cfg ∈ s₀.cfg.pools ∧ p.poolName = p.cfg.name := by
    intro p hp
    obtain ⟨hmem, -, hnewp⟩ := startPollers_spec _ _ _ hstartp p hp
    exact ⟨hmem, congrArg Poller.poolName hnewp⟩
  have hset := settings_iff host.getenv host.tags (s₀.step (.reload env)) C op hop hwf hpollers
    hold hnew
  generalize hs : s₀.step (.reload env) = s at hpool hwf hset ⊢
  have hscfg : s.cfg = s₀.cfg := by rw [← hs]; rfl
  -- `Follows` as a conjunction
  have hfollows : s.Follows C op ↔ s.AnswersBy C op ∧ ∀ u, s.poolUpdate op = some u →
      ∃ p, findPoolConfig C u.poolName = some p ∧
        (s.step op).store.pool? u.poolName = some (buildPoolState p u.newBackends) :=
    ⟨fun h => ⟨h.answers, h.settings⟩, fun h => ⟨h.1, h.2⟩⟩
  rw [hfollows]
  -- the snapshot has the pools of `C`
  have hnone : ∀ name, findPoolConfig C name = none → s.store.pool? name = none := by
    intro name hf
    rw [← Option.isNone_iff_eq_none, ← Option.not_isSome, hpool name, hf]
    rfl
  cases op with
  | addBackend poolName body =>
    -- the answer first, then the settings, then what a dropped pool would answer
    simp only [System.AnswersBy, addBackend_fst, hscfg]
    rw [answer_eq_iff _ _ _ _ (addAnswer_cases body _).1 (by
      intro hsome heq
      rw [← hpool poolName, ((addAnswer_cases body _).2.mp heq).1] at hsome
      exact nomatch hsome)]
    rw [requestKept_iff s s₀.cfg C _ poolName _ (hpool poolName) hset fun u hu => by
      obtain ⟨hname, hfind, -, req, ps, -, hps, -⟩ := s.poolUpdate_addBackend poolName body u hu
      exact ⟨hname, hscfg ▸ hfind, by rw [hps]; rfl⟩]
    refine PoolKept.congr_dropped _ _ _ _ _ fun hf => ?_
    rw [(addAnswer_cases body _).2, hnone poolName hf]
    exact and_iff_right rfl
  | removeBackend poolName address =>
    simp only [System.AnswersBy, removeBackend_fst, hscfg]
    rw [answer_eq_iff _ _ _ _ (removeAnswer_cases address _).1 (by
      intro hsome heq
      rw [← hpool poolName, (removeAnswer_cases address _).2.mp heq] at hsome
      exact nomatch hsome)]
    rw [requestKept_iff s s₀.cfg C _ poolName _ (hpool poolName) hset fun u hu => by
      obtain ⟨hname, hfind, -, ps, hps, -⟩ := s.poolUpdate_removeBackend poolName address u hu
      exact ⟨hname, hscfg ▸ hfind, by rw [hps]; rfl⟩]
    refine PoolKept.congr_dropped _ _ _ _ _ fun hf => ?_
    rw [(removeAnswer_cases address _).2, hnone poolName hf]
    exact iff_true_intro rfl
  | poll k resolved =>
    -- a poll answers nobody
    simp only [System.AnswersBy, true_and, System.ConfigKept]
    exact forall_congr' fun u => imp_congr_right fun hu => exists_congr fun p =>
      and_congr_right fun hp => hset u hu p hp
  | reload | drainBackend | undrainBackend | event | advance => exact nomatch hop

/-- The plain configuration with another algorithm. -/
def leastConnConfig : Config :=
  { plainConfig with
    pools := [{ Sample.pool "web" "10.0.0.1:8080" with algorithm := "least_conn" }] }

/-- A backend added after a reload that changed the algorithm: the request is
    accepted and puts the pool back to the algorithm of startup. -/
theorem add_after_reload_restores_startup_algorithm :
    ∃ s₀, startup (Sample.host [plainConfig, leastConnConfig]) (.ok [0])
        (Sample.env fun _ => .error "no such host") 0 = .ok s₀ ∧
      (Sample.host [plainConfig, leastConnConfig]).load (.ok [1]) = .ok leastConnConfig ∧
      (s₀.watcher.checkAndReload (Sample.reloadEnv 1 fun _ => .error "no such host")
        s₀.store).1 = none ∧
      ¬ (s₀.step (.reload (Sample.reloadEnv 1 fun _ => .error "no such host"))).Follows
        leastConnConfig (.addBackend "web" (some ⟨"10.0.0.2:8080", 1⟩)) := by
  refine ⟨_, rfl, rfl, rfl, fun h => ?_⟩
  obtain ⟨p, hp, heq⟩ := h.settings
    ⟨"web", [⟨"10.0.0.1:8080", 1⟩, ⟨"10.0.0.2:8080", 1⟩], Sample.pool "web" "10.0.0.1:8080"⟩ rfl
  have hp' : some { Sample.pool "web" "10.0.0.1:8080" with algorithm := "least_conn" } = some p :=
    hp
  cases hp'
  exact absurd heq (by decide)

/-- The theorem at a reload that keeps the pool's settings. -/
theorem add_after_plain_reload_follows :
    ∃ s₀, startup (Sample.host [plainConfig]) (.ok [0])
        (Sample.env fun _ => .error "no such host") 0 = .ok s₀ ∧
      (s₀.step (.reload (Sample.reloadEnv 0 fun _ => .error "no such host"))).Follows
        plainConfig (.addBackend "web" (some ⟨"10.0.0.2:8080", 1⟩)) :=
  ⟨_, rfl,
    (follows_reloaded_config_iff (Sample.host [plainConfig]) (.ok [0])
      (Sample.env fun _ => .error "no such host") 0 _
      (Sample.reloadEnv 0 fun _ => .error "no such host") plainConfig
      (.addBackend "web" (some ⟨"10.0.0.2:8080", 1⟩)) rfl rfl rfl rfl).mpr
      ⟨rfl, fun _ _ => ⟨rfl, rfl, rfl, Or.inl rfl, rfl⟩⟩⟩

end HootLb
