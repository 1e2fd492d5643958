import HootLb.ForStd.Lifecycle
import HootLb.Spec.PartialUpdate
import HootLb.Spec.PoolEvents
import HootLb.Spec.StoreView

/-!
# Starting and stopping health checkers

Startup, a reload, a poll, an add and a remove each start the checkers of the
snapshot they build and stop those of the snapshot they replace. The log of
starts and stops in the store is compared with the `Checkers` map of the current
snapshot after every operation.

A partial update copies the checker entry of a pool that gets no new checker. The
entry then belongs to the old pool state; the handlers look it up in the new
snapshot, start that checker a second time, and stop it.

## Key results

- `CheckerInv.step`: what an operation keeps
- `checkers_tracked_iff`: along every run, the checkers are accounted for after
  each operation exactly when no update finds a checker it does not replace
-/

namespace HootLb.Runtime

open Balancer Circuitbreaker Config HootLb.Reload

/-! ## The property -/

/-- The `Server` objects a checker probes: positions in the pool state it was
    made with. -/
def Store.watchedServers (σ : Store) (checker : PoolRef) : List (PoolRef × Nat) :=
  ((σ.heap.pools[checker]?.bind PoolState.watched).getD []).map fun i => (checker, i)

/-- The `Server` objects of the pool state behind a name, when there is one. -/
def Store.poolServers (σ : Store) (name : String) : Option (List (PoolRef × Nat)) :=
  (σ.current.poolStates.lookup name).bind fun ref =>
    (σ.heap.pools[ref]?).map fun ps => (List.range ps.servers.length).map fun i => (ref, i)

/-- The checker runs: it was started more often than it was stopped. -/
def Store.Running (σ : Store) (checker : PoolRef) : Prop :=
  σ.stopped.count checker < σ.started.count checker

/-- The checkers of a store are accounted for. A checker enters the `Checkers` map
    when it is started, so the ones that left it are among the started ones. -/
structure Store.CheckersTracked (σ : Store) : Prop where
  running : ∀ c, σ.Running c ↔ c ∈ checkerRefs σ.current
  once : ∀ c ∈ checkerRefs σ.current, σ.started.count c = 1 ∧ σ.stopped.count c = 0
  left : ∀ c ∈ σ.started, c ∉ checkerRefs σ.current → σ.stopped.count c = 1
  watches : ∀ name c, σ.current.checkers.lookup name = some c →
    σ.poolServers name = some (σ.watchedServers c)

/-! ## The values of a map -/

theorem mem_checkerRefs (snap : Snapshot) (c : PoolRef) :
    c ∈ checkerRefs snap ↔ ∃ name, snap.checkers.lookup name = some c := by
  unfold checkerRefs
  rw [List.mem_map]
  constructor
  · intro h
    obtain ⟨e, he, hc⟩ := h
    exact ⟨e.1, hc ▸ AList.mem_lookup_iff.mpr he⟩
  · intro h
    obtain ⟨name, hname⟩ := h
    exact ⟨⟨name, c⟩, AList.mem_lookup_iff.mp hname, rfl⟩

theorem checkerRefs_nodup (snap : Snapshot) (h : RefMap.Injective snap.checkers) :
    (checkerRefs snap).Nodup := by
  apply List.Nodup.map_on _ snap.checkers.nodupKeys.nodup
  intro a ha b hb hab
  have hkey : a.1 = b.1 := by
    apply h a.1 b.1 a.2 (AList.mem_lookup_iff.mpr ha)
    rw [hab]
    exact AList.mem_lookup_iff.mpr hb
  exact Sigma.ext hkey (heq_of_eq hab)

/-! ## A fresh build -/

/-- A new checker probes every server of the pool it is made for. -/
theorem newChecker_watches (p : PoolConfig) (servers : List Server) (c : Checker)
    (h : newChecker p servers = some c) :
    c.backends.map (·.server) = List.range servers.length := by
  unfold newChecker at h
  cases hc : p.healthCheck with
  | none => rw [hc] at h; cases h
  | some hc' =>
    simp only [hc] at h
    split at h
    · cases h
    · cases h
      simp [Function.comp_def]

/-- The pool loop binds every checker to the pool state bound to the same name,
    and only to new objects. -/
theorem buildPools_owns (tags : BuildTags) (env : BuildEnv) (base : Nat) (cfgs : List PoolConfig)
    (heap heap' : List PoolState) (pools pools' checkers checkers' : GoMap PoolRef)
    (hrun : buildPools tags env cfgs heap pools checkers = .ok (heap', pools', checkers'))
    (hnodup : (cfgs.map (·.name)).Nodup) (hnew : ∀ p ∈ cfgs, pools.lookup p.name = none)
    (hbase : base ≤ heap.length)
    (hown : ∀ n c, checkers.lookup n = some c → pools.lookup n = some c ∧ base ≤ c) :
    ∀ n c, checkers'.lookup n = some c → pools'.lookup n = some c ∧ base ≤ c := by
  induction cfgs generalizing heap pools checkers with
  | nil => cases hrun; exact hown
  | cons p rest ih =>
    obtain ⟨hfresh, hrest⟩ := List.nodup_cons.mp hnodup
    simp only [buildPools] at hrun
    generalize (if p.discovery.isSome then newDiscoveryAdapter tags p else .ok ()) = check at hrun
    cases check with
    | error why => cases hrun
    | ok _ =>
      refine ih _ _ _ hrun hrest ?_ ?_ ?_
      · intro q hq
        have hne : q.name ≠ p.name := by
          intro heq
          have hmem : q.name ∈ rest.map (·.name) := List.mem_map_of_mem hq
          rw [heq] at hmem
          exact hfresh hmem
        rw [AList.lookup_insert_ne hne]
        exact hnew q (List.mem_cons_of_mem p hq)
      · rw [List.length_append]
        omega
      · intro n c hc
        by_cases hn : n = p.name
        · subst hn
          rw [AList.lookup_insert]
          split at hc
          · rw [AList.lookup_insert] at hc
            cases hc
            exact ⟨rfl, hbase⟩
          · -- no checker was bound to a name that has no pool yet
            have hnone := hnew p List.mem_cons_self
            rw [(hown p.name c hc).1] at hnone
            cases hnone
        · have hc' : checkers.lookup n = some c := by
            split at hc
            · rwa [AList.lookup_insert_ne hn] at hc
            · exact hc
          rw [AList.lookup_insert_ne hn]
          exact hown n c hc'

/-- What a build of a configuration with unique pool names makes of the checkers:
    new objects, each watching the servers of the pool of its name. -/
theorem buildSnapshot_checkers (tags : BuildTags) (env : BuildEnv) (cfg : Config)
    (heap heap' : Heap) (snap : Snapshot)
    (h : buildSnapshot tags env cfg heap = .ok (snap, heap'))
    (hnodup : (cfg.pools.map (·.name)).Nodup) (name : String) (c : PoolRef)
    (hc : snap.checkers.lookup name = some c) :
    snap.poolStates.lookup name = some c ∧ heap.pools.length ≤ c ∧
      ∃ ps, heap'.pools[c]? = some ps ∧ ps.watched = some (List.range ps.servers.length) := by
  have howns : snap.poolStates.lookup name = some c ∧ heap.pools.length ≤ c := by
    unfold buildSnapshot at h
    split at h
    · cases h
    · rename_i pools poolStates checkers hpools
      split at h
      · cases h
      · cases h
        exact buildPools_owns tags env heap.pools.length cfg.pools heap.pools pools ∅ poolStates ∅
          checkers hpools hnodup (fun _ _ => rfl) (Nat.le_refl _) (fun _ _ h => nomatch h) name c hc
  obtain ⟨hview, hwf, -⟩ := buildSnapshot_spec tags env cfg heap heap' snap h
  have hbuilt : heap'.pools[c]? = builtCheckers env cfg.pools name := by
    have hcheckers := congrFun (congrArg View.checkers hview) name
    simpa [Snapshot.view, RefMap.deref, hc, View.build] using hcheckers
  have hlt : c < heap'.pools.length := hwf.checkers name c hc
  refine ⟨howns.1, howns.2, heap'.pools[c], List.getElem?_eq_getElem hlt, ?_⟩
  rw [List.getElem?_eq_getElem hlt] at hbuilt
  -- the entry is a built pool that has a checker
  unfold builtCheckers at hbuilt
  obtain ⟨p, hp, hps⟩ := Option.map_eq_some_iff.mp hbuilt.symm
  have hfr := List.find?_some hp
  simp only [decide_eq_true_eq] at hfr
  obtain ⟨chk, hchk⟩ := Option.isSome_iff_exists.mp hfr.2
  rw [← hps]
  unfold PoolState.watched
  rw [hchk, Option.map_some, newChecker_watches p _ chk hchk]
  rfl

/-! ## A partial update -/

section

variable (σ : Store) (u : PoolUpdate)

private theorem updatePool_pools :
    (σ.updatePool u.poolName u.newBackends u.cfg).heap.pools =
      σ.heap.pools ++ [updatedPoolState u.cfg u.newBackends] := rfl

private theorem updatePool_poolStates :
    (σ.updatePool u.poolName u.newBackends u.cfg).current.poolStates =
      σ.current.poolStates.insert u.poolName σ.heap.pools.length := rfl

private theorem updatePool_started :
    (σ.updatePool u.poolName u.newBackends u.cfg).started =
      σ.started ++ ((σ.updatePool u.poolName u.newBackends u.cfg).current.checkers.lookup
        u.poolName).toList := rfl

private theorem updatePool_checkers_on
    (h : (updatedPoolState u.cfg u.newBackends).fr.isSome) :
    (σ.updatePool u.poolName u.newBackends u.cfg).current.checkers =
      σ.current.checkers.insert u.poolName σ.heap.pools.length := by
  simp only [Store.updatePool, Store.install, updatePoolBackends, h, if_true]

/-- The checkers' entries are copied when the pool gets no new checker. -/
private theorem updatePool_checkers_off
    (h : (updatedPoolState u.cfg u.newBackends).fr.isSome = false) :
    (σ.updatePool u.poolName u.newBackends u.cfg).current.checkers = σ.current.checkers := by
  simp [Store.updatePool, Store.install, updatePoolBackends, h]

end

/-! ## The invariant -/

/-- What carries the property from one operation to the next: besides the logs,
    every checker belongs to the pool state of its name, and every started one is
    an object of the heap, so that a new object was never started. -/
structure Store.CheckerInv (σ : Store) : Prop where
  wf : σ.WF
  log : Lifecycle σ.started σ.stopped fun c => ∃ name, σ.current.checkers.lookup name = some c
  known : ∀ c ∈ σ.started, c < σ.heap.pools.length
  owned : ∀ name c, σ.current.checkers.lookup name = some c →
    σ.current.poolStates.lookup name = some c ∧
      ∃ ps, σ.heap.pools[c]? = some ps ∧ ps.watched = some (List.range ps.servers.length)

namespace Store.CheckerInv

variable {σ : Store}

/-- No two pools share a checker. -/
theorem injective (h : σ.CheckerInv) : RefMap.Injective σ.current.checkers := by
  intro n n' c hn hn'
  exact h.wf.distinct n n' c (h.owned n c hn).1 (h.owned n' c hn').1

theorem tracked (h : σ.CheckerInv) : σ.CheckersTracked := by
  constructor
  · intro c
    rw [mem_checkerRefs]
    exact (h.log.live_iff_count c).symm
  · intro c hc
    exact h.log.count_of_live ((mem_checkerRefs σ.current c).mp hc)
  · intro c hc hleft
    rw [mem_checkerRefs] at hleft
    exact h.log.count_of_not_live hc hleft
  · intro name c hc
    obtain ⟨hpool, ps, hps, hwatched⟩ := h.owned name c hc
    simp [Store.poolServers, Store.watchedServers, hpool, hps, hwatched]

/-- A store whose snapshot was just built and whose checkers were just started. -/
theorem of_build (tags : BuildTags) (env : BuildEnv) (cfg : Config) (heap heap' : Heap)
    (snap : Snapshot) (hbuilt : buildSnapshot tags env cfg heap = .ok (snap, heap'))
    (hnodup : (cfg.pools.map (·.name)).Nodup) :
    Store.CheckerInv
      { heap := heap', current := snap, started := checkerRefs snap, stopped := [] } := by
  have howned := buildSnapshot_checkers tags env cfg heap heap' snap hbuilt hnodup
  obtain ⟨-, hwf, -⟩ := buildSnapshot_spec tags env cfg heap heap' snap hbuilt
  have hinj : RefMap.Injective snap.checkers := by
    intro n n' c hn hn'
    exact hwf.distinct n n' c (howned n c hn).1 (howned n' c hn').1
  constructor
  · exact hwf
  · exact .of_started (checkerRefs_nodup snap hinj) fun c => (mem_checkerRefs snap c).symm
  · intro c hc
    obtain ⟨name, hname⟩ := (mem_checkerRefs snap c).mp hc
    exact hwf.checkers name c hname
  · intro name c hc
    obtain ⟨hpool, -, hps⟩ := howned name c hc
    exact ⟨hpool, hps⟩

/-- A reload that completes replaces every checker. -/
theorem reload (h : σ.CheckerInv) (tags : BuildTags) (env : BuildEnv) (cfg : Config)
    (certs : List (GoMap Certificate)) (new : Snapshot) (heap' : Heap)
    (hbuilt : buildSnapshot tags env cfg { σ.heap with certs := certs } = .ok (new, heap'))
    (hnodup : (cfg.pools.map (·.name)).Nodup) :
    (σ.install heap' new (checkerRefs new) (checkerRefs σ.current)).CheckerInv := by
  have hnew := of_build tags env cfg _ heap' new hbuilt hnodup
  have hchk := buildSnapshot_checkers tags env cfg _ heap' new hbuilt hnodup
  obtain ⟨-, -, hgrow⟩ := buildSnapshot_spec tags env cfg _ heap' new hbuilt
  have hlen : σ.heap.pools.length ≤ heap'.pools.length := by
    obtain ⟨extra, hextra⟩ := hgrow.pools
    rw [hextra, List.length_append]
    exact Nat.le_add_right _ _
  constructor
  · exact hnew.wf
  · apply h.log.replace (checkerRefs_nodup new hnew.injective) _
      (checkerRefs_nodup σ.current h.injective)
    · intro c hc
      exact (mem_checkerRefs σ.current c).mp hc
    · intro c
      rw [mem_checkerRefs, mem_checkerRefs]
      constructor
      · intro hlive
        exact .inl hlive
      · intro hcase
        rcases hcase with hlive | ⟨hold, hnot⟩
        · exact hlive
        · exact absurd hold hnot
    · -- the new checkers lie beyond the old heap
      intro c hc hstarted
      obtain ⟨name, hname⟩ := (mem_checkerRefs new c).mp hc
      have hge : σ.heap.pools.length ≤ c := (hchk name c hname).2.1
      exact Nat.not_lt.mpr hge (h.known c hstarted)
  · intro c hc
    rcases List.mem_append.mp hc with hc | hc
    · exact Nat.lt_of_lt_of_le (h.known c hc) hlen
    · exact hnew.known c hc
  · exact hnew.owned

/-- The pool a partial update installs. -/
private theorem updated_watched (cfg : PoolConfig) (bs : List Backend)
    (hfr : (updatedPoolState cfg bs).fr.isSome) :
    (updatedPoolState cfg bs).watched =
      some (List.range (updatedPoolState cfg bs).servers.length) := by
  obtain ⟨chk, hchk⟩ := Option.isSome_iff_exists.mp hfr
  unfold PoolState.watched
  rw [hchk, Option.map_some, newChecker_watches cfg _ chk hchk]
  rfl

/-- A checker of another pool stays with its pool state. -/
private theorem owned_of_ne (h : σ.CheckerInv) (u : PoolUpdate) {n : String} {c : PoolRef}
    (hne : n ≠ u.poolName) (hc : σ.current.checkers.lookup n = some c) :
    (σ.updatePool u.poolName u.newBackends u.cfg).current.poolStates.lookup n = some c ∧
      ∃ ps, (σ.updatePool u.poolName u.newBackends u.cfg).heap.pools[c]? = some ps ∧
        ps.watched = some (List.range ps.servers.length) := by
  obtain ⟨hpool, ps, hps, hwatched⟩ := h.owned n c hc
  have hlt : c < σ.heap.pools.length := (List.getElem?_eq_some_iff.mp hps).1
  refine ⟨?_, ps, ?_, hwatched⟩
  · rw [updatePool_poolStates, AList.lookup_insert_ne hne, hpool]
  · rw [updatePool_pools, List.getElem?_append_left hlt, hps]

/-- What was started before is still an object of the heap. -/
private theorem known_update (h : σ.CheckerInv) (u : PoolUpdate) {c : PoolRef}
    (hc : c ∈ σ.started) :
    c < (σ.updatePool u.poolName u.newBackends u.cfg).heap.pools.length := by
  rw [updatePool_pools, List.length_append]
  exact Nat.lt_of_lt_of_le (h.known c hc) (Nat.le_add_right _ _)

/-- The log of an update that replaces the checker of its pool. -/
private theorem log_replace (h : σ.CheckerInv) (name : String) :
    Lifecycle (σ.started ++ [σ.heap.pools.length])
      (σ.stopped ++ (σ.current.checkers.lookup name).toList)
      fun c => ∃ n, (σ.current.checkers.insert name σ.heap.pools.length).lookup n = some c := by
  apply h.log.replace (List.nodup_singleton _) _ (Option.toList_nodup _)
  · intro c hc
    exact ⟨name, by simpa using hc⟩
  · intro c
    constructor
    · rintro ⟨n, hn⟩
      rw [RefMap.lookup_insert_eq] at hn
      split at hn
      · cases hn
        exact .inl (List.mem_singleton.mpr rfl)
      · rename_i hne
        refine .inr ⟨⟨n, hn⟩, fun hmem => hne ?_⟩
        have hold : σ.current.checkers.lookup name = some c := by simpa using hmem
        exact h.injective n name c hn hold
    · rintro (hc | ⟨⟨n, hn⟩, hnot⟩)
      · rw [List.mem_singleton.mp hc]
        exact ⟨name, AList.lookup_insert _⟩
      · have hne : n ≠ name := by
          rintro rfl
          exact hnot (by simp [hn])
        exact ⟨n, (AList.lookup_insert_ne hne).trans hn⟩
  · -- no object of that number was started before
    intro c hc hstarted
    rw [List.mem_singleton.mp hc] at hstarted
    exact Nat.lt_irrefl _ (h.known _ hstarted)

/-- An update of a pool with health checking replaces that pool's checker. -/
private theorem update_enabled (h : σ.CheckerInv) (u : PoolUpdate)
    (hfr : (updatedPoolState u.cfg u.newBackends).fr.isSome) :
    (σ.updatePool u.poolName u.newBackends u.cfg).CheckerInv := by
  have hcheckers := updatePool_checkers_on σ u hfr
  have hstarted : (σ.updatePool u.poolName u.newBackends u.cfg).started =
      σ.started ++ [σ.heap.pools.length] := by
    rw [updatePool_started, hcheckers, AList.lookup_insert]
    rfl
  constructor
  · exact σ.updatePool_wf u.poolName u.newBackends u.cfg h.wf
  · rw [hstarted, hcheckers]
    exact h.log_replace u.poolName
  · intro c hc
    rw [hstarted] at hc
    rcases List.mem_append.mp hc with hc | hc
    · exact h.known_update u hc
    · rw [List.mem_singleton.mp hc, updatePool_pools, List.length_append]
      exact Nat.lt_succ_self _
  · intro n c hc
    rw [hcheckers] at hc
    by_cases hn : n = u.poolName
    · subst hn
      rw [AList.lookup_insert] at hc
      cases hc
      rw [updatePool_poolStates, updatePool_pools, AList.lookup_insert]
      exact ⟨rfl, updatedPoolState u.cfg u.newBackends, by simp, updated_watched _ _ hfr⟩
    · rw [AList.lookup_insert_ne hn] at hc
      exact h.owned_of_ne u hn hc

/-- An update of a pool without health checking that had no checker. -/
private theorem update_disabled (h : σ.CheckerInv) (u : PoolUpdate)
    (hfr : (updatedPoolState u.cfg u.newBackends).fr.isSome = false)
    (hnone : σ.current.checkers.lookup u.poolName = none) :
    (σ.updatePool u.poolName u.newBackends u.cfg).CheckerInv := by
  have hcheckers := updatePool_checkers_off σ u hfr
  have hstarted : (σ.updatePool u.poolName u.newBackends u.cfg).started = σ.started := by
    rw [updatePool_started, hcheckers, hnone]
    exact List.append_nil _
  have hstopped : (σ.updatePool u.poolName u.newBackends u.cfg).stopped = σ.stopped := by
    simp [Store.updatePool, Store.install, hnone]
  constructor
  · exact σ.updatePool_wf u.poolName u.newBackends u.cfg h.wf
  · rw [hcheckers, hstarted, hstopped]
    exact h.log
  · intro c hc
    rw [hstarted] at hc
    exact h.known_update u hc
  · intro n c hc
    rw [hcheckers] at hc
    have hne : n ≠ u.poolName := by
      rintro rfl
      rw [hnone] at hc
      cases hc
    exact h.owned_of_ne u hne hc

/-- A partial update keeps the invariant when it replaces the checker of its pool
    or finds none. -/
theorem update (h : σ.CheckerInv) (u : PoolUpdate)
    (hq : checkerEnabled u.cfg ∨ σ.current.checkers.lookup u.poolName = none) :
    (σ.updatePool u.poolName u.newBackends u.cfg).CheckerInv := by
  have hiff : (updatedPoolState u.cfg u.newBackends).fr.isSome = checkerEnabled u.cfg :=
    newChecker_isSome u.cfg _
  cases hfr : (updatedPoolState u.cfg u.newBackends).fr.isSome with
  | true => exact h.update_enabled u hfr
  | false =>
    rcases hq with hon | hnone
    · rw [← hiff, hfr] at hon
      cases hon
    · exact h.update_disabled u hfr hnone

/-- Traffic, probes and draining leave the checkers alone. -/
theorem modifyPool (h : σ.CheckerInv) (ref : PoolRef) (now : Time) (e : PoolEvent) :
    (σ.modifyPool ref fun ps => ps.apply now e).CheckerInv := by
  constructor
  · exact σ.modifyPool_wf ref _ h.wf
  · exact h.log
  · intro c hc
    simp only [Store.modifyPool, List.length_modify]
    exact h.known c hc
  · intro name c hc
    obtain ⟨hpool, ps, hps, hwatched⟩ := h.owned name c hc
    refine ⟨hpool, ?_⟩
    simp only [Store.modifyPool, List.getElem?_modify, hps]
    split
    · obtain ⟨i, change, hservers, -⟩ := ps.apply_servers now e
      refine ⟨ps.apply now e, rfl, ?_⟩
      rw [PoolState.apply_watched, hwatched, hservers, List.length_modify]
    · exact ⟨ps, rfl, hwatched⟩

end Store.CheckerInv

/-- An update that builds no checker for a pool that has one starts the old one a
    second time. -/
theorem updatePool_not_tracked (σ : Store) (h : σ.CheckerInv) (u : PoolUpdate)
    (hoff : checkerEnabled u.cfg = false) (c : PoolRef)
    (hc : σ.current.checkers.lookup u.poolName = some c) :
    ¬ (σ.updatePool u.poolName u.newBackends u.cfg).CheckersTracked := by
  have hfr : (updatedPoolState u.cfg u.newBackends).fr.isSome = false :=
    (newChecker_isSome u.cfg _).trans hoff
  have hcheckers := updatePool_checkers_off σ u hfr
  have hstarted : (σ.updatePool u.poolName u.newBackends u.cfg).started = σ.started ++ [c] := by
    rw [updatePool_started, hcheckers, hc]
    rfl
  intro htracked
  have hmem : c ∈ checkerRefs (σ.updatePool u.poolName u.newBackends u.cfg).current := by
    rw [mem_checkerRefs, hcheckers]
    exact ⟨u.poolName, hc⟩
  have htwice := (htracked.once c hmem).1
  have honce := (h.log.count_of_live ⟨u.poolName, hc⟩).1
  rw [hstarted, List.count_append, List.count_singleton_self] at htwice
  omega

end HootLb.Runtime

namespace HootLb

open Config HootLb.Runtime HootLb.Reload

/-! ## Runs -/

/-- A partial update, if the operation performs one, is for a pool whose startup
    configuration has health checking on, or finds no checker registered for the
    pool. -/
def System.ReplacesChecker (s : System) (op : Op) : Prop :=
  ∀ u, s.poolUpdate op = some u →
    checkerEnabled u.cfg ∨ s.store.current.checkers.lookup u.poolName = none

/-- A reload, completed or not, keeps the invariant. -/
theorem System.checkerInv_reload (s : System) (env : ReloadEnv) (h : s.store.CheckerInv) :
    (s.step (.reload env)).store.CheckerInv := by
  cases he : s.watcher.reloadError env s.store.current.listeners with
  | some e =>
    obtain ⟨certs, -, hrun⟩ := s.watcher.checkAndReload_of_error env s.store e he
    have hwf := s.step_wf (.reload env) h.wf
    simp only [System.step, hrun] at hwf ⊢
    exact ⟨hwf, h.log, h.known, h.owned⟩
  | none =>
    obtain ⟨cfg, certs, new, heap', hload, -, hbuilt, hrun⟩ :=
      s.watcher.checkAndReload_installs env s.store he
    have hnodup := (Host.load_accepted _ _ _ hload).pool_names_nodup
    simp only [System.step, hrun]
    exact h.reload _ _ cfg certs new heap' hbuilt hnodup

/-- Every operation that meets the condition keeps the invariant. -/
theorem System.checkerInv_step (s : System) (op : Op) (h : s.store.CheckerInv)
    (hq : s.ReplacesChecker op) : (s.step op).store.CheckerInv := by
  apply s.step_store_inv op h
  · intro u hu
    exact h.update u (hq u hu)
  · intro ref e
    exact h.modifyPool ref s.now e
  · intro env _
    exact s.checkerInv_reload env h

/-- From a state with the invariant, the checkers are accounted for after an
    operation exactly when it meets the condition. -/
theorem System.checkersTracked_step_iff (s : System) (op : Op) (h : s.store.CheckerInv) :
    (s.step op).store.CheckersTracked ↔ s.ReplacesChecker op := by
  constructor
  · intro htracked u hu
    by_contra hq
    rw [not_or, Bool.not_eq_true] at hq
    obtain ⟨c, hc⟩ := Option.ne_none_iff_exists'.mp hq.2
    have hm : op.isMembership = true := by
      cases op <;> first | rfl | cases hu
    rw [s.step_store op hm, hu] at htracked
    exact updatePool_not_tracked s.store h u hq.1 c hc htracked
  · intro hq
    exact (s.checkerInv_step op h hq).tracked

/-- Along every run from startup, the checkers are accounted for after startup and
    after each operation exactly when no add, removal or poll updates a pool
    without health checking in the startup configuration that has a checker. -/
theorem checkers_tracked_iff (host : Host) (file : Except String Bytes) (env : BuildEnv)
    (now : Circuitbreaker.Time) (s₀ : System) (hstart : startup host file env now = .ok s₀)
    (ops : List Op) :
    s₀.store.CheckersTracked ∧
        ops.Along System.step (fun s op => (s.step op).store.CheckersTracked) s₀ ↔
      ops.Along System.step System.ReplacesChecker s₀ := by
  have hinv : s₀.store.CheckerInv := by
    obtain ⟨snap, heap, hload, hbuilt, hstore, -, -⟩ := startup_built host file env now s₀ hstart
    rw [hstore]
    have hnodup := (Host.load_accepted _ _ _ hload).pool_names_nodup
    exact .of_build host.tags env s₀.cfg _ heap snap hbuilt hnodup
  have hrun := List.along_next_iff System.step (fun s => s.store.CheckersTracked)
    System.ReplacesChecker (fun s => s.store.CheckerInv) System.checkerInv_step
    System.checkersTracked_step_iff s₀ hinv ops
  rw [hrun]
  exact and_iff_right hinv.tracked

/-! ## Health checking that a reload switches on -/

/-- The pool of `plainConfig` with TCP health checks. -/
def checkedConfig : Config :=
  { plainConfig with
    pools := [{ Sample.pool "web" "10.0.0.1:8080" with
      healthCheck := some
        { type := "tcp", path := "", interval := 10000000000, timeout := 1000000000
          unhealthyThreshold := 3, healthyThreshold := 2 } }] }

/-- Health checks come with a reload; then a backend is added. -/
def checksThenAdd : List Op :=
  [.reload (Sample.reloadEnv 1 fun _ => .error "no such host"),
    .addBackend "web" (some { address := "10.0.0.2:8080", weight := 1 })]

/-- The add starts the checker of the replaced pool state a second time. -/
theorem add_restarts_old_checker :
    ∃ s₀, startup (Sample.host [plainConfig, checkedConfig]) (.ok [0])
        (Sample.env fun _ => .error "no such host") 0 = .ok s₀ ∧
      ¬ (s₀.exec checksThenAdd).store.CheckersTracked := by
  refine ⟨_, rfl, fun h => ?_⟩
  have honce := h.once 1 (by decide)
  exact absurd honce (by decide)

/-- With health checks from the start the same operations replace the checker
    each time. -/
theorem checks_from_startup_tracked :
    ∃ s₀, startup (Sample.host [checkedConfig, checkedConfig]) (.ok [0])
        (Sample.env fun _ => .error "no such host") 0 = .ok s₀ ∧
      s₀.store.CheckersTracked ∧
        checksThenAdd.Along System.step (fun s op => (s.step op).store.CheckersTracked) s₀ := by
  refine ⟨_, rfl, ?_⟩
  refine (checkers_tracked_iff (Sample.host [checkedConfig, checkedConfig]) (.ok [0])
    (Sample.env fun _ => .error "no such host") 0 _ rfl checksThenAdd).mpr ?_
  refine ⟨fun u hu => ?_, fun u hu => ?_, trivial⟩
  · cases hu
  · cases hu
    exact .inl (by decide)

end HootLb
