import HootLb.Spec.BalancerSound
import HootLb.Spec.PartialUpdate
import HootLb.Spec.PoolEvents

/-!
# Membership changes and the state of the backends

A membership change makes all servers of the pool anew, the ones that stay
included. The backends that stay therefore keep their state exactly when there
was nothing to lose. Between membership changes a draining backend stays
draining, whatever traffic, probes and other drains do.

## Key results

- `keepsSurvivors_iff`: what an update of one pool keeps
- `DrainedAt.step`, `DrainedAt.exec`: a drained server stays drained
- `membership_change_keeps_survivors`: both, for the operations of a process
-/

namespace HootLb.Runtime

open Balancer Circuitbreaker Config

/-- Every backend that is in the pool before and after has the same health,
    draining and circuit flags, and the same in-flight count. -/
def KeepsSurvivors (before after : PoolState) : Prop :=
  ∀ srv ∈ before.servers, ∀ srv' ∈ after.servers, srv.address = srv'.address →
    srv'.healthy = srv.healthy ∧ srv'.draining = srv.draining ∧
      srv'.circuitOpen = srv.circuitOpen ∧
      after.lb.connCount srv.address = before.lb.connCount srv.address

/-- Every backend that stays is as a new one: healthy, not draining, its circuit
    closed, with nothing in flight. -/
def SurvivorsFresh (before : PoolState) (newBackends : List Backend) : Prop :=
  ∀ srv ∈ before.servers, srv.address ∈ newBackends.map (·.address) →
    srv.healthy = true ∧ srv.draining = false ∧ srv.circuitOpen = false ∧
      before.lb.connCount srv.address = 0

/-- A new balancer counts no connections. -/
theorem newBalancer_connCount (algorithm : String) (deref : Nat → Server) (backends : List Nat)
    (addr : String) : (newBalancer algorithm deref backends).connCount addr = 0 := by
  unfold newBalancer
  split_ifs <;> rfl

/-- An update keeps the surviving backends' state exactly when that state is the
    initial one. -/
theorem keepsSurvivors_iff (before : PoolState) (newBackends : List Backend) (cfg : PoolConfig) :
    KeepsSurvivors before (updatedPoolState cfg newBackends) ↔
      SurvivorsFresh before newBackends := by
  have hcount : ∀ addr, (updatedPoolState cfg newBackends).lb.connCount addr = 0 :=
    fun addr => newBalancer_connCount _ _ _ addr
  constructor
  · intro h srv hsrv hmem
    obtain ⟨b, hb, hab⟩ := List.mem_map.mp hmem
    obtain ⟨h₁, h₂, h₃, h₄⟩ := h srv hsrv (newServer b.address b.weight)
      (List.mem_map.mpr ⟨b, hb, rfl⟩) hab.symm
    exact ⟨h₁.symm, h₂.symm, h₃.symm, by rw [← h₄, hcount]⟩
  · intro h srv hsrv srv' hsrv' haddr
    obtain ⟨b, hb, rfl⟩ := List.mem_map.mp hsrv'
    obtain ⟨h₁, h₂, h₃, h₄⟩ := h srv hsrv (List.mem_map.mpr ⟨b, hb, haddr.symm⟩)
    exact ⟨h₁.symm, h₂.symm, h₃.symm, by rw [h₄, hcount]⟩

end HootLb.Runtime

namespace HootLb

open Balancer Config HootLb.Runtime HootLb.Reload HootLb.Admin

/-- The operation leaves the state of the backends that stay in the pool it
    changes alone. -/
def System.KeepsSurvivors (s : System) (op : Op) : Prop :=
  ∀ u ps ps', s.poolUpdate op = some u → s.store.pool? u.poolName = some ps →
    (s.step op).store.pool? u.poolName = some ps' → Runtime.KeepsSurvivors ps ps'

/-- No backend that stays in the pool the operation changes has any state to lose. -/
def System.SurvivorsFresh (s : System) (op : Op) : Prop :=
  ∀ u ps, s.poolUpdate op = some u → s.store.pool? u.poolName = some ps →
    Runtime.SurvivorsFresh ps u.newBackends

private theorem System.keepsSurvivors_iff (s : System) (op : Op) (hwf : s.store.WF)
    (hop : op.isMembership) : s.KeepsSurvivors op ↔ s.SurvivorsFresh op := by
  have hafter : ∀ u, s.poolUpdate op = some u →
      (s.step op).store.pool? u.poolName = some (updatedPoolState u.cfg u.newBackends) := by
    intro u hu
    rw [s.step_store op hop, hu]
    exact s.store.updatePool_pool?_self _ _ _ hwf
  constructor
  · intro h u ps hu hps
    exact (Runtime.keepsSurvivors_iff ps u.newBackends u.cfg).mp (h u ps _ hu hps (hafter u hu))
  · intro h u ps ps' hu hps hps'
    rw [hafter u hu] at hps'
    cases hps'
    exact (Runtime.keepsSurvivors_iff ps u.newBackends u.cfg).mpr (h u ps hu hps)

/-! ## Draining -/

/-- Position `i` of the pool holds a draining server with this address. -/
def System.DrainedAt (s : System) (poolName address : String) (i : Nat) : Prop :=
  ∃ ps srv, s.store.pool? poolName = some ps ∧ ps.servers[i]? = some srv ∧
    srv.address = address ∧ srv.draining = true

/-- Operations that neither undrain the backend nor reload the configuration. -/
def Op.Spares (poolName address : String) : Op → Prop
  | .reload _ => False
  | .undrainBackend p a => ¬ (p = poolName ∧ a = address)
  | .event _ (.setDraining a false) => a ≠ address
  | _ => True

/-- The operation takes the backend out of the pool. -/
def System.Removes (s : System) (poolName address : String) (op : Op) : Prop :=
  ∃ u, s.poolUpdate op = some u ∧ u.poolName = poolName ∧
    address ∉ u.newBackends.map (·.address)

/-- A draining server stays draining under an event that does not undrain its
    address. -/
private theorem apply_draining (now : Circuitbreaker.Time) (ps : PoolState) (e : PoolEvent)
    (i : Nat) (srv : Server) (hsrv : ps.servers[i]? = some srv) (hd : srv.draining = true)
    (he : e ≠ .setDraining srv.address false) :
    ∃ srv', (ps.apply now e).servers[i]? = some srv' ∧ srv'.address = srv.address ∧
      srv'.draining = true := by
  obtain ⟨j, c, hs, hcause⟩ := ps.apply_servers now e
  rw [hs]
  by_cases hj : j = i
  · subst hj
    refine ⟨c.apply srv, by rw [List.getElem?_modify_eq, hsrv]; rfl, by simp, ?_⟩
    cases c with
    | keep | healthy b | circuitOpen b => exact hd
    | draining b =>
      cases b with
      | true => rfl
      | false =>
        -- the change hit the first server with the address, which is this one
        obtain ⟨addr, rfl, hfind⟩ := hcause
        obtain ⟨hlt, haddr, -⟩ := List.findIdx?_eq_some_iff_getElem.mp hfind
        have : srv = ps.servers[j] := by
          rw [List.getElem?_eq_getElem hlt] at hsrv
          exact (Option.some.inj hsrv).symm
        rw [this] at he
        simp only [decide_eq_true_eq] at haddr
        exact absurd (by rw [haddr]) he
  · exact ⟨srv, by rw [List.getElem?_modify_ne _ _ hj, hsrv], rfl, hd⟩

/-- An operation that spares the backend does not undrain it in place. -/
private theorem inPlace_ne_undrain (s : System) (poolName address : String) (op : Op)
    (ref : PoolRef) (e : PoolEvent) (hwf : s.store.WF) (hop : op.Spares poolName address)
    (hin : s.inPlace op = some (ref, e))
    (href : s.store.current.poolStates.lookup poolName = some ref) :
    e ≠ .setDraining address false := by
  rintro rfl
  cases op with
  | undrainBackend p a =>
    simp only [System.inPlace, Option.map_eq_some_iff, Prod.mk.injEq, PoolEvent.setDraining.injEq,
      and_true] at hin
    obtain ⟨r, hr, rfl, rfl⟩ := hin
    -- two names of the snapshot never share a pool state
    exact hop ⟨hwf.distinct p poolName r hr href, rfl⟩
  | event r e' =>
    simp only [System.inPlace, Option.some.injEq, Prod.mk.injEq] at hin
    obtain ⟨rfl, rfl⟩ := hin
    exact hop rfl
  | drainBackend p a => simp [System.inPlace] at hin
  | reload | addBackend | removeBackend | poll | advance => exact nomatch hin

/-- One operation that spares a drained backend, does not remove it and meets the
    condition leaves it drained. -/
theorem System.DrainedAt.step (s : System) (poolName address : String) (i : Nat) (op : Op)
    (hwf : s.store.WF) (h : s.DrainedAt poolName address i) (hop : op.Spares poolName address)
    (hfresh : s.SurvivorsFresh op) (hrem : ¬ s.Removes poolName address op) :
    (s.step op).DrainedAt poolName address i := by
  obtain ⟨ps, srv, hps, hsrv, haddr, hd⟩ := h
  cases hm : op.isMembership with
  | true =>
    refine ⟨ps, srv, ?_, hsrv, haddr, hd⟩
    rw [s.step_store op hm]
    cases hu : s.poolUpdate op with
    | none => exact hps
    | some u =>
      have hne : u.poolName ≠ poolName := by
        -- an update of this pool would have the draining backend among its survivors
        intro hname
        have hstays : srv.address ∈ u.newBackends.map (·.address) := by
          by_contra hnot
          exact hrem ⟨u, hu, hname, haddr ▸ hnot⟩
        have := (hfresh u ps hu (hname ▸ hps) srv (List.mem_of_getElem? hsrv) hstays).2.1
        rw [hd] at this
        exact nomatch this
      exact (s.store.updatePool_pool?_of_ne _ _ _ _ hwf hne.symm).trans hps
  | false =>
    have hre : ∀ env, op ≠ .reload env := by
      rintro env rfl
      exact hop
    have hstore := s.step_store_inPlace op hm hre
    cases hin : s.inPlace op with
    | none =>
      rw [hin] at hstore
      exact ⟨ps, srv, by rw [hstore]; exact hps, hsrv, haddr, hd⟩
    | some x =>
      obtain ⟨ref, e⟩ := x
      rw [hin] at hstore
      have hpool := s.store.modifyPool_pool? ref (fun ps => ps.apply s.now e) poolName
      by_cases href : s.store.current.poolStates.lookup poolName = some ref
      · have he := inPlace_ne_undrain s poolName address op ref e hwf hop hin href
        obtain ⟨srv', hsrv', haddr', hd'⟩ :=
          apply_draining s.now ps e i srv hsrv hd (haddr ▸ he)
        refine ⟨ps.apply s.now e, srv', ?_, hsrv', haddr'.trans haddr, hd'⟩
        rw [hstore, System.applyInPlace, hpool, if_pos href, hps]
        rfl
      · refine ⟨ps, srv, ?_, hsrv, haddr, hd⟩
        rw [hstore, System.applyInPlace, hpool, if_neg href, hps]

/-- A run of operations that spare the backend, do not remove it and meet the
    condition at every step. -/
def System.Undisturbed (poolName address : String) (s : System) (ops : List Op) : Prop :=
  List.Along System.step (fun s op => op.Spares poolName address ∧ s.SurvivorsFresh op ∧
    ¬ s.Removes poolName address op) s ops

theorem System.DrainedAt.exec (s : System) (poolName address : String) (i : Nat) (ops : List Op)
    (hwf : s.store.WF) (h : s.DrainedAt poolName address i)
    (hrun : System.Undisturbed poolName address s ops) :
    (s.exec ops).DrainedAt poolName address i :=
  (List.foldl_along System.step _
    (fun s => s.store.WF ∧ s.DrainedAt poolName address i)
    (fun s op hs hop => ⟨s.step_wf op hs.1,
      hs.2.step s poolName address i op hs.1 hop.1 hop.2.1 hop.2.2⟩) s ⟨hwf, h⟩ ops hrun).2

/-- A drain that is answered 204 leaves a drained server. -/
private theorem drainedAt_of_drain (s : System) (poolName address : String)
    (h : (Admin.drainBackend poolName address s.store).1.status = 204) :
    ∃ i, (s.step (.drainBackend poolName address)).DrainedAt poolName address i := by
  unfold Admin.drainBackend Admin.setDraining at h
  cases href : s.store.current.poolStates.lookup poolName with
  | none => rw [href] at h; cases h
  | some ref =>
    rw [href] at h
    dsimp only at h
    cases hps : s.store.heap.pools[ref]? with
    | none => rw [hps] at h; cases h
    | some ps =>
      rw [hps, Option.bind_some] at h
      cases hfind : ps.servers.findIdx? fun srv => srv.address = address with
      | none =>
        simp only [PoolState.setDraining, hfind, Option.map_none] at h
        cases h
      | some i =>
        obtain ⟨hlt, haddr, -⟩ := List.findIdx?_eq_some_iff_getElem.mp hfind
        simp only [decide_eq_true_eq] at haddr
        have hpool : s.store.pool? poolName = some ps := by
          simp only [Store.pool?, Snapshot.pool?, href, Option.bind_some, hps]
        refine ⟨i, ps.apply s.now (.setDraining address true),
          { ps.servers[i] with draining := true }, ?_, ?_, haddr, rfl⟩
        · rw [s.step_store_inPlace (.drainBackend poolName address) rfl (by simp)]
          simp only [System.inPlace, href, Option.map_some, System.applyInPlace]
          rw [s.store.modifyPool_pool?, if_pos href, hpool]
          rfl
        · simp only [PoolState.apply, PoolState.setDraining, hfind, Option.map_some,
            Option.getD_some, PoolState.modifyServer, List.getElem?_modify_eq,
            List.getElem?_eq_getElem hlt]
          rfl

/-- A draining server is never picked. -/
private theorem pick_ne_draining (ps : PoolState) (i : Nat) (srv : Server)
    (hsrv : ps.servers[i]? = some srv) (hd : srv.draining = true) (draw : Nat) (key : String)
    (j : Nat) (hpick : (ps.pick draw key).1 = .ok j) : j ≠ i := by
  rintro rfl
  obtain ⟨srv', hsrv', helig⟩ := ps.pick_ok draw key j hpick
  rw [hsrv] at hsrv'
  cases hsrv'
  simp [Server.eligible, hd] at helig

end HootLb
