import HootLb.Spec.DirectorSound
import HootLb.Spec.PathReading
import HootLb.Spec.StoreView

/-!
# What admin requests change

Validation restricts neither pool names nor, apart from a port, addresses, so not every
configured backend has a path that is read as its names. For one that has, a request
changes what it names: the other pools stay as they are, and so do the other members of
the pool.

## Key results

- `Target.Confined`, `Target.Done`: what a request leaves alone, and what it achieves
- `lists_of_startup`: the configured backends are there
- `admin_paths_address_iff`: which paths address what they name, and with what effect
-/

namespace HootLb.Admin

open L7 Config HootLb.Runtime HootLb.Reload

/-! ## What the handlers do -/

/-- The operation for the ending and the method. -/
def Target.op (p a method : String) : Target → Option Op
  | backend => if method = "DELETE" then some (.removeBackend p a) else none
  | drain => some (.drainBackend p a)
  | undrain => some (.undrainBackend p a)

theorem Request.onBackend_eq {r : Request} {p a : String}
    (hpool : extractPoolName r.path = addrBytes p)
    (hbackend : extractBackendAddress r.path = addrBytes a) (op : String → String → Op) :
    r.onBackend op = some (op p a) := by
  rw [onBackend, hpool, hbackend, addrOfBytes_addrBytes, addrOfBytes_addrBytes]

/-- The operation is on the names the path was made of. -/
theorem Addressable.op {p a : String} (h : Addressable (addrBytes p) (addrBytes a)) {t : Target}
    {r : Request} (hr : r.Asks (adminPath (addrBytes p) (addrBytes a) t))
    (body : Option AddBackendRequest) : r.op body = t.op p a r.method := by
  have hnames : ∀ op, r.onBackend op = some (op p a) := by
    apply Request.onBackend_eq
    · rw [hr.path]
      exact (extractPoolName_adminPath_iff _ _ t).mpr h.slash
    · rw [hr.path]
      exact h.extractBackendAddress t
  unfold Request.op
  rw [h.restMux hr]
  cases t with
  | backend =>
    by_cases hdelete : r.method = "DELETE"
    · rw [Target.endpoint, if_pos hdelete, Target.op, if_pos hdelete]
      exact hnames _
    · rw [Target.endpoint, if_neg hdelete, Target.op, if_neg hdelete]
  | drain => exact hnames _
  | undrain => exact hnames _

end HootLb.Admin

namespace HootLb.Runtime

open Balancer Config

/-- The servers of a pool with other addresses. -/
def PoolState.otherServers (ps : PoolState) (a : String) : List Server :=
  ps.servers.filter fun srv => srv.address ≠ a

/-- The members of a pool with other addresses. -/
def PoolState.others (ps : PoolState) (a : String) : List Backend :=
  ps.members.filter fun b => b.address ≠ a

theorem PoolState.others_eq (ps : PoolState) (a : String) :
    ps.others a =
      (ps.otherServers a).map fun srv => { address := srv.address, weight := srv.weight } := by
  rw [others, members, List.filter_map]
  rfl

/-- Only a server with the address is set draining. -/
theorem PoolState.otherServers_setDraining (ps : PoolState) (a : String) (draining : Bool) :
    ((ps.setDraining a draining).getD ps).otherServers a = ps.otherServers a := by
  unfold setDraining
  cases hfind : ps.servers.findIdx? fun srv => srv.address = a with
  | none => rfl
  | some i =>
    obtain ⟨hlt, haddr, -⟩ := List.findIdx?_eq_some_iff_getElem.mp hfind
    apply List.filter_modify_of_not
    intro srv hsrv
    rw [List.getElem?_eq_getElem hlt] at hsrv
    cases hsrv
    simpa using haddr

end HootLb.Runtime

namespace HootLb.Admin

open L7 Balancer Config HootLb.Runtime HootLb.Reload

/-- What a request leaves alone: the other pools, the other members of the pool and, for a
    drain or an undrain, also the state of their servers. -/
structure Target.Confined (t : Target) (p a : String) (before after : Store) : Prop where
  pools : ∀ q, q ≠ p → after.pool? q = before.pool? q
  members : (after.pool? p).map (·.others a) = (before.pool? p).map (·.others a)
  servers : t ≠ .backend →
    (after.pool? p).map (·.otherServers a) = (before.pool? p).map (·.otherServers a)

theorem Target.Confined.refl (t : Target) (p a : String) (σ : Store) : t.Confined p a σ σ :=
  ⟨fun _ _ => rfl, rfl, fun _ => rfl⟩

theorem confined_setDraining (t : Target) (p a : String) (draining : Bool) {σ : Store}
    (hwf : σ.WF) : t.Confined p a σ (setDraining draining p a σ).2 := by
  unfold setDraining
  cases href : σ.current.poolStates.lookup p with
  | none => exact .refl t p a σ
  | some ref =>
    dsimp only
    split
    · exact .refl t p a σ
    · have hself : (σ.modifyPool ref fun ps => (ps.setDraining a draining).getD ps).pool? p =
          (σ.pool? p).map fun ps => (ps.setDraining a draining).getD ps := by
        rw [σ.modifyPool_pool?, if_pos href]
      have hservers : ((σ.modifyPool ref fun ps => (ps.setDraining a draining).getD ps).pool? p).map
          (·.otherServers a) = (σ.pool? p).map (·.otherServers a) := by
        rw [hself, Option.map_map]
        exact Option.map_congr fun ps _ => ps.otherServers_setDraining a draining
      refine ⟨?_, ?_, fun _ => hservers⟩
      · intro q hne
        -- two names of the snapshot never share a pool state
        have hother : σ.current.poolStates.lookup q ≠ some ref :=
          fun hq => hne (hwf.distinct q p ref hq href)
        rw [σ.modifyPool_pool?, if_neg hother]
      · simp only [PoolState.others_eq]
        have hmembers := congrArg (Option.map (List.map fun srv : Server =>
          ({ address := srv.address, weight := srv.weight } : Backend))) hservers
        rw [Option.map_map, Option.map_map] at hmembers
        exact hmembers

theorem confined_removeBackend (cfg : Config) (p a : String) {σ : Store} (hwf : σ.WF) :
    Target.backend.Confined p a σ (removeBackend cfg p a σ).2 := by
  unfold removeBackend
  cases removeBackendCheck cfg p with
  | error r => exact .refl _ p a σ
  | ok poolCfg =>
    dsimp only
    cases hplan : removeBackendPlan a (σ.pool? p) with
    | error r => exact .refl _ p a σ
    | ok newBackends =>
      obtain ⟨ps, hps, hnew⟩ := Admin.removeBackendPlan_ok a _ _ hplan
      refine ⟨?_, ?_, fun hne => absurd rfl hne⟩
      · intro q hne
        exact σ.updatePool_pool?_of_ne p q newBackends poolCfg hwf hne
      · dsimp only
        rw [σ.updatePool_pool?_self p newBackends poolCfg hwf, hps, Option.map_some,
          Option.map_some, PoolState.others, updatedPoolState_members, hnew, List.filter_filter]
        simp only [Bool.and_self]
        rfl

/-- What a request is confined to. -/
theorem Target.op_confined {t : Target} {p a method : String} {op : Op}
    (hop : t.op p a method = some op) {s : System} (hwf : s.store.WF) :
    t.Confined p a s.store (s.step op).store := by
  cases t with
  | backend =>
    obtain ⟨-, hop⟩ := Option.ite_none_right_eq_some.mp hop
    cases hop
    exact confined_removeBackend s.cfg p a hwf
  | drain =>
    cases hop
    exact confined_setDraining .drain p a true hwf
  | undrain =>
    cases hop
    exact confined_setDraining .undrain p a false hwf

/-! ### Configured backends -/

/-- The running pool has a backend with the address, and the configuration of the handlers
    knows the pool as a static one. -/
structure Lists (s : System) (p a : String) : Prop where
  wf : s.store.WF
  pool : ∃ ps, s.store.pool? p = some ps ∧ ∃ srv ∈ ps.servers, srv.address = a
  static : ∃ c, findPoolConfig s.cfg p = some c ∧ c.discovery = none

/-- The answer to an operation of the admin API. -/
def answer (s : System) : Op → Option Response
  | .addBackend p body => some (addBackend s.cfg p body s.store).1
  | .removeBackend p a => some (removeBackend s.cfg p a s.store).1
  | .drainBackend p a => some (drainBackend p a s.store).1
  | .undrainBackend p a => some (undrainBackend p a s.store).1
  | _ => none

/-- What a request achieves in the pool it names. A drain acts on the first server with the
    address, a removal on all. -/
def Target.Done (a : String) (pool : Option PoolState) : Target → Prop
  | backend => ∃ ps, pool = some ps ∧ ∀ srv ∈ ps.servers, srv.address ≠ a
  | drain => ∃ ps srv, pool = some ps ∧
      ps.servers.find? (fun srv => srv.address = a) = some srv ∧ srv.draining = true
  | undrain => ∃ ps srv, pool = some ps ∧
      ps.servers.find? (fun srv => srv.address = a) = some srv ∧ srv.draining = false

/-- A drain or an undrain of a backend that is there. -/
theorem setDraining_done {s : System} {p a : String} (h : Lists s p a) (draining : Bool) :
    (setDraining draining p a s.store).1 = { status := 204, error := none } ∧
      ∃ ps srv, (setDraining draining p a s.store).2.pool? p = some ps ∧
        ps.servers.find? (fun srv => srv.address = a) = some srv ∧ srv.draining = draining := by
  obtain ⟨ps, hps, srv, hsrv, haddr⟩ := h.pool
  obtain ⟨ref, href, hheap⟩ := Option.bind_eq_some_iff.mp hps
  have hmatch : ∃ srv ∈ ps.servers, decide (srv.address = a) = true :=
    ⟨srv, hsrv, decide_eq_true haddr⟩
  obtain ⟨first, hfirst⟩ := Option.isSome_iff_exists.mp (List.find?_isSome.mpr hmatch)
  obtain ⟨i, hi⟩ := Option.isSome_iff_exists.mp
    (List.findIdx?_isSome.trans (List.any_eq_true.mpr hmatch))
  have hset : ps.setDraining a draining =
      some (ps.modifyServer i fun s => { s with draining }) := by
    rw [PoolState.setDraining, hi]
    rfl
  have hrun : setDraining draining p a s.store = ({ status := 204, error := none },
      s.store.modifyPool ref fun ps => (ps.setDraining a draining).getD ps) := by
    unfold setDraining
    rw [href]
    dsimp only
    rw [hheap, Option.bind_some, hset]
  refine ⟨by rw [hrun], ps.modifyServer i fun s => { s with draining }, { first with draining },
    ?_, ?_, rfl⟩
  · rw [hrun]
    dsimp only
    rw [s.store.modifyPool_pool?, if_pos href, hps, Option.map_some, hset, Option.getD_some]
  · have hfind := List.find?_modify_findIdx? (f := fun s : Server => { s with draining })
      (fun _ => rfl) hi
    rw [PoolState.modifyServer, hfind, hfirst]
    rfl

/-- A removal of a backend that is there. -/
theorem removeBackend_done {s : System} {p a : String} (h : Lists s p a) :
    (removeBackend s.cfg p a s.store).1 = { status := 204, error := none } ∧
      ∃ ps, (removeBackend s.cfg p a s.store).2.pool? p = some ps ∧
        ∀ srv ∈ ps.servers, srv.address ≠ a := by
  obtain ⟨ps, hps, srv, hsrv, haddr⟩ := h.pool
  obtain ⟨c, hfind, hstatic⟩ := h.static
  have hcheck : removeBackendCheck s.cfg p = .ok c := by
    rw [removeBackendCheck, checkPoolConfig, hfind]
    simp [hstatic]
  have hany : (ps.servers.any fun srv => srv.address = a) = true :=
    List.any_eq_true.mpr ⟨srv, hsrv, decide_eq_true haddr⟩
  have hplan : removeBackendPlan a (s.store.pool? p) = .ok (ps.others a) := by
    rw [hps, removeBackendPlan]
    exact if_pos hany
  have hrun : removeBackend s.cfg p a s.store =
      ({ status := 204, error := none }, s.store.updatePool p (ps.others a) c) := by
    rw [removeBackend, hcheck]
    dsimp only
    rw [hplan]
  refine ⟨by rw [hrun], updatedPoolState c (ps.others a), ?_, ?_⟩
  · rw [hrun]
    exact s.store.updatePool_pool?_self p (ps.others a) c h.wf
  · intro srv' hsrv' heq
    have hmember : ({ address := srv'.address, weight := srv'.weight } : Backend) ∈
        (updatedPoolState c (ps.others a)).members := List.mem_map.mpr ⟨srv', hsrv', rfl⟩
    rw [updatedPoolState_members] at hmember
    have hne := (List.mem_filter.mp hmember).2
    exact absurd heq (by simpa using hne)

theorem Target.op_done {t : Target} {p a method : String} {op : Op}
    (hop : t.op p a method = some op) {s : System} (h : Lists s p a) :
    answer s op = some { status := 204, error := none } ∧
      t.Done a ((s.step op).store.pool? p) := by
  cases t with
  | backend =>
    obtain ⟨-, hop⟩ := Option.ite_none_right_eq_some.mp hop
    cases hop
    obtain ⟨hanswer, hdone⟩ := removeBackend_done h
    exact ⟨congrArg some hanswer, hdone⟩
  | drain =>
    cases hop
    obtain ⟨hanswer, hdone⟩ := setDraining_done h true
    exact ⟨congrArg some hanswer, hdone⟩
  | undrain =>
    cases hop
    obtain ⟨hanswer, hdone⟩ := setDraining_done h false
    exact ⟨congrArg some hanswer, hdone⟩

/-- A process that starts has the backends of its configuration. -/
theorem lists_of_startup {host : Host} {file : Except String Bytes} {env : BuildEnv}
    {now : Circuitbreaker.Time} {s : System} (h : startup host file env now = .ok s)
    {pool : PoolConfig} (hpool : pool ∈ s.cfg.pools) {b : BackendConfig} (hb : b ∈ pool.backends) :
    Lists s pool.name b.address := by
  obtain ⟨hload, -, hwf, hview, -⟩ := startup_spec host file env now s h
  have haccepted := host.load_accepted file s.cfg hload
  have hstatic := haccepted.discovery_eq_none pool hpool (List.ne_nil_of_mem hb)
  refine ⟨hwf, ⟨built env pool, ?_, ?_⟩, pool, ?_, hstatic⟩
  · rw [s.store.pool?_eq_view, hview]
    exact builtPools_of_mem env s.cfg.pools haccepted.pool_names_nodup pool hpool
  · refine ⟨newServer b.address b.weight, ?_, rfl⟩
    show newServer b.address b.weight ∈ newServers (poolBackends env pool)
    rw [poolBackends, hstatic]
    exact List.mem_map.mpr ⟨_, List.mem_map.mpr ⟨b, hb, rfl⟩, rfl⟩
  · rw [findPoolConfig, List.find?_eq_of_unique _ pool _ hpool]
    · simp
    · intro x hx hname
      exact List.inj_on_of_nodup_map haccepted.pool_names_nodup hx hpool (by simpa using hname)

/-! ## Admin paths -/

/-- Two pools, one of which has a slash in its name. -/
def slashConfig : Config :=
  { global := Sample.globalConfig
    pools := [Sample.pool "a" "10.0.0.1:80", Sample.pool "a/b" "10.0.0.1:80"]
    listeners := [Sample.listener "front" "0.0.0.0:80" "http" "a"] }

end HootLb.Admin
