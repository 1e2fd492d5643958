import HootLb.ForStd.List
import HootLb.Native.System
import HootLb.Spec.ValidateSound

/-!
# The updaters on views

What the operations of the running process do to what the current snapshot
shows. A partial update replaces one pool of the view; a reload either completes
and replaces the whole view by that of a fresh build, or leaves it alone; whether
it completes depends on the surroundings and on the running listeners only.
Traffic, probes, drain and undrain change one pool state in place.

## Key results

- `Store.updatePool_view`: add, remove and poll
- `checkAndReload_of_error`, `checkAndReload_of_ok`: a reload
- `System.step_wf`, `System.exec_wf`: no operation leaves a dangling pointer
-/

namespace HootLb.Runtime

open Balancer Circuitbreaker Config

/-- What the current snapshot shows. -/
def Store.view (σ : Store) : View := σ.current.view σ.heap

/-- The current snapshot is well formed. -/
def Store.WF (σ : Store) : Prop := σ.current.WF σ.heap

theorem Store.pool?_eq_view (σ : Store) (name : String) : σ.pool? name = σ.view.pools name := rfl

/-! ## Partial update -/

theorem Store.updatePool_view (σ : Store) (poolName : String) (newBackends : List Backend)
    (cfg : PoolConfig) (h : σ.WF) :
    (σ.updatePool poolName newBackends cfg).view =
      σ.view.updatePool poolName newBackends cfg :=
  updatePoolBackends_view σ.current σ.heap poolName newBackends cfg h

theorem Store.updatePool_wf (σ : Store) (poolName : String) (newBackends : List Backend)
    (cfg : PoolConfig) (h : σ.WF) : (σ.updatePool poolName newBackends cfg).WF :=
  updatePoolBackends_wf σ.current σ.heap poolName newBackends cfg h

/-- The replaced pool. -/
theorem Store.updatePool_pool?_self (σ : Store) (poolName : String) (newBackends : List Backend)
    (cfg : PoolConfig) (h : σ.WF) :
    (σ.updatePool poolName newBackends cfg).pool? poolName =
      some (updatedPoolState cfg newBackends) := by
  rw [Store.pool?_eq_view, Store.updatePool_view σ poolName newBackends cfg h]
  simp [View.updatePool]

/-- Every other pool. -/
theorem Store.updatePool_pool?_of_ne (σ : Store) (poolName name : String)
    (newBackends : List Backend) (cfg : PoolConfig) (h : σ.WF) (hne : name ≠ poolName) :
    (σ.updatePool poolName newBackends cfg).pool? name = σ.pool? name := by
  rw [Store.pool?_eq_view, Store.updatePool_view σ poolName newBackends cfg h]
  exact Function.update_of_ne hne _ _

/-- Apply a partial update, if there is one. -/
def Store.applyUpdate (σ : Store) : Option PoolUpdate → Store
  | none => σ
  | some u => σ.updatePool u.poolName u.newBackends u.cfg

/-! ## Changes in place -/

theorem Store.modifyPool_wf (σ : Store) (ref : PoolRef) (f : PoolState → PoolState) (h : σ.WF) :
    (σ.modifyPool ref f).WF :=
  ⟨h.pools.modify ref f, h.checkers.modify ref f, h.certs, h.distinct⟩

/-- Changing a pool state in place is seen under the names that point at it. -/
theorem Store.modifyPool_pool? (σ : Store) (ref : PoolRef) (f : PoolState → PoolState)
    (name : String) :
    (σ.modifyPool ref f).pool? name =
      if σ.current.poolStates.lookup name = some ref then (σ.pool? name).map f
      else σ.pool? name :=
  RefMap.deref_modify σ.current.poolStates σ.heap.pools ref f name

end HootLb.Runtime

namespace HootLb.Reload

open Config HootLb.Runtime

/-! ## Reload -/

/-- The first listener whose running certificate store cannot be refilled. -/
def reloadCertsError (load : KeyPairLoader) (stores : GoMap CertRef)
    (listeners : List ListenerConfig) : Option ReloadError :=
  listeners.findSome? fun l =>
    match terminateCerts l, stores.lookup l.name with
    | some entries, some _ => (keyPairError load entries).map (.certificates l.name)
    | _, _ => none

/-- Why no snapshot is built for a validated configuration, given the listeners
    of the running snapshot. -/
def Watcher.rebuildError (w : Watcher) (cfg : Config) (env : ReloadEnv)
    (running : List ListenerFingerprint) : Option ReloadError :=
  match diffListeners running (cfg.listeners.map fingerprint) with
  | some change => some (.listeners change)
  | none =>
    match reloadCertsError env.loadX509KeyPair w.certStores cfg.listeners with
    | some e => some e
    | none => (buildError w.host.tags env.build cfg).map .build

/-- Why a reload does not complete, given the listeners of the running snapshot. -/
def Watcher.reloadError (w : Watcher) (env : ReloadEnv) (running : List ListenerFingerprint) :
    Option ReloadError :=
  match w.host.load env.file with
  | .error e => some (.load e)
  | .ok cfg => w.rebuildError cfg env running

/-- The certificate loop stops with `reloadCertsError` and never changes how many
    stores there are. -/
theorem reloadCertificates_spec (load : KeyPairLoader) (stores : GoMap CertRef)
    (ls : List ListenerConfig) (certs : List (GoMap Certificate)) :
    (reloadCertificates load stores ls certs).1 = reloadCertsError load stores ls ∧
    (reloadCertificates load stores ls certs).2.length = certs.length := by
  induction ls generalizing certs with
  | nil => exact ⟨rfl, rfl⟩
  | cons l rest ih =>
    rw [reloadCertsError, List.findSome?_cons, ← reloadCertsError]
    simp only [reloadCertificates]
    cases hl : terminateCerts l with
    | none => exact ih certs
    | some entries =>
      cases hs : stores.lookup l.name with
      | none => exact ih certs
      | some ref =>
        have hload := loadCertificates_eq load entries ∅
        cases hk : keyPairError load entries with
        | some e =>
          rw [hk] at hload
          simp only [hload, hk, Option.map_some, and_self]
        | none =>
          rw [hk] at hload
          obtain ⟨m, hm⟩ := hload
          simp only [hm, hk]
          obtain ⟨he, hlen⟩ := ih (certs.set ref m)
          exact ⟨he, by rw [hlen, List.length_set]⟩

/-- What `rebuild` returns: a failure leaves the pool states alone, a success
    shows a fresh build. -/
theorem Watcher.rebuild_spec (w : Watcher) (cfg : Config) (env : ReloadEnv) (old : Snapshot)
    (heap : Heap) :
    match w.rebuildError cfg env old.listeners with
    | some e => ∃ certs, certs.length = heap.certs.length ∧
        w.rebuild cfg env old heap = (.error e, { heap with certs := certs })
    | none => ∃ new heap', w.rebuild cfg env old heap = (.ok new, heap') ∧
        new.view heap' = View.build env.build cfg ∧ new.WF heap' ∧ heap.Grows heap' := by
  unfold Watcher.rebuildError Watcher.rebuild
  cases diffListeners old.listeners (cfg.listeners.map fingerprint) with
  | some change => exact ⟨heap.certs, rfl, rfl⟩
  | none =>
    obtain ⟨hcerts, hlen⟩ :=
      reloadCertificates_spec env.loadX509KeyPair w.certStores cfg.listeners heap.certs
    dsimp only
    rw [← hcerts]
    generalize reloadCertificates env.loadX509KeyPair w.certStores cfg.listeners heap.certs = r
      at hlen
    obtain ⟨err, certs⟩ := r
    cases err with
    | some e => exact ⟨certs, hlen, rfl⟩
    | none =>
      dsimp only at hlen ⊢
      cases hb : buildError w.host.tags env.build cfg with
      | some b => exact ⟨certs, hlen, by rw [buildSnapshot_error _ _ _ _ b hb]⟩
      | none =>
        obtain ⟨new, heap', hrun, hview, hwf, hgrow⟩ :=
          buildSnapshot_ok w.host.tags env.build cfg { heap with certs := certs } hb
        exact ⟨new, heap', by rw [hrun], hview, hwf, ⟨hgrow.pools, hlen ▸ hgrow.certs⟩⟩

/-- The snapshot `rebuild` returns was built on a heap that differs from the
    running one in the contents of certificate stores only. -/
theorem Watcher.rebuild_built (w : Watcher) (cfg : Config) (env : ReloadEnv) (old : Snapshot)
    (heap : Heap) (new : Snapshot) (heap' : Heap)
    (h : w.rebuild cfg env old heap = (.ok new, heap')) :
    ∃ certs, certs.length = heap.certs.length ∧
      buildSnapshot w.host.tags env.build cfg { heap with certs := certs } = .ok (new, heap') := by
  unfold Watcher.rebuild at h
  cases hd : diffListeners old.listeners (cfg.listeners.map fingerprint) with
  | some change => rw [hd] at h; cases h
  | none =>
    rw [hd] at h
    have hlen :=
      (reloadCertificates_spec env.loadX509KeyPair w.certStores cfg.listeners heap.certs).2
    dsimp only at h
    generalize reloadCertificates env.loadX509KeyPair w.certStores cfg.listeners heap.certs = r
      at h hlen
    obtain ⟨err, certs⟩ := r
    cases err with
    | some e => cases h
    | none =>
      dsimp only at h hlen
      cases hb : buildSnapshot w.host.tags env.build cfg { heap with certs := certs } with
      | error e => rw [hb] at h; cases h
      | ok r =>
        obtain ⟨new', heap''⟩ := r
        rw [hb] at h
        cases h
        exact ⟨certs, hlen, hb⟩

/-- A reload that does not complete keeps the current snapshot and every pool
    state. -/
theorem Watcher.checkAndReload_of_error (w : Watcher) (env : ReloadEnv) (σ : Store)
    (e : ReloadError) (he : w.reloadError env σ.current.listeners = some e) :
    ∃ certs, certs.length = σ.heap.certs.length ∧
      w.checkAndReload env σ =
        (some e, { σ with heap := { σ.heap with certs := certs } }) := by
  unfold Watcher.reloadError at he
  unfold Watcher.checkAndReload
  cases hcfg : w.host.load env.file with
  | error why =>
    rw [hcfg] at he
    cases he
    exact ⟨σ.heap.certs, rfl, rfl⟩
  | ok cfg =>
    rw [hcfg] at he
    dsimp only at he
    have hspec := w.rebuild_spec cfg env σ.current σ.heap
    rw [he] at hspec
    obtain ⟨certs, hlen, hrun⟩ := hspec
    exact ⟨certs, hlen, by simp only [hrun]⟩

/-- A reload that completes has loaded a configuration and built it. -/
theorem Watcher.rebuild_of_ok (w : Watcher) (env : ReloadEnv) (σ : Store)
    (he : w.reloadError env σ.current.listeners = none) :
    ∃ cfg new heap', w.host.load env.file = .ok cfg ∧
      w.rebuild cfg env σ.current σ.heap = (.ok new, heap') ∧
      new.view heap' = View.build env.build cfg ∧ new.WF heap' := by
  unfold Watcher.reloadError at he
  cases hcfg : w.host.load env.file with
  | error why => rw [hcfg] at he; exact nomatch he
  | ok cfg =>
    rw [hcfg] at he
    dsimp only at he
    have hspec := w.rebuild_spec cfg env σ.current σ.heap
    rw [he] at hspec
    obtain ⟨new, heap', hrun, hview, hwf, -⟩ := hspec
    exact ⟨cfg, new, heap', rfl, hrun, hview, hwf⟩

/-- A reload that completes installs a fresh build of the configuration. -/
theorem Watcher.checkAndReload_of_ok (w : Watcher) (env : ReloadEnv) (σ : Store)
    (he : w.reloadError env σ.current.listeners = none) :
    ∃ cfg, w.host.load env.file = .ok cfg ∧ (w.checkAndReload env σ).1 = none ∧
      (w.checkAndReload env σ).2.view = View.build env.build cfg ∧
      (w.checkAndReload env σ).2.WF := by
  obtain ⟨cfg, new, heap', hcfg, hrun, hview, hwf⟩ := w.rebuild_of_ok env σ he
  refine ⟨cfg, hcfg, ?_⟩
  unfold Watcher.checkAndReload
  rw [hcfg]
  dsimp only
  rw [hrun]
  exact ⟨rfl, hview, hwf⟩

/-- A reload that completes starts the checkers of a fresh build, swaps it in and
    stops the old checkers. -/
theorem Watcher.checkAndReload_installs (w : Watcher) (env : ReloadEnv) (σ : Store)
    (he : w.reloadError env σ.current.listeners = none) :
    ∃ cfg certs new heap', w.host.load env.file = .ok cfg ∧
      certs.length = σ.heap.certs.length ∧
      buildSnapshot w.host.tags env.build cfg { σ.heap with certs := certs } = .ok (new, heap') ∧
      (w.checkAndReload env σ).2 =
        σ.install heap' new (checkerRefs new) (checkerRefs σ.current) := by
  obtain ⟨cfg, new, heap', hcfg, hrun, -⟩ := w.rebuild_of_ok env σ he
  obtain ⟨certs, hlen, hbuilt⟩ := w.rebuild_built cfg env σ.current σ.heap new heap' hrun
  have hinstall : (w.checkAndReload env σ).2 =
      σ.install heap' new (checkerRefs new) (checkerRefs σ.current) := by
    simp only [Watcher.checkAndReload, hcfg, hrun]
  exact ⟨cfg, certs, new, heap', hcfg, hlen, hbuilt, hinstall⟩

/-- A configuration that `load` returns passes `Validate`. -/
theorem Host.load_accepted (host : Host) (file : Except String Bytes) (cfg : Config)
    (h : host.load file = .ok cfg) : Accepted host.getenv host.tags cfg := by
  unfold Host.load at h
  split at h
  · exact nomatch h
  · split at h
    · exact nomatch h
    · split at h
      · rename_i hv
        cases h
        exact hv
      · exact nomatch h

/-- Whether a reload completes. -/
theorem Watcher.checkAndReload_fst (w : Watcher) (env : ReloadEnv) (σ : Store) :
    (w.checkAndReload env σ).1 = w.reloadError env σ.current.listeners := by
  cases he : w.reloadError env σ.current.listeners with
  | some e =>
    obtain ⟨certs, -, hrun⟩ := w.checkAndReload_of_error env σ e he
    rw [hrun]
  | none =>
    obtain ⟨cfg, -, hnone, -⟩ := w.checkAndReload_of_ok env σ he
    exact hnone

/-- A reload, completed or not, leaves a well-formed store. -/
theorem Watcher.checkAndReload_wf (w : Watcher) (env : ReloadEnv) (σ : Store) (h : σ.WF) :
    (w.checkAndReload env σ).2.WF := by
  cases he : w.reloadError env σ.current.listeners with
  | some e =>
    obtain ⟨certs, hlen, hrun⟩ := w.checkAndReload_of_error env σ e he
    rw [hrun]
    exact Snapshot.WF.grow h ⟨⟨[], by simp⟩, Nat.le_of_eq hlen.symm⟩
  | none =>
    obtain ⟨cfg, -, -, -, hwf⟩ := w.checkAndReload_of_ok env σ he
    exact hwf

end HootLb.Reload

namespace HootLb

open Config HootLb.Runtime HootLb.Reload HootLb.Admin

/-! ## Operations of the process -/

/-- The partial update an operation performs in this state, if any. -/
def System.poolUpdate (s : System) : Op → Option PoolUpdate
  | .addBackend poolName body =>
    match addBackendCheck s.cfg poolName body with
    | .error _ => none
    | .ok (poolCfg, req) =>
      match addBackendPlan req (s.store.pool? poolName) with
      | .error _ => none
      | .ok newBackends => some ⟨poolName, newBackends, poolCfg⟩
  | .removeBackend poolName address =>
    match removeBackendCheck s.cfg poolName with
    | .error _ => none
    | .ok poolCfg =>
      match removeBackendPlan address (s.store.pool? poolName) with
      | .error _ => none
      | .ok newBackends => some ⟨poolName, newBackends, poolCfg⟩
  | .poll k resolved =>
    match s.pollers[k]? with
    | none => none
    | some p =>
      match p.pollCheck resolved with
      | .error _ => none
      | .ok newBackends => some ⟨p.poolName, newBackends, p.cfg⟩
  | _ => none

/-- The operations that change a pool's membership: add, remove and poll. -/
def Op.isMembership : Op → Bool
  | .addBackend .. | .removeBackend .. | .poll .. => true
  | _ => false

/-- A membership operation is its partial update. -/
theorem System.step_store (s : System) (op : Op) (hop : op.isMembership) :
    (s.step op).store = s.store.applyUpdate (s.poolUpdate op) := by
  cases op with
  | addBackend poolName body =>
    simp only [System.step, System.poolUpdate, Admin.addBackend]
    cases addBackendCheck s.cfg poolName body with
    | error r => rfl
    | ok c =>
      obtain ⟨poolCfg, req⟩ := c
      dsimp only
      cases addBackendPlan req (s.store.pool? poolName) <;> rfl
  | removeBackend poolName address =>
    simp only [System.step, System.poolUpdate, Admin.removeBackend]
    cases removeBackendCheck s.cfg poolName with
    | error r => rfl
    | ok poolCfg =>
      dsimp only
      cases removeBackendPlan address (s.store.pool? poolName) <;> rfl
  | poll k resolved =>
    simp only [System.step, System.poolUpdate]
    cases s.pollers[k]? with
    | none => rfl
    | some p =>
      simp only [Poller.poll]
      cases p.pollCheck resolved <;> rfl
  | reload | drainBackend | undrainBackend | event | advance => cases hop

/-! ### What the handlers and the pollers ask for -/

theorem findPoolConfig_spec (cfg : Config) (name : String) (p : PoolConfig)
    (h : findPoolConfig cfg name = some p) : p ∈ cfg.pools ∧ p.name = name := by
  refine ⟨List.mem_of_find?_eq_some h, ?_⟩
  simpa using List.find?_some h

theorem Admin.checkPoolConfig_ok (cfg : Config) (poolName conflict : String) (p : PoolConfig)
    (h : checkPoolConfig cfg poolName conflict = .ok p) :
    findPoolConfig cfg poolName = some p ∧ p.discovery = none := by
  unfold checkPoolConfig at h
  split at h
  · exact nomatch h
  · rename_i hfind
    split at h
    · exact nomatch h
    · rename_i hd
      cases h
      exact ⟨hfind, by simpa using hd⟩

/-- An add goes on with the settings of the handler's configuration. -/
theorem Admin.addBackendCheck_ok (cfg : Config) (poolName : String)
    (body : Option AddBackendRequest) (p : PoolConfig) (req : AddBackendRequest)
    (h : addBackendCheck cfg poolName body = .ok (p, req)) :
    findPoolConfig cfg poolName = some p ∧ p.discovery = none ∧ body = some req := by
  unfold addBackendCheck at h
  split at h
  · exact nomatch h
  · rename_i hpc
    obtain ⟨hfind, hdisc⟩ := Admin.checkPoolConfig_ok _ _ _ _ hpc
    split at h
    · exact nomatch h
    · split at h
      · exact nomatch h
      · cases h
        exact ⟨hfind, hdisc, rfl⟩

/-- An add asks for the members of the snapshot and the new backend. -/
theorem Admin.addBackendPlan_ok (req : AddBackendRequest) (pool : Option PoolState)
    (newBackends : List Backend) (h : addBackendPlan req pool = .ok newBackends) :
    ∃ ps, pool = some ps ∧ (∀ srv ∈ ps.servers, srv.address ≠ req.address) ∧
      newBackends = ps.members ++ [{ address := req.address, weight := req.weight }] := by
  unfold addBackendPlan at h
  split at h
  · exact nomatch h
  · rename_i ps
    split at h
    · exact nomatch h
    · rename_i hnone
      cases h
      exact ⟨ps, rfl, by simpa using hnone, rfl⟩

/-- A removal asks for the members of the snapshot without the backend. -/
theorem Admin.removeBackendPlan_ok (address : String) (pool : Option PoolState)
    (newBackends : List Backend) (h : removeBackendPlan address pool = .ok newBackends) :
    ∃ ps, pool = some ps ∧ newBackends = ps.members.filter fun b => b.address ≠ address := by
  unfold removeBackendPlan at h
  split at h
  · exact nomatch h
  · rename_i ps
    split at h
    · cases h
      exact ⟨ps, rfl, rfl⟩
    · exact nomatch h

/-- A poll asks for what it resolved. -/
theorem Poller.pollCheck_ok (p : Poller) (resolved : Except String (List Backend))
    (newBackends : List Backend) (h : p.pollCheck resolved = .ok newBackends) :
    resolved = .ok newBackends ∧ backendSetsEqual p.lastBackends newBackends = false := by
  unfold Poller.pollCheck at h
  split at h
  · exact nomatch h
  · split at h
    · exact nomatch h
    · rename_i hne
      cases h
      exact ⟨rfl, by simpa using hne⟩

/-! Every rejected request is given a reason. -/

theorem Admin.checkPoolConfig_error (cfg : Config) (poolName conflict : String) (r : Response)
    (h : checkPoolConfig cfg poolName conflict = .error r) : r.error.isNone = false := by
  unfold checkPoolConfig at h
  split at h
  · cases h; rfl
  · split at h
    · cases h; rfl
    · exact nomatch h

theorem Admin.addBackendCheck_error (cfg : Config) (poolName : String)
    (body : Option AddBackendRequest) (r : Response)
    (h : addBackendCheck cfg poolName body = .error r) : r.error.isNone = false := by
  unfold addBackendCheck at h
  split at h
  · rename_i hpc
    cases h
    exact Admin.checkPoolConfig_error _ _ _ _ hpc
  · split at h
    · cases h; rfl
    · split at h
      · cases h; rfl
      · exact nomatch h

theorem Admin.addBackendPlan_error (req : AddBackendRequest) (pool : Option PoolState)
    (r : Response) (h : addBackendPlan req pool = .error r) : r.error.isNone = false := by
  unfold addBackendPlan at h
  split at h
  · cases h; rfl
  · split at h
    · cases h; rfl
    · exact nomatch h

theorem Admin.removeBackendPlan_error (address : String) (pool : Option PoolState)
    (r : Response) (h : removeBackendPlan address pool = .error r) : r.error.isNone = false := by
  unfold removeBackendPlan at h
  split at h
  · cases h; rfl
  · split at h
    · exact nomatch h
    · cases h; rfl

/-- The update of an add: the pool's settings come from the handler's
    configuration, its members from the snapshot. -/
theorem System.poolUpdate_addBackend (s : System) (poolName : String)
    (body : Option AddBackendRequest) (u : PoolUpdate)
    (h : s.poolUpdate (.addBackend poolName body) = some u) :
    u.poolName = poolName ∧ findPoolConfig s.cfg poolName = some u.cfg ∧
      u.cfg.discovery = none ∧ ∃ req ps, body = some req ∧ s.store.pool? poolName = some ps ∧
        (∀ srv ∈ ps.servers, srv.address ≠ req.address) ∧
        u.newBackends = ps.members ++ [{ address := req.address, weight := req.weight }] := by
  simp only [System.poolUpdate] at h
  split at h
  · exact nomatch h
  · rename_i poolCfg req hcheck
    split at h
    · exact nomatch h
    · rename_i newBackends hplan
      cases h
      obtain ⟨hfind, hdisc, hbody⟩ := Admin.addBackendCheck_ok _ _ _ _ _ hcheck
      obtain ⟨ps, hps, hfresh, hnew⟩ := Admin.addBackendPlan_ok _ _ _ hplan
      exact ⟨rfl, hfind, hdisc, req, ps, hbody, hps, hfresh, hnew⟩

/-- The update of a removal. -/
theorem System.poolUpdate_removeBackend (s : System) (poolName address : String) (u : PoolUpdate)
    (h : s.poolUpdate (.removeBackend poolName address) = some u) :
    u.poolName = poolName ∧ findPoolConfig s.cfg poolName = some u.cfg ∧
      u.cfg.discovery = none ∧ ∃ ps, s.store.pool? poolName = some ps ∧
        u.newBackends = ps.members.filter fun b => b.address ≠ address := by
  simp only [System.poolUpdate, removeBackendCheck] at h
  split at h
  · exact nomatch h
  · rename_i hpc
    obtain ⟨hfind, hdisc⟩ := Admin.checkPoolConfig_ok _ _ _ _ hpc
    split at h
    · exact nomatch h
    · rename_i newBackends hplan
      cases h
      obtain ⟨ps, hps, hnew⟩ := Admin.removeBackendPlan_ok _ _ _ hplan
      exact ⟨rfl, hfind, hdisc, ps, hps, hnew⟩

/-- The update of a poll: settings and pool name are the poller's. -/
theorem System.poolUpdate_poll (s : System) (k : Nat)
    (resolved : Except String (List Backend)) (u : PoolUpdate)
    (h : s.poolUpdate (.poll k resolved) = some u) :
    ∃ p, s.pollers[k]? = some p ∧ resolved = .ok u.newBackends ∧
      backendSetsEqual p.lastBackends u.newBackends = false ∧
      u.poolName = p.poolName ∧ u.cfg = p.cfg := by
  simp only [System.poolUpdate] at h
  split at h
  · exact nomatch h
  · rename_i p hp
    split at h
    · exact nomatch h
    · rename_i newBackends hcheck
      cases h
      obtain ⟨hres, hne⟩ := Poller.pollCheck_ok _ _ _ hcheck
      exact ⟨p, hp, hres, hne, rfl, rfl⟩

/-! ### What an operation does to the store -/

/-- The in-place change of an operation: traffic and probes name the pool state,
    drain and undrain find it in the current snapshot. -/
def System.inPlace (s : System) : Op → Option (PoolRef × PoolEvent)
  | .drainBackend poolName address =>
    (s.store.current.poolStates.lookup poolName).map fun ref => (ref, .setDraining address true)
  | .undrainBackend poolName address =>
    (s.store.current.poolStates.lookup poolName).map fun ref => (ref, .setDraining address false)
  | .event ref e => some (ref, e)
  | _ => none

/-- Make an in-place change, if there is one. -/
def System.applyInPlace (s : System) : Option (PoolRef × PoolEvent) → Store
  | none => s.store
  | some (ref, e) => s.store.modifyPool ref fun ps => ps.apply s.now e

/-- Drain and undrain are in-place changes, also when the backend is not found. -/
private theorem setDraining_snd (s : System) (draining : Bool) (poolName address : String) :
    (Admin.setDraining draining poolName address s.store).2 =
      s.applyInPlace ((s.store.current.poolStates.lookup poolName).map fun ref =>
        (ref, .setDraining address draining)) := by
  unfold Admin.setDraining
  cases s.store.current.poolStates.lookup poolName with
  | none => rfl
  | some ref =>
    simp only [Option.map_some, System.applyInPlace, Store.modifyPool]
    split
    · rename_i hnone
      rw [List.modify_of_fixed]
      intro ps hps
      rw [hps, Option.bind_some] at hnone
      simp only [PoolState.apply, hnone, Option.getD_none]
    · rfl

/-- The operations that are neither reloads nor membership operations. -/
theorem System.step_store_inPlace (s : System) (op : Op) (hop : op.isMembership = false)
    (hre : ∀ env, op ≠ .reload env) : (s.step op).store = s.applyInPlace (s.inPlace op) := by
  cases op with
  | reload env => exact absurd rfl (hre env)
  | addBackend | removeBackend | poll => exact nomatch hop
  | drainBackend poolName address => exact setDraining_snd s true poolName address
  | undrainBackend poolName address => exact setDraining_snd s false poolName address
  | event ref e => rfl
  | advance d => rfl

/-- An invariant of the store through one operation: a membership update, a change of an
    installed pool and a reload have to keep it. -/
theorem System.step_store_inv {P : Store → Prop} (s : System) (op : Op) (h : P s.store)
    (hupdate : ∀ u, s.poolUpdate op = some u →
      P (s.store.updatePool u.poolName u.newBackends u.cfg))
    (hinPlace : ∀ ref e, P (s.store.modifyPool ref fun ps => ps.apply s.now e))
    (hreload : ∀ env, op = .reload env → P (s.step (.reload env)).store) :
    P (s.step op).store := by
  cases hm : op.isMembership with
  | true =>
    rw [s.step_store op hm]
    cases hu : s.poolUpdate op with
    | none => exact h
    | some u => exact hupdate u hu
  | false =>
    by_cases hre : ∃ env, op = .reload env
    · obtain ⟨env, rfl⟩ := hre
      exact hreload env rfl
    · rw [s.step_store_inPlace op hm fun env henv => hre ⟨env, henv⟩]
      cases s.inPlace op with
      | none => exact h
      | some change => exact hinPlace change.1 change.2

/-- The watcher is that of startup. -/
@[simp] theorem System.step_watcher (s : System) (op : Op) : (s.step op).watcher = s.watcher := by
  cases op with
  | poll k resolved =>
    simp only [System.step]
    cases s.pollers[k]? <;> rfl
  | _ => rfl

theorem System.exec_watcher (s : System) (ops : List Op) : (s.exec ops).watcher = s.watcher := by
  induction ops generalizing s with
  | nil => rfl
  | cons op rest ih => exact (ih (s.step op)).trans (s.step_watcher op)

/-- A reload that does not complete changes nothing the snapshot shows. -/
theorem System.step_reload_of_error (s : System) (env : ReloadEnv) (e : ReloadError)
    (he : s.watcher.reloadError env s.store.current.listeners = some e) :
    (s.step (.reload env)).store.view = s.store.view := by
  obtain ⟨certs, -, hrun⟩ := s.watcher.checkAndReload_of_error env s.store e he
  simp only [System.step, hrun]
  rfl

/-- A reload that completes shows a fresh build. -/
theorem System.step_reload_of_ok (s : System) (env : ReloadEnv)
    (he : s.watcher.reloadError env s.store.current.listeners = none) :
    ∃ cfg, s.watcher.host.load env.file = .ok cfg ∧
      (s.step (.reload env)).store.view = View.build env.build cfg := by
  obtain ⟨cfg, hload, -, hview, -⟩ := s.watcher.checkAndReload_of_ok env s.store he
  exact ⟨cfg, hload, hview⟩

/-- No operation leaves a dangling pointer in the current snapshot. -/
theorem System.step_wf (s : System) (op : Op) (h : s.store.WF) : (s.step op).store.WF := by
  apply s.step_store_inv op h
  · intro u _
    exact s.store.updatePool_wf u.poolName u.newBackends u.cfg h
  · intro ref e
    exact s.store.modifyPool_wf ref _ h
  · intro env _
    exact s.watcher.checkAndReload_wf env s.store h

theorem System.exec_wf (s : System) (ops : List Op) (h : s.store.WF) : (s.exec ops).store.WF := by
  induction ops generalizing s with
  | nil => exact h
  | cons op rest ih => exact ih (s.step op) (s.step_wf op h)

/-- Only a reload changes the listeners and the certificate stores of the snapshot. -/
theorem System.step_listeners (s : System) (op : Op) (hre : ∀ env, op ≠ .reload env) :
    (s.step op).store.current.listeners = s.store.current.listeners ∧
      (s.step op).store.current.certStores = s.store.current.certStores :=
  s.step_store_inv (P := fun σ => σ.current.listeners = s.store.current.listeners ∧
      σ.current.certStores = s.store.current.certStores) op ⟨rfl, rfl⟩ (fun _ _ => ⟨rfl, rfl⟩)
    (fun _ _ => ⟨rfl, rfl⟩) fun env henv => absurd henv (hre env)

/-- The pollers of a process: one per discovery-driven pool, seeded with the
    members of the startup snapshot. -/
theorem startPollers_spec (σ : Store) (cfgs : List PoolConfig) (pollers : List Poller)
    (h : startPollers σ cfgs = .ok pollers) (p : Poller) (hp : p ∈ pollers) :
    p.cfg ∈ cfgs ∧ p.cfg.discovery.isSome ∧ p = newPoller σ p.cfg := by
  induction cfgs generalizing pollers with
  | nil => cases h; exact nomatch hp
  | cons c rest ih =>
    simp only [startPollers] at h
    split at h
    · obtain ⟨hmem, hrest⟩ := ih pollers h hp
      exact ⟨List.mem_cons_of_mem _ hmem, hrest⟩
    · rename_i hdisc
      split at h
      · exact nomatch h
      · split at h
        · exact nomatch h
        · rename_i ps hps
          cases h
          rcases List.mem_cons.mp hp with rfl | hp
          · refine ⟨List.mem_cons_self, ?_, rfl⟩
            cases hd : c.discovery with
            | none => rw [hd] at hdisc; exact absurd rfl hdisc
            | some d => simp [newPoller, hd]
          · obtain ⟨hmem, hrest⟩ := ih ps hps hp
            exact ⟨List.mem_cons_of_mem _ hmem, hrest⟩

/-- What startup runs: the build of the loaded configuration, then the checkers,
    then the pollers. -/
theorem startup_built (host : Host) (file : Except String Bytes) (env : BuildEnv)
    (now : Circuitbreaker.Time) (s : System) (h : startup host file env now = .ok s) :
    ∃ snap heap, host.load file = .ok s.cfg ∧
      buildSnapshot host.tags env s.cfg { pools := [], certs := [] } = .ok (snap, heap) ∧
      s.store = { heap, current := snap, started := checkerRefs snap, stopped := [] } ∧
      s.watcher = { host, certStores := snap.certStores } ∧
      startPollers s.store s.cfg.pools = .ok s.pollers := by
  unfold startup at h
  cases hcfg : host.load file with
  | error e => rw [hcfg] at h; exact nomatch h
  | ok cfg =>
    rw [hcfg] at h
    dsimp only at h
    cases hb : buildSnapshot host.tags env cfg { pools := [], certs := [] } with
    | error e => rw [hb] at h; exact nomatch h
    | ok r =>
      obtain ⟨snap, heap⟩ := r
      rw [hb] at h
      dsimp only at h
      split at h
      · exact nomatch h
      · rename_i pollers hpollers
        cases h
        exact ⟨snap, heap, rfl, hb, rfl, rfl, hpollers⟩

/-- What startup establishes. -/
theorem startup_spec (host : Host) (file : Except String Bytes) (env : BuildEnv)
    (now : Circuitbreaker.Time) (s : System) (h : startup host file env now = .ok s) :
    host.load file = .ok s.cfg ∧ s.watcher.host = host ∧ s.store.WF ∧
      s.store.view = View.build env s.cfg ∧
      s.watcher.certStores = s.store.current.certStores ∧
      startPollers s.store s.cfg.pools = .ok s.pollers := by
  obtain ⟨snap, heap, hload, hbuilt, hstore, hwatcher, hpollers⟩ :=
    startup_built host file env now s h
  obtain ⟨hview, hwf, -⟩ := buildSnapshot_spec _ _ _ _ _ _ hbuilt
  rw [hstore] at hpollers ⊢
  rw [hwatcher]
  exact ⟨hload, rfl, hwf, hview, rfl, hpollers⟩

/-! ## A small deployment

Configurations for the concrete runs below: pools with one static backend each,
an admin API, and files that are numbered. -/

namespace Sample

def globalConfig : GlobalConfig :=
  { logLevel := "info", shutdownTimeout := 30000000000
    metrics := { enabled := some false, address := "", path := "" }
    accessLog := { enabled := some true, format := "json" }
    admin :=
      { enabled := some true, address := "127.0.0.1:9091", tokenEnv := "LB_ADMIN_TOKEN"
        maxConcurrentRequests := 10, mtls := none, roles := [] } }

/-- A round-robin pool with one static backend. -/
def pool (name address : String) : PoolConfig :=
  { name, algorithm := "round_robin", backends := [{ address, weight := 1 }], discovery := none
    healthCheck := none, sticky := none, circuitBreaker := none, retry := none }

def listener (name address protocol pool : String) : ListenerConfig :=
  { name, address, protocol, pool, routes := [], tls := none, rateLimit := none
    maxRequestBodyBytes := 0 }

/-- A host whose configuration file `[n]` is the `n`-th of the list. -/
def host (configs : List Config) : Host :=
  { parse := fun
      | [n] => match configs[n.toNat]? with
        | some cfg => .ok cfg
        | none => .error "no such configuration"
      | _ => .error "not a configuration"
    getenv := fun _ => "secret"
    tags := { consul := false, k8s := false, docker := false } }

/-- No key pairs, and discovery sources that answer as given. -/
def env (resolve : String → Except String (List Backend)) : BuildEnv :=
  { loadX509KeyPair := fun _ _ => .error "no such file", resolve }

def reloadEnv (n : UInt8) (resolve : String → Except String (List Backend)) : ReloadEnv :=
  { file := .ok [n], loadX509KeyPair := fun _ _ => .error "no such file", build := env resolve }

end Sample

/-- One pool behind one HTTP listener. -/
def plainConfig : Config :=
  { global := Sample.globalConfig, pools := [Sample.pool "web" "10.0.0.1:8080"]
    listeners := [Sample.listener "front" "0.0.0.0:80" "http" "web"] }

end HootLb
