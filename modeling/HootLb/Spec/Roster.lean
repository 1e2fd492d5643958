import HootLb.ForStd.Trace
import HootLb.Native.Concurrent
import HootLb.Spec.PoolEvents
import HootLb.Spec.StoreView

/-!
# The roster of a process

What the admin API, the pollers and the reloads are for: they keep, for every pool, a
list of backends. `Roster` is that list and nothing else of the snapshot; pointers, pool
states, checkers and traffic are not in it. The operations of the process act on it, and
give their answers, as plain list operations.

## Key results

- `System.step_roster`: an operation of the process is the one on the roster
- `roster_refines`: whole runs, with all their answers
- `member_has_source`: where the members of a pool come from
-/

namespace HootLb

open Config HootLb.Runtime HootLb.Reload HootLb.Admin

/-- The members of every pool in their order, and what each poller resolved last, with the
    name of its pool. A reload depends on the running listeners. -/
@[ext] structure Roster where
  members : String → Option (List Backend)
  memories : List (String × List Backend)
  listeners : List ListenerFingerprint

namespace Roster

/-- Write down a pool's members. -/
def set (r : Roster) (poolName : String) (bs : List Backend) : Roster :=
  { r with members := Function.update r.members poolName (some bs) }

/-- Some member has this address. -/
def lists (bs : List Backend) (address : String) : Bool := bs.any fun b => b.address = address

/-- The members of the pools of a configuration. -/
def ofConfig (env : BuildEnv) (cfg : Config) (poolName : String) : Option (List Backend) :=
  (cfg.pools.reverse.find? fun p => p.name = poolName).map (poolBackends env)

def addBackend (cfg : Config) (poolName : String) (body : Option AddBackendRequest) (r : Roster) :
    Response × Roster :=
  match addBackendCheck cfg poolName body with
  | .error e => (e, r)
  | .ok (_, req) =>
    match r.members poolName with
    | none => ({ status := 404, error := some "pool not found" }, r)
    | some bs =>
      if lists bs req.address then
        ({ status := 409, error := some "backend address already exists" }, r)
      else
        ( { status := 201, error := none }
        , r.set poolName (bs ++ [{ address := req.address, weight := req.weight }]))

def removeBackend (cfg : Config) (poolName address : String) (r : Roster) : Response × Roster :=
  match removeBackendCheck cfg poolName with
  | .error e => (e, r)
  | .ok _ =>
    match r.members poolName with
    | none => ({ status := 404, error := some "pool not found" }, r)
    | some bs =>
      if lists bs address then
        ({ status := 204, error := none }, r.set poolName (bs.filter fun b => b.address ≠ address))
      else ({ status := 404, error := some "backend not found" }, r)

/-- Drain and undrain change no membership. -/
def drainResponse (poolName address : String) (r : Roster) : Response :=
  match r.members poolName with
  | none => { status := 404, error := some "pool not found" }
  | some bs =>
    if lists bs address then { status := 204, error := none }
    else { status := 404, error := some "backend not found" }

/-- A poll puts what it resolved into the poller's pool, unless it is what the poller has
    seen before: also when the pool has something else by now. -/
def poll (k : Nat) (resolved : Except String (List Backend)) (r : Roster) :
    Option PollOutcome × Roster :=
  match r.memories[k]? with
  | none => (none, r)
  | some (poolName, last) =>
    match resolved with
    | .error why => (some (.resolveFailed why), r)
    | .ok bs =>
      if backendSetsEqual last bs then (some .unchanged, r)
      else
        (some .updated, { r.set poolName bs with memories := r.memories.set k (poolName, bs) })

/-- A reload replaces all members, or none. -/
def reload (w : Watcher) (env : ReloadEnv) (r : Roster) : Option ReloadError × Roster :=
  match w.reloadError env r.listeners, w.host.load env.file with
  | none, .ok cfg =>
    ( none
    , { r with members := ofConfig env.build cfg, listeners := cfg.listeners.map fingerprint })
  | e, _ => (e, r)

/-- One operation: its answer, if it has one, and the next roster. -/
def perform (cfg : Config) (w : Watcher) (r : Roster) : Op → Option Answer × Roster
  | .reload env => (reload w env r).map (some ∘ .reloaded) id
  | .addBackend poolName body => (addBackend cfg poolName body r).map (some ∘ .response) id
  | .removeBackend poolName address =>
    (removeBackend cfg poolName address r).map (some ∘ .response) id
  | .drainBackend poolName address | .undrainBackend poolName address =>
    (some (.response (drainResponse poolName address r)), r)
  | .poll k resolved => (poll k resolved r).map (Option.map .polled) id
  | .event .. | .advance _ => (none, r)

end Roster

/-! ## The roster of a store -/

def Runtime.Store.members (σ : Store) (poolName : String) : Option (List Backend) :=
  (σ.pool? poolName).map (·.members)

def System.roster (s : System) : Roster :=
  { members := s.store.members
    memories := s.pollers.map fun p => (p.poolName, p.lastBackends)
    listeners := s.store.current.listeners }

/-- What the operations of the process answer. -/
def System.answer (s : System) : Op → Option Answer
  | .reload env => some (.reloaded (s.watcher.checkAndReload env s.store).1)
  | .addBackend poolName body =>
    some (.response (Admin.addBackend s.cfg poolName body s.store).1)
  | .removeBackend poolName address =>
    some (.response (Admin.removeBackend s.cfg poolName address s.store).1)
  | .drainBackend poolName address =>
    some (.response (Admin.drainBackend poolName address s.store).1)
  | .undrainBackend poolName address =>
    some (.response (Admin.undrainBackend poolName address s.store).1)
  | .poll k resolved => s.pollers[k]?.map fun p => .polled (p.poll resolved s.store).1
  | .event .. | .advance _ => none

variable {s : System}

theorem Runtime.Store.updatePool_members (σ : Store) (u : PoolUpdate) (h : σ.WF) :
    (σ.updatePool u.poolName u.newBackends u.cfg).members =
      Function.update σ.members u.poolName (some u.newBackends) := by
  funext name
  by_cases hname : name = u.poolName
  · rw [hname, Function.update_self]
    simp [Store.members, σ.updatePool_pool?_self _ _ _ h]
  · rw [Function.update_of_ne hname]
    simp [Store.members, σ.updatePool_pool?_of_ne _ _ _ _ h hname]

/-- Traffic, probes and drains change no membership. -/
theorem Runtime.Store.modifyPool_members (σ : Store) (ref : PoolRef) (now : Circuitbreaker.Time)
    (e : PoolEvent) : (σ.modifyPool ref fun ps => ps.apply now e).members = σ.members := by
  funext name
  simp only [Store.members, Store.modifyPool_pool?]
  split
  · rw [Option.map_map]
    exact congrFun (congrArg Option.map (funext fun ps => ps.apply_members now e)) _
  · rfl

/-- The address checks of the handlers look at servers. -/
theorem Runtime.PoolState.any_address (ps : PoolState) (address : String) :
    (ps.servers.any fun srv => srv.address = address) = Roster.lists ps.members address := by
  simp only [Roster.lists, PoolState.members, List.any_map]
  rfl

theorem Runtime.View.build_members (env : BuildEnv) (cfg : Config) (poolName : String) :
    ((View.build env cfg).pools poolName).map (·.members) =
      Roster.ofConfig env cfg poolName := by
  simp only [View.build, builtPools, Roster.ofConfig, Option.map_map]
  exact congrFun (congrArg Option.map (funext fun p => buildPoolState_members p _)) _

/-! ## The operations -/

namespace System

theorem roster_updatePool (h : s.store.WF) (u : PoolUpdate) :
    { s with store := s.store.updatePool u.poolName u.newBackends u.cfg }.roster =
      s.roster.set u.poolName u.newBackends := by
  ext1
  · exact s.store.updatePool_members u h
  · rfl
  · rfl

theorem addBackend_roster (h : s.store.WF) (poolName : String) (body : Option AddBackendRequest) :
    ((Admin.addBackend s.cfg poolName body s.store).1,
        (s.step (.addBackend poolName body)).roster) =
      s.roster.addBackend s.cfg poolName body := by
  have hmembers : s.roster.members poolName = (s.store.pool? poolName).map (·.members) := rfl
  simp only [step, Admin.addBackend, Roster.addBackend, addBackendPlan, hmembers]
  cases addBackendCheck s.cfg poolName body with
  | error e => rfl
  | ok c =>
    cases s.store.pool? poolName with
    | none => rfl
    | some ps =>
      simp only [Option.map_some, ps.any_address]
      cases Roster.lists ps.members c.2.address with
      | true => rfl
      | false => exact congrArg (Prod.mk _) (roster_updatePool h ⟨poolName, _, c.1⟩)

theorem removeBackend_roster (h : s.store.WF) (poolName address : String) :
    ((Admin.removeBackend s.cfg poolName address s.store).1,
        (s.step (.removeBackend poolName address)).roster) =
      s.roster.removeBackend s.cfg poolName address := by
  have hmembers : s.roster.members poolName = (s.store.pool? poolName).map (·.members) := rfl
  simp only [step, Admin.removeBackend, Roster.removeBackend, removeBackendPlan, hmembers]
  cases removeBackendCheck s.cfg poolName with
  | error e => rfl
  | ok poolCfg =>
    cases s.store.pool? poolName with
    | none => rfl
    | some ps =>
      simp only [Option.map_some, ps.any_address]
      cases Roster.lists ps.members address with
      | true => exact congrArg (Prod.mk _) (roster_updatePool h ⟨poolName, _, poolCfg⟩)
      | false => rfl

theorem setDraining_response (h : s.store.WF) (draining : Bool) (poolName address : String) :
    (setDraining draining poolName address s.store).1 =
      s.roster.drainResponse poolName address := by
  have hmembers : s.roster.members poolName =
      ((s.store.current.poolStates.lookup poolName).bind fun ref => s.store.heap.pools[ref]?).map
        (·.members) := rfl
  simp only [setDraining, Roster.drainResponse, hmembers]
  cases href : s.store.current.poolStates.lookup poolName with
  | none => rfl
  | some ref =>
    -- the pointers of the snapshot are valid
    obtain ⟨ps, hps⟩ : ∃ ps, s.store.heap.pools[ref]? = some ps :=
      ⟨_, List.getElem?_eq_getElem (h.pools poolName ref href)⟩
    simp only [Option.bind_some, hps, Option.map_some, PoolState.setDraining,
      ← ps.any_address, ← List.findIdx?_isSome]
    cases ps.servers.findIdx? fun srv => srv.address = address <;> rfl

theorem poll_roster (h : s.store.WF) (k : Nat) (resolved : Except String (List Backend)) :
    (s.pollers[k]?.map fun p => (p.poll resolved s.store).1, (s.step (.poll k resolved)).roster) =
      s.roster.poll k resolved := by
  have hmemory : s.roster.memories[k]? =
      s.pollers[k]?.map fun p => (p.poolName, p.lastBackends) := List.getElem?_map
  simp only [step, Roster.poll, hmemory]
  cases hk : s.pollers[k]? with
  | none => rfl
  | some p =>
    -- a poll that changes nothing writes the poller back as it was
    have hsame : s.pollers.set k p = s.pollers := List.set_of_getElem? hk
    simp only [Option.map_some, Poller.poll, Poller.pollCheck]
    cases resolved with
    | error why => simp only [hsame]
    | ok bs =>
      dsimp only
      cases backendSetsEqual p.lastBackends bs with
      | true => simp only [if_true, hsame]
      | false =>
        refine congrArg (Prod.mk _) (Roster.ext ?_ List.map_set rfl)
        exact s.store.updatePool_members ⟨p.poolName, bs, p.cfg⟩ h

theorem reload_roster (s : System) (env : ReloadEnv) :
    ((s.watcher.checkAndReload env s.store).1, (s.step (.reload env)).roster) =
      s.roster.reload s.watcher env := by
  have hroster : (s.step (.reload env)).roster =
      { members := fun n => ((s.step (.reload env)).store.view.pools n).map (·.members)
        memories := s.roster.memories
        listeners := (s.step (.reload env)).store.view.listeners } := rfl
  have hlisteners : s.roster.listeners = s.store.current.listeners := rfl
  rw [s.watcher.checkAndReload_fst, hroster, Roster.reload, hlisteners]
  cases he : s.watcher.reloadError env s.store.current.listeners with
  | some e =>
    rw [s.step_reload_of_error env e he]
    rfl
  | none =>
    obtain ⟨cfg, hload, hview⟩ := s.step_reload_of_ok env he
    rw [hview, hload]
    exact congrArg (Prod.mk _) (Roster.ext (funext (View.build_members env.build cfg)) rfl rfl)

/-- What changes pool states in place leaves the roster alone. -/
theorem inPlace_roster (op : Op) (hop : op.isMembership = false)
    (hre : ∀ env, op ≠ .reload env) : (s.step op).roster = s.roster := by
  have hpollers : (s.step op).pollers = s.pollers := by
    cases op with
    | poll => exact nomatch hop
    | _ => rfl
  refine Roster.ext ?_ (congrArg (List.map _) hpollers) (s.step_listeners op hre).1
  show (s.step op).store.members = s.store.members
  rw [s.step_store_inPlace op hop hre]
  cases s.inPlace op with
  | none => rfl
  | some change => exact s.store.modifyPool_members change.1 s.now change.2

/-- An operation of the process is the operation on its roster. -/
theorem step_roster (h : s.store.WF) (op : Op) :
    (s.answer op, (s.step op).roster) = s.roster.perform s.cfg s.watcher op := by
  cases op with
  | reload env =>
    rw [Roster.perform, ← s.reload_roster env]
    rfl
  | addBackend poolName body =>
    rw [Roster.perform, ← addBackend_roster h]
    rfl
  | removeBackend poolName address =>
    rw [Roster.perform, ← removeBackend_roster h]
    rfl
  | poll k resolved =>
    rw [Roster.perform, ← poll_roster h, Prod.map, Option.map_map]
    rfl
  | drainBackend poolName address =>
    rw [Roster.perform, ← setDraining_response h true, inPlace_roster _ rfl (by simp)]
    rfl
  | undrainBackend poolName address =>
    rw [Roster.perform, ← setDraining_response h false, inPlace_roster _ rfl (by simp)]
    rfl
  | event ref e => exact congrArg (Prod.mk _) (inPlace_roster _ rfl (by simp))
  | advance d => rfl

end System

/-! ## Runs -/

/-- What every operation of a run answers. -/
def System.answers (s : System) (ops : List Op) : List (Option Answer) :=
  (Transition.trace System.step s ops).map fun t => t.before.answer t.action

namespace Roster

def exec (cfg : Config) (w : Watcher) (r : Roster) (ops : List Op) : Roster :=
  ops.foldl (fun r op => (perform cfg w r op).2) r

def answers (cfg : Config) (w : Watcher) (r : Roster) (ops : List Op) : List (Option Answer) :=
  (Transition.trace (fun r op => (perform cfg w r op).2) r ops).map fun t =>
    (perform cfg w t.before t.action).1

end Roster

@[simp] theorem System.step_cfg (s : System) (op : Op) : (s.step op).cfg = s.cfg := by
  cases op with
  | poll k resolved =>
    simp only [System.step]
    cases s.pollers[k]? <;> rfl
  | _ => rfl

theorem System.exec_roster (h : s.store.WF) (ops : List Op) :
    (s.exec ops).roster = s.roster.exec s.cfg s.watcher ops ∧
      s.answers ops = s.roster.answers s.cfg s.watcher ops := by
  apply Transition.trace_simulates System.step System.answer (Roster.perform s.cfg s.watcher)
    System.roster (I := fun t => t.store.WF ∧ t.cfg = s.cfg ∧ t.watcher = s.watcher)
  · rintro t op ⟨hwf, hcfg, hw⟩
    exact ⟨t.step_wf op hwf, by rw [t.step_cfg, hcfg], by rw [t.step_watcher, hw]⟩
  · rintro t op ⟨hwf, hcfg, hw⟩
    rw [← hcfg, ← hw]
    exact System.step_roster hwf op
  · exact ⟨h, rfl, rfl⟩

/-- The process begins with the backends of its configuration. -/
theorem startup_members {host : Host} {file : Except String Bytes} {env : BuildEnv}
    {now : Circuitbreaker.Time} (h : startup host file env now = .ok s) :
    s.roster.members = Roster.ofConfig env s.cfg := by
  obtain ⟨-, -, -, hview, -⟩ := startup_spec host file env now s h
  funext name
  rw [← View.build_members, ← hview]
  rfl

/-! ## Where members come from -/

/-- What can bring a backend into a pool: a reload of a file that has it in the pool or
    whose build resolves it, an add for a static pool, and a poll of the pool's poller.
    `polled` are the pools of the pollers. -/
def Op.Brings (cfg : Config) (w : Watcher) (polled : List String) (poolName : String)
    (b : Backend) : Op → Prop
  | .reload env => ∃ new, w.host.load env.file = .ok new ∧
      ∃ p ∈ new.pools, p.name = poolName ∧ b ∈ poolBackends env.build p
  | .addBackend name body => name = poolName ∧ body = some ⟨b.address, b.weight⟩ ∧
      ∃ p, findPoolConfig cfg poolName = some p ∧ p.discovery = none
  | .poll k resolved => polled[k]? = some poolName ∧ ∃ bs, resolved = .ok bs ∧ b ∈ bs
  | _ => False

/-- The pools of the pollers. -/
def System.polled (s : System) : List String := s.pollers.map (·.poolName)

theorem System.step_polled (s : System) (op : Op) : (s.step op).polled = s.polled := by
  cases op with
  | poll k resolved =>
    simp only [System.step]
    cases hk : s.pollers[k]? with
    | none => rfl
    | some p =>
      have hname : (p.poll resolved s.store).2.1.poolName = p.poolName := by
        unfold Poller.poll
        split <;> rfl
      rw [System.polled, List.map_set, hname]
      exact List.set_of_getElem? (by rw [List.getElem?_map, hk]; rfl)
  | _ => rfl

theorem System.exec_fixed (s : System) (ops : List Op) :
    (s.exec ops).cfg = s.cfg ∧ (s.exec ops).polled = s.polled := by
  induction ops generalizing s with
  | nil => exact ⟨rfl, rfl⟩
  | cons op rest ih =>
    rw [← s.step_cfg op, ← s.step_polled op]
    exact ih (s.step op)

section

variable {poolName : String} {bs : List Backend} {b : Backend}

theorem Roster.ofConfig_mem {cfg : Config} {env : BuildEnv}
    (hpool : ofConfig env cfg poolName = some bs) (hb : b ∈ bs) :
    ∃ p ∈ cfg.pools, p.name = poolName ∧ b ∈ poolBackends env p := by
  obtain ⟨p, hfind, rfl⟩ := Option.map_eq_some_iff.mp hpool
  exact ⟨p, List.mem_reverse.mp (List.mem_of_find?_eq_some hfind),
    by simpa using List.find?_some hfind, hb⟩

/-- What an update puts into its pool was there before, or the operation brings it. -/
theorem System.poolUpdate_mem {op : Op} {u : PoolUpdate} (hu : s.poolUpdate op = some u)
    (hb : b ∈ u.newBackends) :
    (∃ old, s.store.members u.poolName = some old ∧ b ∈ old) ∨
      op.Brings s.cfg s.watcher s.polled u.poolName b := by
  cases op with
  | addBackend name body =>
    obtain ⟨hname, hfind, hdisc, req, ps, rfl, hps, -, hnew⟩ := s.poolUpdate_addBackend _ _ _ hu
    rw [hnew, List.mem_append, List.mem_singleton] at hb
    obtain hmem | rfl := hb
    · exact .inl ⟨ps.members, by rw [Store.members, hname, hps]; rfl, hmem⟩
    · exact .inr ⟨hname.symm, rfl, u.cfg, by rw [hname, hfind], hdisc⟩
  | removeBackend name address =>
    obtain ⟨hname, -, -, ps, hps, hnew⟩ := s.poolUpdate_removeBackend _ _ _ hu
    rw [hnew] at hb
    exact .inl ⟨ps.members, by rw [Store.members, hname, hps]; rfl, List.mem_of_mem_filter hb⟩
  | poll k resolved =>
    obtain ⟨p, hp, hres, -, hname, -⟩ := s.poolUpdate_poll _ _ _ hu
    exact .inr ⟨by rw [System.polled, List.getElem?_map, hp, hname]; rfl, _, hres, hb⟩
  | _ => exact nomatch hu

/-- A member after an operation was there before, or the operation brings it. -/
theorem System.step_mem (h : s.store.WF) {op : Op}
    (hpool : (s.step op).store.members poolName = some bs) (hb : b ∈ bs) :
    (∃ old, s.store.members poolName = some old ∧ b ∈ old) ∨
      op.Brings s.cfg s.watcher s.polled poolName b := by
  refine s.step_store_inv (P := fun σ => σ.members poolName = some bs → _) op
    (fun hpool => .inl ⟨bs, hpool, hb⟩) (fun u hu hpool => ?_) (fun ref e hpool => ?_)
    (fun env henv hpool => ?_) hpool
  · rw [s.store.updatePool_members u h, Function.update_apply] at hpool
    split at hpool
    · rename_i hname
      cases hpool
      exact hname ▸ System.poolUpdate_mem hu hb
    · exact .inl ⟨bs, hpool, hb⟩
  · rw [s.store.modifyPool_members] at hpool
    exact .inl ⟨bs, hpool, hb⟩
  · subst henv
    have hroster := congrArg (·.2.members poolName) (s.reload_roster env)
    rw [show (s.step (.reload env)).store.members poolName = _ from hroster,
      Roster.reload] at hpool
    split at hpool
    · rename_i hload
      exact .inr ⟨_, hload, Roster.ofConfig_mem hpool hb⟩
    · exact .inl ⟨bs, hpool, hb⟩

theorem System.exec_mem (h : s.store.WF) (ops : List Op)
    (hpool : (s.exec ops).store.members poolName = some bs) (hb : b ∈ bs) :
    (∃ old, s.store.members poolName = some old ∧ b ∈ old) ∨
      ∃ op ∈ ops, op.Brings s.cfg s.watcher s.polled poolName b := by
  induction ops generalizing s with
  | nil => exact .inl ⟨bs, hpool, hb⟩
  | cons op rest ih =>
    obtain ⟨mid, hmid, hb'⟩ | ⟨o, ho, hbrings⟩ := ih (s.step_wf op h) hpool
    · exact (System.step_mem h hmid hb').imp_right fun hop => ⟨op, List.mem_cons_self, hop⟩
    · rw [s.step_cfg, s.step_watcher, s.step_polled] at hbrings
      exact .inr ⟨o, List.mem_cons_of_mem _ ho, hbrings⟩

/-- A removal that succeeds leaves no member with the address. -/
theorem Roster.removeBackend_gone {cfg : Config} {r : Roster} {address : String}
    {res : Response × Roster} (hres : res = removeBackend cfg poolName address r)
    (h : res.1.status = 204) (hpool : res.2.members poolName = some bs) :
    ∀ b ∈ bs, b.address ≠ address := by
  have hset (new : List Backend) : (r.set poolName new).members poolName = some new :=
    Function.update_self ..
  -- every other answer is 404 or 409
  grind [removeBackend, removeBackendCheck, checkPoolConfig]

end

end HootLb
