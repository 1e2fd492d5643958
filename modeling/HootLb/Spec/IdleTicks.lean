import HootLb.Spec.ListenerDiff
import HootLb.Spec.StoreView

/-!
# Ticks on an unchanged file

`Watcher.Run` calls `checkAndReload` on every tick, and `checkAndReload` has no
notion of the file being unchanged: it builds and swaps a snapshot each time. So a
tick on the bytes of the last successful load is harmless only when there is
nothing to lose: when the running pools are just as a build makes them.

The process is run together with the bytes of its last successful load, which the
code does not keep.

## Key results

- `PoolState.untouched_iff`: a pool nothing has happened to is the built one
- `Watched.tickKept_iff`: one tick
- `idle_ticks_keep_snapshot_iff`: every tick of every run
-/

namespace HootLb.Runtime

open Config Balancer

/-! ## Pools nothing has happened to -/

/-- A pool with the settings of `p` and the backends `bs`, in which no flag has
    been set, no pick made, no connection counted and no probe or outcome noted. -/
structure PoolState.Untouched (p : PoolConfig) (bs : List Backend) (ps : PoolState) : Prop where
  members : ps.members = bs
  flags : ∀ srv ∈ ps.servers, srv.healthy = true ∧ srv.draining = false ∧ srv.circuitOpen = false
  balancer : ps.lb =
    newBalancer p.algorithm (derefIn ps.servers) (List.range ps.servers.length)
  checker : ps.fr = newChecker p ps.servers
  breakers : ps.breakers = p.circuitBreaker.map fun cb => newBreakers cb ps.servers
  sticky : ps.sticky = p.sticky
  retry : ps.retry = p.retry

/-- Servers whose flags are as new are new. -/
private theorem servers_eq_newServers (ps : PoolState)
    (h : ∀ srv ∈ ps.servers, srv.healthy = true ∧ srv.draining = false ∧
      srv.circuitOpen = false) : ps.servers = newServers ps.members := by
  unfold newServers PoolState.members
  rw [List.map_map]
  -- server by server
  refine (List.map_id ps.servers).symm.trans (List.map_congr_left fun srv hsrv => ?_)
  obtain ⟨hh, hd, hc⟩ := h srv hsrv
  cases srv
  simp only at hh hd hc
  simp [newServer, hh, hd, hc]

theorem PoolState.untouched_iff (p : PoolConfig) (bs : List Backend) (ps : PoolState) :
    ps.Untouched p bs ↔ ps = buildPoolState p bs := by
  constructor
  · intro h
    have hservers : ps.servers = newServers bs := by
      rw [servers_eq_newServers ps h.flags, h.members]
    obtain ⟨-, -, hlb, hfr, hbr, hst, hre⟩ := h
    rw [hservers] at hlb hfr hbr
    cases ps
    simp only at hservers hlb hfr hbr hst hre
    rw [hservers, hlb, hfr, hbr, hst, hre]
    rfl
  · rintro rfl
    refine ⟨buildPoolState_members p bs, ?_, rfl, rfl, rfl, rfl, rfl⟩
    intro srv hsrv
    obtain ⟨b, -, rfl⟩ := List.mem_map.mp hsrv
    exact ⟨rfl, rfl, rfl⟩

/-- A snapshot with exactly the pools of `cfg`, none of them touched, and with the
    checkers of these pools registered and no others. -/
structure View.Idle (env : BuildEnv) (cfg : Config) (v : View) : Prop where
  pools : ∀ p ∈ cfg.pools, ∃ ps, v.pools p.name = some ps ∧ ps.Untouched p (poolBackends env p)
  checkers : ∀ p ∈ cfg.pools, v.checkers p.name = (v.pools p.name).filter fun ps => ps.fr.isSome
  others : ∀ name, name ∉ cfg.pools.map (·.name) → v.pools name = none ∧ v.checkers name = none

theorem View.idle_iff (env : BuildEnv) (cfg : Config) (v : View)
    (hnd : (cfg.pools.map (·.name)).Nodup) :
    v.Idle env cfg ↔
      v.pools = builtPools env cfg.pools ∧ v.checkers = builtCheckers env cfg.pools := by
  have hnone : ∀ name, name ∉ cfg.pools.map (·.name) → builtPools env cfg.pools name = none := by
    intro name h
    rw [← Option.not_isSome_iff_eq_none, builtPools_isSome]
    exact h
  constructor
  · intro h
    -- the configured pools, then the other names
    have hpools : ∀ p ∈ cfg.pools, v.pools p.name = some (built env p) := by
      intro p hp
      obtain ⟨ps, hps, hun⟩ := h.pools p hp
      rw [hps, (PoolState.untouched_iff p _ ps).mp hun]
      rfl
    constructor
    · funext name
      by_cases hname : name ∈ cfg.pools.map (·.name)
      · obtain ⟨p, hp, rfl⟩ := List.mem_map.mp hname
        rw [hpools p hp, builtPools_of_mem env cfg.pools hnd p hp]
      · rw [(h.others name hname).1, hnone name hname]
    · funext name
      by_cases hname : name ∈ cfg.pools.map (·.name)
      · obtain ⟨p, hp, rfl⟩ := List.mem_map.mp hname
        rw [h.checkers p hp, hpools p hp, builtCheckers_of_mem env cfg.pools hnd p hp]
        rfl
      · rw [(h.others name hname).2, builtCheckers_of_not_mem env cfg.pools name hname]
  · rintro ⟨hpools, hcheckers⟩
    refine ⟨fun p hp => ?_, fun p hp => ?_, fun name hname => ?_⟩
    · rw [hpools, builtPools_of_mem env cfg.pools hnd p hp]
      exact ⟨_, rfl, (PoolState.untouched_iff p _ _).mpr rfl⟩
    · rw [hpools, hcheckers, builtPools_of_mem env cfg.pools hnd p hp,
        builtCheckers_of_mem env cfg.pools hnd p hp]
      rfl
    · rw [hpools, hcheckers]
      exact ⟨hnone name hname, builtCheckers_of_not_mem env cfg.pools name hname⟩

end HootLb.Runtime

namespace HootLb

open Config HootLb.Runtime HootLb.Reload HootLb.Admin

/-! ## The process and its last load -/

/-- The process together with the bytes of its last successful load. -/
structure Watched where
  sys : System
  bytes : Bytes

/-- A load is successful when the reload completes. -/
def Watched.step (t : Watched) (op : Op) : Watched :=
  { sys := t.sys.step op
    bytes := match op with
      | .reload env =>
        match (t.sys.watcher.checkAndReload env t.sys.store).1, env.file with
        | none, .ok data => data
        | _, _ => t.bytes
      | _ => t.bytes }

/-- A tick that reads the bytes of the last load leaves the snapshot as it was. -/
def Watched.TickKept (t : Watched) : Op → Prop
  | .reload env => env.file = .ok t.bytes →
      (t.sys.step (.reload env)).store.view = t.sys.store.view
  | _ => True

/-- A tick that reads the bytes of the last load, at a moment when all key pairs
    load, finds an idle snapshot. -/
def Watched.TickIdle (t : Watched) : Op → Prop
  | .reload env => env.file = .ok t.bytes → ∀ cfg, t.sys.watcher.host.load env.file = .ok cfg →
      reloadCertsError env.loadX509KeyPair t.sys.watcher.certStores cfg.listeners = none →
      certsError env.build.loadX509KeyPair cfg.listeners = none →
      t.sys.store.view.Idle env.build cfg
  | _ => True

/-- The bytes of the last load are those the running listeners were taken from. -/
structure Watched.Inv (t : Watched) : Prop where
  wf : t.sys.store.WF
  loaded : ∃ cfg, t.sys.watcher.host.load (.ok t.bytes) = .ok cfg ∧
    t.sys.store.view.listeners = cfg.listeners.map fingerprint ∧
    t.sys.store.view.certStores = fun name =>
      cfg.listeners.any fun l => l.name = name ∧ (terminateCerts l).isSome

/-- A configuration that loads was read from some bytes. -/
private theorem load_bytes (host : Host) (file : Except String Bytes) (cfg : Config)
    (h : host.load file = .ok cfg) : ∃ data, file = .ok data := by
  cases file with
  | error why => exact nomatch h
  | ok data => exact ⟨data, rfl⟩

/-- An operation keeps the invariant. -/
theorem Watched.Inv.step (t : Watched) (op : Op) (h : t.Inv) : (t.step op).Inv := by
  refine ⟨t.sys.step_wf op h.wf, ?_⟩
  obtain ⟨cfg, hload, hl, hc⟩ := h.loaded
  have hw : (t.step op).sys.watcher = t.sys.watcher := t.sys.step_watcher op
  rw [hw]
  by_cases hre : ∃ env, op = .reload env
  · obtain ⟨env, rfl⟩ := hre
    cases he : t.sys.watcher.reloadError env t.sys.store.current.listeners with
    | some e =>
      -- the snapshot shows what it showed, and the last load is still the last
      have hbytes : (t.step (.reload env)).bytes = t.bytes := by
        simp only [Watched.step, Watcher.checkAndReload_fst, he]
      rw [hbytes, show (t.step (.reload env)).sys.store.view = t.sys.store.view from
        t.sys.step_reload_of_error env e he]
      exact ⟨cfg, hload, hl, hc⟩
    | none =>
      obtain ⟨cfg', hload', hview⟩ := t.sys.step_reload_of_ok env he
      obtain ⟨data, hdata⟩ := load_bytes _ _ _ hload'
      have hbytes : (t.step (.reload env)).bytes = data := by
        simp only [Watched.step, Watcher.checkAndReload_fst, he, hdata]
      rw [hbytes, show (t.step (.reload env)).sys.store.view = View.build env.build cfg' from hview]
      exact ⟨cfg', hdata ▸ hload', rfl, rfl⟩
  · have hne : ∀ env, op ≠ .reload env := fun env henv => hre ⟨env, henv⟩
    obtain ⟨hsl, hsc⟩ := t.sys.step_listeners op hne
    have hbytes : (t.step op).bytes = t.bytes := by
      cases op with
      | reload env => exact absurd rfl (hne env)
      | _ => rfl
    rw [hbytes]
    refine ⟨cfg, hload, hsl.trans hl, ?_⟩
    rw [← hc]
    simp only [Store.view, Snapshot.view, Watched.step, hsc]

/-- Whether a tick on the bytes of the last load completes is a matter of the key
    pairs alone. -/
private theorem tick_reloadError (t : Watched) (h : t.Inv) (env : ReloadEnv)
    (hfile : env.file = .ok t.bytes) (cfg : Config)
    (hload : t.sys.watcher.host.load env.file = .ok cfg) :
    t.sys.watcher.reloadError env t.sys.store.current.listeners = none ↔
      reloadCertsError env.loadX509KeyPair t.sys.watcher.certStores cfg.listeners = none ∧
        certsError env.build.loadX509KeyPair cfg.listeners = none := by
  have hacc := t.sys.watcher.host.load_accepted env.file cfg hload
  obtain ⟨cfg', hload', hl, -⟩ := h.loaded
  have hsame : cfg' = cfg := by
    rw [← hfile, hload] at hload'
    cases hload'
    rfl
  subst hsame
  -- the listeners are the running ones
  have hdiff : diffListeners t.sys.store.current.listeners (cfg'.listeners.map fingerprint) =
      none := by
    have hcur : t.sys.store.current.listeners = cfg'.listeners.map fingerprint := hl
    rw [hcur, diffListeners_eq_none_iff_perm]
    · rw [List.map_map]; exact hacc.listener_names_nodup
    · rw [List.map_map]; exact hacc.listener_names_nodup
  simp only [Watcher.reloadError, hload, Watcher.rebuildError, hdiff, buildError,
    hacc.poolsError_eq_none]
  cases reloadCertsError env.loadX509KeyPair t.sys.watcher.certStores cfg'.listeners with
  | some e => simp
  | none => simp

/-- One tick. -/
theorem Watched.tickKept_iff (t : Watched) (h : t.Inv) (op : Op) :
    t.TickKept op ↔ t.TickIdle op := by
  cases op with
  | reload env =>
    refine imp_congr_right fun hfile => ?_
    obtain ⟨cfg, hload, hl, hc⟩ := h.loaded
    rw [← hfile] at hload
    have hacc := t.sys.watcher.host.load_accepted env.file cfg hload
    have hiff := tick_reloadError t h env hfile cfg hload
    cases he : t.sys.watcher.reloadError env t.sys.store.current.listeners with
    | some e =>
      refine iff_of_true (t.sys.step_reload_of_error env e he) fun cfg' hload' h₁ h₂ => ?_
      rw [hload] at hload'
      cases hload'
      rw [hiff.mpr ⟨h₁, h₂⟩] at he
      exact nomatch he
    | none =>
      obtain ⟨cfg', hload', hview⟩ := t.sys.step_reload_of_ok env he
      rw [hload] at hload'
      cases hload'
      obtain ⟨h₁, h₂⟩ := hiff.mp he
      -- listeners and stores agree already, so only pools and checkers count
      have hsame : (t.sys.step (.reload env)).store.view = t.sys.store.view ↔
          t.sys.store.view.Idle env.build cfg := by
        rw [View.idle_iff env.build cfg _ hacc.pool_names_nodup, hview, eq_comm, View.ext_iff]
        simp only [hl, hc, View.build, and_true]
      rw [hsame]
      constructor
      · intro hidle cfg'' hload'' _ _
        rw [hload] at hload''
        cases hload''
        exact hidle
      · intro hidle
        exact hidle cfg hload h₁ h₂
  | addBackend | removeBackend | drainBackend | undrainBackend | poll | event | advance =>
    exact Iff.rfl

end HootLb
