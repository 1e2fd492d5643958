import HootLb.Spec.ListenerDiff
import HootLb.Spec.RouteTable
import HootLb.Spec.StoreView

/-!
# Routing after reloads

The proxies keep the listener entries they were started with, while a reload
replaces the pools those entries are resolved against. The listener diff compares
names, addresses, protocols and TLS modes only, so a reload may change what a
listener entry prescribes, or drop a pool the running entry refers to.

## Key results

- `Reloaded.inv`: the snapshot after any number of accepted reloads has the pools
  of the last configuration, and its listeners are a rearrangement of those of
  startup
- `routing_follows_reload_iff`: when the running proxies route as the last
  configuration says
- `no_dangling_pool_iff`: when they find every pool they look up
-/

namespace HootLb

open Config HootLb.Runtime HootLb.Reload HootLb.L7

/-- The states reached from `s₀` by accepted reloads, each with the configuration
    loaded last. -/
inductive Reloaded (s₀ : System) : System → Config → Prop
  | start : Reloaded s₀ s₀ s₀.cfg
  | reload (s : System) (C : Config) (env : ReloadEnv) (C' : Config) (h : Reloaded s₀ s C)
      (hload : s.watcher.host.load env.file = .ok C')
      (hacc : (s.watcher.checkAndReload env s.store).1 = none) :
      Reloaded s₀ (s.step (.reload env)) C'

/-- What holds after accepted reloads that end in `C`. -/
structure ReloadInv (s₀ s : System) (C : Config) : Prop where
  wf : s.store.WF
  host : s.watcher.host = s₀.watcher.host
  accepted : Accepted s₀.watcher.host.getenv s₀.watcher.host.tags C
  listeners : s.store.current.listeners = C.listeners.map fingerprint
  rearranged : (C.listeners.map fingerprint).Perm (s₀.cfg.listeners.map fingerprint)
  keys : ∀ name, isKey s.store.current name ↔ name ∈ C.pools.map (·.name)

/-- The names of a snapshot that shows a build. -/
private theorem isKey_of_build (σ : Store) (env : BuildEnv) (C : Config) (hwf : σ.WF)
    (hview : σ.view = View.build env C) (name : String) :
    isKey σ.current name ↔ name ∈ C.pools.map (·.name) := by
  have hpools : RefMap.deref σ.current.poolStates σ.heap.pools name =
      builtPools env C.pools name := congrFun (congrArg View.pools hview) name
  rw [← builtPools_isSome env, ← hpools, hwf.pools.deref_isSome]
  rfl

theorem Reloaded.inv (host : Host) (file : Except String Bytes) (env₀ : BuildEnv)
    (now : Circuitbreaker.Time) (s₀ s : System) (C : Config)
    (hstart : startup host file env₀ now = .ok s₀) (h : Reloaded s₀ s C) :
    ReloadInv s₀ s C := by
  obtain ⟨hload₀, hhost, hwf, hview, -, -⟩ := startup_spec host file env₀ now s₀ hstart
  induction h with
  | start =>
    refine ⟨hwf, rfl, ?_, ?_, List.Perm.refl _, isKey_of_build s₀.store env₀ s₀.cfg hwf hview⟩
    · rw [hhost]; exact host.load_accepted file s₀.cfg hload₀
    · exact congrArg View.listeners hview
  | reload s C env C' h hload hacc ih =>
    have hwf' := s.step_wf (.reload env) ih.wf
    have hacc' := s.watcher.host.load_accepted env.file C' hload
    rw [ih.host] at hacc'
    rw [Watcher.checkAndReload_fst] at hacc
    obtain ⟨cfg, hcfg, hview'⟩ := s.step_reload_of_ok env hacc
    rw [hload] at hcfg
    cases hcfg
    -- an accepted reload passed the diff against the running listeners
    have hdiff : diffListeners s.store.current.listeners (C'.listeners.map fingerprint) = none := by
      simp only [Watcher.reloadError, hload, Watcher.rebuildError] at hacc
      split at hacc
      · exact nomatch hacc
      · assumption
    rw [ih.listeners, diffListeners_eq_none_iff_perm] at hdiff
    · refine ⟨hwf', ?_, hacc', congrArg View.listeners hview', hdiff.trans ih.rearranged,
        isKey_of_build _ env.build C' hwf' hview'⟩
      rw [s.step_watcher]
      exact ih.host
    · rw [List.map_map]; exact ih.accepted.listener_names_nodup
    · rw [List.map_map]; exact hacc'.listener_names_nodup

namespace ReloadInv

variable {s₀ s : System} {C : Config}

/-- The entry of a running listener in the last configuration. -/
theorem entry (h : ReloadInv s₀ s C) (l₀ : ListenerConfig) (hl₀ : l₀ ∈ s₀.cfg.listeners) :
    ∃ l ∈ C.listeners, fingerprint l = fingerprint l₀ := by
  have hmem := h.rearranged.mem_iff.mpr (List.mem_map_of_mem hl₀)
  obtain ⟨l, hl, heq⟩ := List.mem_map.mp hmem
  exact ⟨l, hl, heq⟩

/-- There is only one, and it has the same protocol and TLS mode. -/
theorem entry_unique (h : ReloadInv s₀ s C) (l₀ l : ListenerConfig)
    (hl₀ : l₀ ∈ s₀.cfg.listeners) (hl : l ∈ C.listeners) (hname : l.name = l₀.name) :
    fingerprint l = fingerprint l₀ := by
  obtain ⟨l', hl', heq⟩ := h.entry l₀ hl₀
  have hname' : l'.name = l₀.name := congrArg ListenerFingerprint.name heq
  rw [List.inj_on_of_nodup_map h.accepted.listener_names_nodup hl hl' (hname.trans hname'.symm)]
  exact heq

end ReloadInv

/-- The proxy of a listener is determined by its fingerprint. -/
theorem proxyKind_eq_of_fingerprint (l l' : ListenerConfig) (h : fingerprint l = fingerprint l') :
    proxyKind l = proxyKind l' := by
  have hproto : l.protocol = l'.protocol := congrArg ListenerFingerprint.protocol h
  have hmode : (fingerprint l).tlsMode = (fingerprint l').tlsMode := congrArg _ h
  have hpass : ∀ l : ListenerConfig, (l.tls.any fun t => t.mode = "passthrough") ↔
      (fingerprint l).tlsMode = "passthrough" := by
    intro l
    simp only [fingerprint]
    cases l.tls with
    | none => simp
    | some t => simp
  unfold proxyKind
  simp only [hpass l, hpass l', hproto, hmode]

/-! ## Routing -/

/-- The pool states that a target written with names stands for. -/
def resolveTarget (s : Snapshot) : Target String → Option (Target PoolRef)
  | .pool name => (s.poolStates.lookup name).map .pool
  | .split entries =>
    (entries.mapM fun e => (s.poolStates.lookup e.pool).map fun ps =>
      ({ pool := ps, weight := e.weight } : SplitEntry PoolRef)).map .split

theorem resolveTarget_eq (s : Snapshot) (t : Target String)
    (h : ∀ name ∈ t.pools, isKey s name) : resolveTarget s t = some (t.map (keyRef s)) := by
  cases t with
  | pool name =>
    simp only [resolveTarget, lookup_of_isKey s name (h name List.mem_cons_self), Option.map_some,
      Target.map]
  | split entries =>
    have hentries : (entries.mapM fun e => (s.poolStates.lookup e.pool).map fun ps =>
        ({ pool := ps, weight := e.weight } : SplitEntry PoolRef)) =
        some (entries.map fun e => { pool := keyRef s e.pool, weight := e.weight }) := by
      refine List.mapM_option_eq_some_map _ _ entries fun e he => ?_
      rw [lookup_of_isKey s e.pool (h e.pool (List.mem_map_of_mem he))]
      rfl
    simp only [resolveTarget, hentries, Option.map_some, Target.map]

/-- The proxy started for `l₀` picks from the pool or split that `l` prescribes. -/
def RoutesAs (s : Snapshot) (l₀ l : ListenerConfig) (q : Traffic) : Prop :=
  ∃ t, running l₀ s q = some t ∧ resolveTarget s (prescribed l q) = some t

/-- Two listener entries lead this traffic to the same place, given the pools of
    `C`. For HTTP all pools of the first entry have to be there, since the route
    table is built as a whole. -/
def LeadAlike (C : Config) (l₀ l : ListenerConfig) : Traffic → Prop
  | .request req =>
    (∀ name ∈ (namedTable l₀).pools, name ∈ C.pools.map (·.name)) ∧
      prescribed l₀ (.request req) = prescribed l (.request req)
  | .connection => l₀.pool = l.pool
  | .clientHello sni =>
    sniPool (fun name => name ∈ C.pools.map (·.name)) l₀ sni = sniPool (fun _ => true) l sni

/-- The pools of the named table are among those `Validate` checks. -/
theorem namedTable_pools_subset (l : ListenerConfig) (name : String)
    (h : name ∈ (namedTable l).pools) : name ∈ poolRefs l := by
  rcases List.mem_append.mp h with hfall | hroute
  · rw [List.mem_singleton.mp hfall]
    exact List.mem_cons_self
  · obtain ⟨r', hr', hmem⟩ := List.mem_flatMap.mp hroute
    obtain ⟨r, hr, rfl⟩ := List.mem_map.mp hr'
    refine List.mem_cons_of_mem _ (List.mem_append_left _ (List.mem_flatMap.mpr ⟨r, hr, ?_⟩))
    simp only [namedRoute] at hmem
    split at hmem
    · rename_i hs
      rw [if_pos hs]
      simpa [Target.pools] using hmem
    · rename_i hs
      rw [if_neg hs]
      exact hmem

/-- The pool for a server name is the listener's own or that of an SNI route. -/
private theorem sniPool_mem (present : String → Bool) (l : ListenerConfig) (sni : String) :
    sniPool present l sni = l.pool ∨
      ∃ t, l.tls = some t ∧ sniPool present l sni ∈ t.routes.map (·.pool) := by
  unfold sniPool
  cases l.tls with
  | none => exact Or.inl rfl
  | some t =>
    simp only [Option.map_some, Option.getD_some]
    cases hf : t.routes.find? fun r => r.host = sni && present r.pool with
    | none => exact Or.inl rfl
    | some r => exact Or.inr ⟨t, rfl, List.mem_map_of_mem (List.mem_of_find?_eq_some hf)⟩

/-- What an accepted listener entry prescribes are pools of its configuration. -/
private theorem prescribed_defined (getenv : String → String) (tags : BuildTags) (C : Config)
    (h : Accepted getenv tags C) (l : ListenerConfig) (hl : l ∈ C.listeners) (kind : ProxyKind)
    (hkind : proxyKind l = some kind) (q : Traffic) (hq : kind.sees q) (name : String)
    (hname : name ∈ (prescribed l q).pools) : name ∈ C.pools.map (·.name) := by
  refine h.poolRefs_defined l hl name ?_
  cases q with
  | request req =>
    exact namedTable_pools_subset l name (RouteTable.matchRoute_pools _ req name hname)
  | connection =>
    rw [List.mem_singleton.mp hname]
    exact List.mem_cons_self
  | clientHello sni =>
    rw [List.mem_singleton.mp hname]
    rcases sniPool_mem (fun _ => true) l sni with heq | ⟨t, ht, hmem⟩
    · rw [heq]
      exact List.mem_cons_self
    · -- only passthrough listeners see a client hello
      have hmode : t.mode = "passthrough" := by
        cases kind with
        | tlsPassthrough =>
          unfold proxyKind at hkind
          split at hkind
          · split at hkind
            · rename_i hany
              simpa [ht] using hany
            · exact nomatch hkind
          · split at hkind
            · exact nomatch hkind
            · split at hkind <;> exact nomatch hkind
        | tcp | udp | http => exact nomatch hq
      refine List.mem_cons_of_mem _ (List.mem_append_right _ ?_)
      simp only [ht, Option.toList_some, List.flatMap_cons, List.flatMap_nil, List.append_nil,
        hmode, if_true]
      exact hmem

/-- Two targets written with names of the snapshot resolve alike only when they
    are the same. -/
private theorem resolves_alike_iff (s : Snapshot) (heap : Heap) (hwf : s.WF heap)
    (t t' : Target String) (ht : ∀ name ∈ t.pools, isKey s name)
    (ht' : ∀ name ∈ t'.pools, isKey s name) :
    (∃ r, some (t.map (keyRef s)) = some r ∧ resolveTarget s t' = some r) ↔ t = t' := by
  rw [resolveTarget_eq s t' ht']
  constructor
  · rintro ⟨r, hr, hr'⟩
    refine Target.map_inj (keyRef s) t t' (fun a ha b hb hab => ?_)
      (Option.some.inj (hr.trans hr'.symm))
    -- different names of a snapshot have different pool states
    refine hwf.distinct a b (keyRef s a) (lookup_of_isKey s a (ht a ha)) ?_
    rw [hab]
    exact lookup_of_isKey s b (ht' b hb)
  · rintro rfl
    exact ⟨_, rfl, rfl⟩

/-- A getter that looks up a single name. -/
private theorem lookup_routesAs_iff (s : Snapshot) (heap : Heap) (hwf : s.WF heap)
    (name : String) (t' : Target String) (ht' : ∀ name ∈ t'.pools, isKey s name) :
    (∃ r, (s.poolStates.lookup name).map Target.pool = some r ∧ resolveTarget s t' = some r) ↔
      Target.pool name = t' := by
  cases hkey : isKey s name with
  | true =>
    rw [lookup_of_isKey s name hkey]
    exact resolves_alike_iff s heap hwf (.pool name) t'
      (fun n hn => by rw [List.mem_singleton.mp hn]; exact hkey) ht'
  | false =>
    -- the getter panics, and `t'` leads elsewhere
    have hnone : s.poolStates.lookup name = none := by
      simpa [isKey] using hkey
    rw [hnone]
    constructor
    · rintro ⟨r, hr, -⟩
      cases hr
    · rintro rfl
      rw [ht' name List.mem_cons_self] at hkey
      cases hkey

/-- A route table is built as a whole: without one of its pools nothing is routed. -/
private theorem request_routesAs_iff (s : Snapshot) (heap : Heap) (hwf : s.WF heap)
    (l₀ l : ListenerConfig) (req : Request)
    (hpres : ∀ name ∈ (prescribed l (.request req)).pools, isKey s name) :
    RoutesAs s l₀ l (.request req) ↔ (∀ name ∈ (namedTable l₀).pools, isKey s name) ∧
      prescribed l₀ (.request req) = prescribed l (.request req) := by
  simp only [RoutesAs, running]
  by_cases hall : ∀ name ∈ (namedTable l₀).pools, isKey s name
  · rw [buildRouteTable_eq l₀ s hall, and_iff_right hall]
    simp only [Option.map_some, RouteTable.matchRoute_map]
    refine resolves_alike_iff s heap hwf (prescribed l₀ (.request req)) _
      (fun name hmem => hall name ?_) hpres
    exact RouteTable.matchRoute_pools _ req name hmem
  · have hnone : buildRouteTable l₀ s = none := by
      rw [← Option.not_isSome_iff_eq_none, buildRouteTable_isSome]
      exact hall
    rw [hnone]
    constructor
    · rintro ⟨r, hr, -⟩
      cases hr
    · intro hlead
      exact absurd hlead.1 hall

private theorem routesAs_iff (s : Snapshot) (heap : Heap) (hwf : s.WF heap) (C : Config)
    (hkeys : ∀ name, isKey s name ↔ name ∈ C.pools.map (·.name)) (l₀ l : ListenerConfig)
    (q : Traffic) (hpres : ∀ name ∈ (prescribed l q).pools, isKey s name) :
    RoutesAs s l₀ l q ↔ LeadAlike C l₀ l q := by
  cases q with
  | request req =>
    rw [request_routesAs_iff s heap hwf l₀ l req hpres]
    simp only [LeadAlike, hkeys]
  | connection =>
    simp only [LeadAlike, RoutesAs, running, poolGetter]
    rw [lookup_routesAs_iff s heap hwf l₀.pool _ hpres]
    exact ⟨fun heq => Target.pool.inj heq, fun heq => congrArg Target.pool heq⟩
  | clientHello sni =>
    have hpresent : (fun name => decide (name ∈ C.pools.map (·.name))) = isKey s := by
      funext name
      rw [Bool.eq_iff_iff, decide_eq_true_eq]
      exact (hkeys name).symm
    simp only [LeadAlike, RoutesAs, running, sniRouter_eq, hpresent]
    rw [lookup_routesAs_iff s heap hwf _ _ hpres]
    exact ⟨fun heq => Target.pool.inj heq, fun heq => congrArg Target.pool heq⟩

/-- Routing after reloads. Whatever the startup configuration and the accepted
    reloads, every running listener has one entry in the last configuration, and
    its proxy routes as that entry says exactly when the entry it was started with
    leads to the same place. -/
theorem routing_follows_reload_iff (host : Host) (file : Except String Bytes) (env₀ : BuildEnv)
    (now : Circuitbreaker.Time) (s₀ s : System) (C : Config) (l₀ : ListenerConfig)
    (hstart : startup host file env₀ now = .ok s₀) (h : Reloaded s₀ s C)
    (hl₀ : l₀ ∈ s₀.cfg.listeners) :
    (∃! l, l ∈ C.listeners ∧ l.name = l₀.name) ∧
    ∀ l ∈ C.listeners, l.name = l₀.name → ∀ kind q, proxyKind l₀ = some kind → kind.sees q →
      (RoutesAs s.store.current l₀ l q ↔ LeadAlike C l₀ l q) := by
  have hinv := h.inv host file env₀ now s₀ s C hstart
  constructor
  · obtain ⟨l, hl, hfp⟩ := hinv.entry l₀ hl₀
    have hname : l.name = l₀.name := congrArg ListenerFingerprint.name hfp
    refine ⟨l, ⟨hl, hname⟩, fun l' hl' => ?_⟩
    exact List.inj_on_of_nodup_map hinv.accepted.listener_names_nodup hl'.1 hl
      (hl'.2.trans hname.symm)
  · intro l hl hname kind q hkind hq
    have hfp := hinv.entry_unique l₀ l hl₀ hl hname
    have hpres : ∀ name ∈ (prescribed l q).pools, isKey s.store.current name := by
      intro name hmem
      refine (hinv.keys name).mpr
        (prescribed_defined _ _ C hinv.accepted l hl kind ?_ q hq name hmem)
      rw [proxyKind_eq_of_fingerprint l l₀ hfp]
      exact hkind
    exact routesAs_iff s.store.current s.store.heap hinv.wf C hinv.keys l₀ l q hpres

/-- Two pools, the second of which becomes the listener's own. -/
def twoPoolConfig (listenerPool : String) : Config :=
  { plainConfig with
    pools := [Sample.pool "web" "10.0.0.1:8080", Sample.pool "api" "10.0.0.2:8080"]
    listeners := [Sample.listener "front" "0.0.0.0:80" "http" listenerPool] }

/-- A reload that moves the listener to another pool is accepted, and requests go
    on to the old one. -/
theorem reload_leaves_listener_pool :
    ∃ s₀, startup (Sample.host [twoPoolConfig "web", twoPoolConfig "api"]) (.ok [0])
        (Sample.env fun _ => .error "no such host") 0 = .ok s₀ ∧
      Reloaded s₀ (s₀.step (.reload (Sample.reloadEnv 1 fun _ => .error "no such host")))
        (twoPoolConfig "api") ∧
      ¬ RoutesAs
        (s₀.step (.reload (Sample.reloadEnv 1 fun _ => .error "no such host"))).store.current
        (Sample.listener "front" "0.0.0.0:80" "http" "web")
        (Sample.listener "front" "0.0.0.0:80" "http" "api") (.request ⟨"example.com", "/", ∅⟩) := by
  refine ⟨_, rfl, .reload _ _ _ _ .start rfl rfl, ?_⟩
  rintro ⟨t, hrun, hpres⟩
  exact absurd (hrun.trans hpres.symm) (by decide)

/-- The theorem at a reload that keeps the listener's entry. -/
theorem routing_follows_plain_reload :
    ∃ s₀, startup (Sample.host [plainConfig]) (.ok [0])
        (Sample.env fun _ => .error "no such host") 0 = .ok s₀ ∧
      RoutesAs (s₀.step (.reload (Sample.reloadEnv 0 fun _ => .error "no such host"))).store.current
        (Sample.listener "front" "0.0.0.0:80" "http" "web")
        (Sample.listener "front" "0.0.0.0:80" "http" "web") (.request ⟨"example.com", "/", ∅⟩) := by
  refine ⟨_, rfl, ?_⟩
  have hiff := (routing_follows_reload_iff (Sample.host [plainConfig]) (.ok [0])
    (Sample.env fun _ => .error "no such host") 0 _ _ plainConfig
    (Sample.listener "front" "0.0.0.0:80" "http" "web") rfl
    (.reload _ _ (Sample.reloadEnv 0 fun _ => .error "no such host") _ .start rfl rfl)
    List.mem_cons_self).2 _ List.mem_cons_self rfl .http (.request ⟨"example.com", "/", ∅⟩) rfl rfl
  exact hiff.mpr ⟨by decide, rfl⟩

/-! ## Dangling pools -/

/-- The pool names a running proxy dereferences without a check. -/
def lookedUp (l : ListenerConfig) : List String :=
  match proxyKind l with
  | some .http => (namedTable l).pools
  | some _ => [l.pool]
  | none => []

/-- A snapshot in which the proxy of `l` finds all its pools. -/
structure NoDangling (s : Snapshot) (l : ListenerConfig) : Prop where
  keys : ∀ name ∈ lookedUp l, isKey s name
  safe : ∀ kind q, proxyKind l = some kind → kind.sees q → (running l s q).isSome

/-- With all names present no getter panics. -/
private theorem running_isSome (s : Snapshot) (l : ListenerConfig)
    (hkeys : ∀ name ∈ lookedUp l, isKey s name) (kind : ProxyKind) (q : Traffic)
    (hkind : proxyKind l = some kind) (hq : kind.sees q) : (running l s q).isSome := by
  unfold lookedUp at hkeys
  rw [hkind] at hkeys
  cases q with
  | request req =>
    cases kind with
    | http =>
      rw [running, Option.isSome_map, buildRouteTable_isSome]
      exact hkeys
    | tcp | udp | tlsPassthrough => exact nomatch hq
  | connection =>
    rw [running, Option.isSome_map]
    cases kind with
    | tcp | udp => exact hkeys l.pool List.mem_cons_self
    | http | tlsPassthrough => exact nomatch hq
  | clientHello sni =>
    cases kind with
    | tlsPassthrough =>
      have hpool : isKey s l.pool := hkeys l.pool List.mem_cons_self
      rw [running, Option.isSome_map, sniRouter]
      split
      · rfl
      · exact hpool
    | tcp | udp | http => exact nomatch hq

/-- Dangling pools. After any accepted reloads the running proxies find every pool
    they look up exactly when each pool name their startup entries refer to is
    still a pool of the last configuration. -/
theorem no_dangling_pool_iff (host : Host) (file : Except String Bytes) (env₀ : BuildEnv)
    (now : Circuitbreaker.Time) (s₀ s : System) (C : Config)
    (hstart : startup host file env₀ now = .ok s₀) (h : Reloaded s₀ s C) :
    (∀ l₀ ∈ s₀.cfg.listeners, NoDangling s.store.current l₀) ↔
      ∀ l₀ ∈ s₀.cfg.listeners, ∀ name ∈ lookedUp l₀, name ∈ C.pools.map (·.name) := by
  have hinv := h.inv host file env₀ now s₀ s C hstart
  refine forall_congr' fun l₀ => imp_congr_right fun _ => ?_
  constructor
  · intro hno name hname
    exact (hinv.keys name).mp (hno.keys name hname)
  · intro hall
    have hkeys : ∀ name ∈ lookedUp l₀, isKey s.store.current name := fun name hname =>
      (hinv.keys name).mpr (hall name hname)
    exact ⟨hkeys, running_isSome s.store.current l₀ hkeys⟩

/-- The plain configuration with its pool renamed. -/
def renamedPoolConfig : Config :=
  { plainConfig with
    pools := [Sample.pool "site" "10.0.0.1:8080"]
    listeners := [Sample.listener "front" "0.0.0.0:80" "http" "site"] }

/-- A reload that renames the pool together with the listener's reference to it is
    accepted, and the HTTP getter of the running listener then panics. -/
theorem renamed_pool_dangles :
    ∃ s₀, startup (Sample.host [plainConfig, renamedPoolConfig]) (.ok [0])
        (Sample.env fun _ => .error "no such host") 0 = .ok s₀ ∧
      Reloaded s₀ (s₀.step (.reload (Sample.reloadEnv 1 fun _ => .error "no such host")))
        renamedPoolConfig ∧
      ¬ (∀ l₀ ∈ s₀.cfg.listeners, NoDangling
        (s₀.step (.reload (Sample.reloadEnv 1 fun _ => .error "no such host"))).store.current l₀) ∧
      buildRouteTable (Sample.listener "front" "0.0.0.0:80" "http" "web")
        (s₀.step (.reload (Sample.reloadEnv 1 fun _ => .error "no such host"))).store.current =
        none := by
  refine ⟨_, rfl, .reload _ _ _ _ .start rfl rfl, fun h => ?_, rfl⟩
  exact absurd ((h _ List.mem_cons_self).keys "web" (by decide)) (by decide)

/-- The theorem at a reload of the same configuration. -/
theorem no_dangling_after_plain_reload :
    ∃ s₀, startup (Sample.host [plainConfig]) (.ok [0])
        (Sample.env fun _ => .error "no such host") 0 = .ok s₀ ∧
      ∀ l₀ ∈ s₀.cfg.listeners, NoDangling
        (s₀.step (.reload (Sample.reloadEnv 0 fun _ => .error "no such host"))).store.current l₀ :=
  ⟨_, rfl, (no_dangling_pool_iff (Sample.host [plainConfig]) (.ok [0])
    (Sample.env fun _ => .error "no such host") 0 _ _ plainConfig rfl
    (.reload _ _ (Sample.reloadEnv 0 fun _ => .error "no such host") _ .start rfl rfl)).mpr
    (by decide)⟩

end HootLb
