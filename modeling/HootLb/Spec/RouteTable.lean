import HootLb.ForStd.List
import HootLb.Native.Routing

/-!
# Route tables by name

What a listener entry says about routing, in pool names and without a snapshot,
and how the getters compute it: they look the names up in the snapshot and panic
when one they need is not there.

## Key results

- `RouteTable.matchRoute_map`: matching does not look at pools
- `buildRouteTable_eq`, `buildRouteTable_isSome`: the HTTP getter
- `sniRouter_eq`: the TLS passthrough getter
-/

namespace HootLb.L7

variable {α β : Type}

/-! ## Renaming pools -/

def Target.map (f : α → β) : Target α → Target β
  | .pool a => .pool (f a)
  | .split entries => .split (entries.map fun e => { pool := f e.pool, weight := e.weight })

def Route.map (f : α → β) (r : Route α) : Route β :=
  { host := r.host, pathPrefix := r.pathPrefix, headerName := r.headerName
    headerValue := r.headerValue, target := r.target.map f }

def RouteTable.map (f : α → β) (t : RouteTable α) : RouteTable β :=
  { routes := t.routes.map (Route.map f), fallback := t.fallback.map f }

/-- The pools a target leads to. -/
def Target.pools : Target α → List α
  | .pool a => [a]
  | .split entries => entries.map (·.pool)

/-- Every pool a table leads to. -/
def RouteTable.pools (t : RouteTable α) : List α :=
  t.fallback.target.pools ++ t.routes.flatMap fun r => r.target.pools

private theorem matchLoop_map (f : α → β) (req : Request) (routes : List (Route α))
    (best : Option (Route α)) (bestLen : Int) :
    matchLoop req (routes.map (Route.map f)) (best.map (Route.map f)) bestLen =
      (matchLoop req routes best bestLen).map (Route.map f) := by
  induction routes generalizing best bestLen with
  | nil => rfl
  | cons r rest ih =>
    have hadmits : (r.map f).admits req = r.admits req := rfl
    have hlen : (r.map f).pathPrefix = r.pathPrefix := rfl
    simp only [List.map_cons, matchLoop, hadmits, hlen]
    split
    · exact ih (some r) _
    · exact ih best bestLen

theorem RouteTable.matchRoute_map (f : α → β) (t : RouteTable α) (req : Request) :
    (t.map f).matchRoute req = (t.matchRoute req).map f := by
  have h := matchLoop_map f req t.routes none (-1)
  simp only [RouteTable.matchRoute, RouteTable.map]
  rw [Option.map_none] at h
  rw [h]
  cases matchLoop req t.routes none (-1) <;> rfl

/-- The loop returns what it started with or one of the routes. -/
private theorem matchLoop_mem (req : Request) (routes : List (Route α)) (best : Option (Route α))
    (bestLen : Int) (r : Route α) (h : matchLoop req routes best bestLen = some r) :
    best = some r ∨ r ∈ routes := by
  induction routes generalizing best bestLen with
  | nil => exact Or.inl h
  | cons x rest ih =>
    simp only [matchLoop] at h
    split at h
    · rcases ih (some x) _ h with hx | hr
      · cases hx
        exact Or.inr List.mem_cons_self
      · exact Or.inr (List.mem_cons_of_mem _ hr)
    · exact (ih best bestLen h).imp id (List.mem_cons_of_mem _)

/-- A matched route leads to pools of the table. -/
theorem RouteTable.matchRoute_pools (t : RouteTable α) (req : Request) (a : α)
    (h : a ∈ (t.matchRoute req).target.pools) : a ∈ t.pools := by
  unfold RouteTable.matchRoute at h
  unfold RouteTable.pools
  cases hm : matchLoop req t.routes none (-1) with
  | none =>
    rw [hm] at h
    exact List.mem_append_left _ h
  | some r =>
    rw [hm] at h
    have hr : r ∈ t.routes := by
      rcases matchLoop_mem req t.routes none (-1) r hm with hnone | hr
      · exact nomatch hnone
      · exact hr
    exact List.mem_append_right _ (List.mem_flatMap.mpr ⟨r, hr, h⟩)

/-- Renaming that tells the pools apart tells the targets apart. -/
theorem Target.map_inj (f : α → β) (t t' : Target α)
    (hinj : ∀ a ∈ t.pools, ∀ b ∈ t'.pools, f a = f b → a = b) (h : t.map f = t'.map f) :
    t = t' := by
  cases t with
  | pool a =>
    cases t' with
    | pool b =>
      have hab : f a = f b := by simpa [Target.map] using h
      rw [hinj a (by simp [Target.pools]) b (by simp [Target.pools]) hab]
    | split entries => exact nomatch h
  | split entries =>
    cases t' with
    | pool b => exact nomatch h
    | split entries' =>
      simp only [Target.map, Target.split.injEq] at h
      rw [List.eq_of_map_eq_map _ entries entries' (fun e he e' he' heq => ?_) h]
      simp only [SplitEntry.mk.injEq] at heq
      have hpool := hinj e.pool (List.mem_map_of_mem he) e'.pool (List.mem_map_of_mem he') heq.1
      cases e
      cases e'
      simp only at hpool heq
      rw [hpool, heq.2]

end HootLb.L7

namespace HootLb

open Config HootLb.Runtime HootLb.L7

/-! ## What a listener entry prescribes -/

/-- A configured route. -/
def namedRoute (r : RouteConfig) : Route String :=
  { host := r.host, pathPrefix := r.pathPrefix
    headerName := (r.header.map (·.name)).getD ""
    headerValue := (r.header.map (·.value)).getD ""
    target :=
      if r.split ≠ [] then .split (r.split.map fun sc => { pool := sc.pool, weight := sc.weight })
      else .pool r.pool }

/-- The routes of a listener with its own pool as the default. -/
def namedTable (l : ListenerConfig) : RouteTable String :=
  { routes := l.routes.map namedRoute, fallback := fallbackRoute l.pool }

/-- The pool for a server name: that of the first route for it whose pool is
    `present`, or else the listener's own. -/
def sniPool (present : String → Bool) (l : ListenerConfig) (sni : String) : String :=
  ((((l.tls.map (·.routes)).getD []).find? fun r => r.host = sni && present r.pool).map
    (·.pool)).getD l.pool

/-- The pool or split that a listener entry prescribes. -/
def prescribed (l : ListenerConfig) : Traffic → Target String
  | .request req => ((namedTable l).matchRoute req).target
  | .connection => .pool l.pool
  | .clientHello sni => .pool (sniPool (fun _ => true) l sni)

/-! ## The getters -/

/-- The pool state behind a name of the snapshot. -/
def keyRef (s : Snapshot) (name : String) : PoolRef := (s.poolStates.lookup name).getD 0

/-- A name of the snapshot. -/
def isKey (s : Snapshot) (name : String) : Bool := (s.poolStates.lookup name).isSome

theorem lookup_of_isKey (s : Snapshot) (name : String) (h : isKey s name) :
    s.poolStates.lookup name = some (keyRef s name) := by
  obtain ⟨ref, href⟩ := Option.isSome_iff_exists.mp h
  simp [keyRef, href]

private theorem buildRoute_eq (s : Snapshot) (r : RouteConfig)
    (h : ∀ name ∈ (namedRoute r).target.pools, isKey s name) :
    buildRoute s r = some ((namedRoute r).map (keyRef s)) := by
  unfold buildRoute
  by_cases hs : r.split ≠ []
  · simp only [namedRoute, hs, ne_eq, not_false_eq_true, if_true, Target.pools] at h
    have hsplit : buildSplit s r.split = some (r.split.map fun sc =>
        { pool := keyRef s sc.pool, weight := sc.weight }) := by
      refine List.mapM_option_eq_some_map _ _ r.split fun sc hsc => ?_
      rw [lookup_of_isKey s sc.pool (h sc.pool (by simpa using ⟨sc, hsc, rfl⟩))]
      rfl
    simp only [hs, ne_eq, not_false_eq_true, if_true, hsplit, Option.map_some, namedRoute,
      Route.map, Target.map, List.map_map]
    rfl
  · simp only [namedRoute, hs, if_false, Target.pools, List.mem_singleton, forall_eq] at h
    simp only [hs, if_false, lookup_of_isKey s r.pool h, Option.map_some, namedRoute, Route.map,
      Target.map]

private theorem buildRoute_isSome (s : Snapshot) (r : RouteConfig) :
    (buildRoute s r).isSome ↔ ∀ name ∈ (namedRoute r).target.pools, isKey s name := by
  unfold buildRoute
  by_cases hs : r.split ≠ []
  · simp only [hs, ne_eq, not_false_eq_true, if_true, Option.isSome_map, buildSplit,
      List.mapM_option_isSome, namedRoute, Target.pools, List.map_map, List.forall_mem_map]
    rfl
  · simp only [hs, if_false, Option.isSome_map, namedRoute, Target.pools, List.mem_singleton,
      forall_eq]
    rfl

/-- The HTTP getter when every pool it needs is there. -/
theorem buildRouteTable_eq (l : ListenerConfig) (s : Snapshot)
    (h : ∀ name ∈ (namedTable l).pools, isKey s name) :
    buildRouteTable l s = some ((namedTable l).map (keyRef s)) := by
  have hroutes : l.routes.mapM (buildRoute s) =
      some (l.routes.map fun r => (namedRoute r).map (keyRef s)) := by
    refine List.mapM_option_eq_some_map _ _ l.routes fun r hr => ?_
    refine buildRoute_eq s r fun name hname => h name ?_
    refine List.mem_append_right _ (List.mem_flatMap.mpr ⟨namedRoute r, ?_, hname⟩)
    exact List.mem_map_of_mem hr
  have hpool : isKey s l.pool := h l.pool (List.mem_append_left _ List.mem_cons_self)
  simp only [buildRouteTable, hroutes, lookup_of_isKey s l.pool hpool, Option.map_some,
    RouteTable.map, namedTable, List.map_map]
  rfl

/-- The HTTP getter panics exactly when one of the pools is missing, whether the
    request needs that pool or not. -/
theorem buildRouteTable_isSome (l : ListenerConfig) (s : Snapshot) :
    (buildRouteTable l s).isSome ↔ ∀ name ∈ (namedTable l).pools, isKey s name := by
  constructor
  · intro h name hname
    unfold buildRouteTable at h
    cases hr : l.routes.mapM (buildRoute s) with
    | none => rw [hr] at h; exact nomatch h
    | some routes =>
      rw [hr] at h
      simp only [Option.isSome_map] at h
      have hroutes := (List.mapM_option_isSome (buildRoute s) l.routes).mp (by rw [hr]; rfl)
      rcases List.mem_append.mp hname with hfall | hroute
      · rw [List.mem_singleton.mp hfall]
        exact h
      · obtain ⟨r', hr', hmem⟩ := List.mem_flatMap.mp hroute
        obtain ⟨r, hrl, rfl⟩ := List.mem_map.mp hr'
        exact (buildRoute_isSome s r).mp (hroutes r hrl) name hmem
  · intro h
    rw [buildRouteTable_eq l s h]
    rfl

private theorem sniRoutes_eq (s : Snapshot) (sni : String) (routes : List TLSRouteConfig) :
    sniRoutes s sni routes =
      (routes.find? fun r => r.host = sni && isKey s r.pool).map fun r => keyRef s r.pool := by
  induction routes with
  | nil => rfl
  | cons r rest ih =>
    simp only [sniRoutes, List.find?_cons]
    by_cases hh : r.host = sni
    · cases hl : s.poolStates.lookup r.pool with
      | none => simp [hh, hl, isKey, ih]
      | some ref => simp [hh, hl, isKey, keyRef]
    · simp [hh, ih]

/-- The TLS passthrough getter looks up the first route for the name whose pool is
    in the snapshot. -/
theorem sniRouter_eq (l : ListenerConfig) (s : Snapshot) (sni : String) :
    sniRouter l s sni = s.poolStates.lookup (sniPool (isKey s) l sni) := by
  unfold sniRouter sniPool
  cases l.tls with
  | none => rfl
  | some t =>
    simp only [Option.bind_some, sniRoutes_eq, Option.map_some, Option.getD_some]
    cases hf : t.routes.find? fun r => r.host = sni && isKey s r.pool with
    | none => rfl
    | some r =>
      have hkey : isKey s r.pool := by
        have := List.find?_some hf
        simp only [Bool.and_eq_true] at this
        exact this.2
      simp only [Option.map_some, Option.getD_some, lookup_of_isKey s r.pool hkey]

end HootLb
