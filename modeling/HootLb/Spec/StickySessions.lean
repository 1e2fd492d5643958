import HootLb.Spec.DirectorSound

/-!
# Sticky sessions

A client that keeps returning its sticky cookie should keep its backend for as
long as that backend can serve it. On a plain route it does. On a split route the
pool is drawn before the cookie is looked at, and the cookie is checked against
the pool that was drawn: unless that pool happens to have the same backend, the
client is moved to another one and gets a new cookie.

## Key results

- `Turn.sentTo_iff`: when one request goes back to the client's backend
- `sticky_stays_iff`: when all requests of a client do
-/

namespace HootLb.L7

open Balancer Config HootLb.Runtime

/-! ## A client -/

/-- One request of a client: the state of the process it meets, what it consists
    of besides the sticky cookie, and whether a response comes back. -/
structure Turn where
  snapshot : Snapshot
  heap : Heap
  visit : Visit
  answered : Bool

/-- The request with the sticky cookie the client was last given. -/
def Turn.withCookie (t : Turn) (jar : StickyInfo) : Visit :=
  { t.visit with cookies := (jar.cookieName, jar.value) :: t.visit.cookies }

def Turn.serve (l : ListenerConfig) (metrics : Option Bool) (t : Turn) (jar : StickyInfo) :
    Option DirectorResult :=
  httpDirector l metrics t.snapshot t.heap (t.withCookie jar)

/-- The cookie the client holds afterwards. -/
def Turn.jarAfter (l : ListenerConfig) (metrics : Option Bool) (t : Turn) (jar : StickyInfo) :
    StickyInfo :=
  if t.answered then ((t.serve l metrics jar).bind (·.sticky)).getD jar else jar

/-- A client that returns the cookie it was last given, request by request. -/
def browse (l : ListenerConfig) (metrics : Option Bool) :
    StickyInfo → List Turn → List (Option DirectorResult)
  | _, [] => []
  | jar, t :: rest => t.serve l metrics jar :: browse l metrics (t.jarAfter l metrics jar) rest

/-- The request goes to `b`, and the response carries no sticky cookie. -/
def StaysAt (b : String) (r : Option DirectorResult) : Prop :=
  ∃ d, r = some d ∧ d.ctx.err = none ∧ d.ctx.host = b ∧ d.sticky = none

/-- The request matches the route, whose pools are there and have sticky sessions,
    and carries no other sticky cookie. -/
structure Turn.OnRoute (l : ListenerConfig) (route : Route String) (t : Turn) : Prop where
  table : (buildRouteTable l t.snapshot).isSome
  matched : (namedTable l).matchRoute t.visit.req = route
  sticky : ∀ name ∈ route.target.pools, ∃ ps sticky,
    t.snapshot.pool? t.heap name = some ps ∧ ps.sticky = some sticky ∧
    ∀ c ∈ t.visit.cookies, c.1 ≠ sticky.cookieName

/-- The draw leads to a pool that follows the cookie: one that uses its name and
    is the pool the cookie came from, or has the backend as well. -/
def Turn.FollowsCookie (route : Route String) (origin : String) (jar : StickyInfo) (t : Turn) :
    Prop :=
  ∃ name ps sticky, route.target.select t.visit.splitDraw = some name ∧
    t.snapshot.pool? t.heap name = some ps ∧ ps.sticky = some sticky ∧
    sticky.cookieName = jar.cookieName ∧ jar.backendAddr ≠ "" ∧
    (name = origin ∨ EligibleIn ps jar.backendAddr)

section OneTurn

variable {l : ListenerConfig} {route : Route String} {origin : String} {jar : StickyInfo} {t : Turn}

theorem addrBytes_ne_nil (addr : String) : addrBytes addr ≠ [] ↔ addr ≠ "" := by
  refine not_congr ⟨fun h => ?_, fun h => by rw [h]; rfl⟩
  exact addrBytes_inj (h.trans rfl)

theorem pool?_eq_some (s : Snapshot) (heap : Heap) (name : String) (ps : PoolState) :
    s.pool? heap name = some ps ↔
      ∃ ref, s.poolStates.lookup name = some ref ∧ heap.pools[ref]? = some ps := by
  unfold Snapshot.pool?
  rw [Option.bind_eq_some_iff]

/-- In the selected pool the client's cookie is looked at first. -/
theorem find_withCookie (name : String) (hother : ∀ c ∈ t.visit.cookies, c.1 ≠ name) :
    (t.withCookie jar).cookies.find name =
      if jar.cookieName = name then some jar.value else none := by
  unfold Turn.withCookie Cookies.find
  rw [List.find?_cons]
  by_cases hname : jar.cookieName = name
  · simp [hname]
  · have hnone : List.find? (fun c => c.1 = name) t.visit.cookies = none := by
      rw [List.find?_eq_none]
      intro c hc
      simpa using hother c hc
    simp [hname, hnone]

/-- The pool of a turn follows the cookie when it uses its name and has the
    backend. -/
theorem stuckBackend_withCookie (ps : PoolState) (sticky : StickyConfig)
    (hsticky : ps.sticky = some sticky)
    (hother : ∀ c ∈ t.visit.cookies, c.1 ≠ sticky.cookieName) :
    stuckBackend ps (t.withCookie jar).cookies = some jar.backendAddr ↔
      sticky.cookieName = jar.cookieName ∧ jar.backendAddr ≠ "" ∧
        EligibleIn ps jar.backendAddr := by
  rw [stuckBackend_eq_some, hsticky]
  simp only [Option.some.injEq, exists_and_left, exists_eq_left', find_withCookie _ hother,
    addrBytes_ne_nil]
  constructor
  · rintro ⟨value, hvalue, -, hne, helig⟩
    split at hvalue
    · rename_i hname
      exact ⟨hname.symm, hne, helig⟩
    · exact nomatch hvalue
  · rintro ⟨hname, hne, helig⟩
    exact ⟨jar.value, if_pos hname.symm, Percent.queryUnescape_queryEscape _, hne, helig⟩

/-- A forwarded request without a new cookie followed the old one. -/
theorem stuckBackend_of_forwards {ps : PoolState} {m : Option L7Metrics} {v : Visit} {b : String}
    {r : DirectorResult} (h : Forwards ps m v b r) (hsticky : ps.sticky.isSome)
    (hnone : r.sticky = none) : stuckBackend ps v.cookies = some b := by
  obtain ⟨sticky, hps⟩ := Option.isSome_iff_exists.mp hsticky
  have hchosen := h.chosen
  cases hstuck : stuckBackend ps v.cookies with
  | none =>
    have hfresh := h.sticky
    rw [hnone, hstuck, hps] at hfresh
    exact nomatch hfresh
  | some addr =>
    rw [chooseBackend, if_pos hsticky, hstuck] at hchosen
    cases hchosen
    rfl

/-- One request goes back to the client's backend exactly when the draw leads to a
    pool that follows the cookie. -/
theorem Turn.staysAt_iff (metrics : Option Bool) (hroute : t.OnRoute l route)
    (helig : ∃ ps, t.snapshot.pool? t.heap origin = some ps ∧ EligibleIn ps jar.backendAddr) :
    StaysAt jar.backendAddr (t.serve l metrics jar) ↔ t.FollowsCookie route origin jar := by
  obtain ⟨table, htable⟩ := Option.isSome_iff_exists.mp hroute.table
  have hselect : ∀ ref, (table.matchRoute t.visit.req).target.select t.visit.splitDraw = some ref ↔
      ∃ name, route.target.select t.visit.splitDraw = some name ∧
        t.snapshot.poolStates.lookup name = some ref := by
    intro ref
    rw [select_buildRouteTable l t.snapshot table htable, hroute.matched]
  unfold Turn.serve httpDirector
  rw [htable]
  dsimp only
  constructor
  · rintro ⟨d, hd, herr, hhost, hnone⟩
    obtain ⟨ps, hsel, hps, ⟨b, hfw⟩ | ⟨why, href⟩⟩ := newDirectorInternal_some _ _ _ _ d hd
    · obtain ⟨name, hname, hlookup⟩ := (hselect d.pool).mp hsel
      have hpool : t.snapshot.pool? t.heap name = some ps :=
        (pool?_eq_some _ _ _ _).mpr ⟨d.pool, hlookup, hps⟩
      obtain ⟨ps', sticky, hpool', hsticky, hother⟩ :=
        hroute.sticky name (Target.select_mem _ _ _ hname)
      cases hpool.symm.trans hpool'
      obtain rfl : b = jar.backendAddr := hfw.directed.host.symm.trans hhost
      have hstuck := stuckBackend_of_forwards hfw (by rw [hsticky]; rfl) hnone
      obtain ⟨hcookie, hne, hmem⟩ := (stuckBackend_withCookie ps sticky hsticky hother).mp hstuck
      exact ⟨name, ps, sticky, hname, hpool, hsticky, hcookie, hne, .inr hmem⟩
    · exact nomatch herr.symm.trans href.err
  · rintro ⟨name, ps, sticky, hname, hpool, hsticky, hcookie, hne, hor⟩
    have hmem : EligibleIn ps jar.backendAddr := by
      rcases hor with rfl | hmem
      · obtain ⟨ps', hpool', hmem⟩ := helig
        cases hpool.symm.trans hpool'
        exact hmem
      · exact hmem
    obtain ⟨ps', sticky', hpool', hsticky', hother⟩ :=
      hroute.sticky name (Target.select_mem _ _ _ hname)
    cases hpool.symm.trans hpool'
    cases hsticky.symm.trans hsticky'
    have hstuck := (stuckBackend_withCookie ps sticky hsticky hother).mpr ⟨hcookie, hne, hmem⟩
    obtain ⟨ref, hlookup, hps⟩ := (pool?_eq_some _ _ _ _).mp hpool
    have hchoice : ∀ pick, chooseBackend ps (stuckBackend ps (t.withCookie jar).cookies) pick =
        .ok jar.backendAddr := by
      intro pick
      rw [chooseBackend, hsticky, hstuck]
      rfl
    obtain ⟨d, hd, hfw⟩ := newDirectorInternal_forwards t.heap table
      (metrics.map fun backendLatency => { pool := l.pool, backendLatency }) (t.withCookie jar)
      ref ps jar.backendAddr ((hselect ref).mpr ⟨name, hname, hlookup⟩) hps (hchoice _)
    refine ⟨d, hd, hfw.directed.err, hfw.directed.host, ?_⟩
    rw [hfw.sticky, hstuck]
    rfl

end OneTurn

/-- The requests of a client that holds a cookie for the backend `b` of the pool
    `origin`, and `b` stays eligible there: all of them go to `b`, and no new cookie
    is issued, exactly when every draw leads to a pool that follows the cookie. -/
theorem sticky_stays_iff (l : ListenerConfig) (metrics : Option Bool) (route : Route String)
    (origin : String) (jar : StickyInfo) (turns : List Turn)
    (hroute : ∀ t ∈ turns, t.OnRoute l route)
    (helig : ∀ t ∈ turns, ∃ ps, t.snapshot.pool? t.heap origin = some ps ∧
      EligibleIn ps jar.backendAddr) :
    (∀ r ∈ browse l metrics jar turns, StaysAt jar.backendAddr r) ↔
      ∀ t ∈ turns, t.FollowsCookie route origin jar := by
  induction turns with
  | nil => simp [browse]
  | cons t rest ih =>
    have hfirst := Turn.staysAt_iff metrics (hroute t List.mem_cons_self)
      (helig t List.mem_cons_self)
    have hrest := ih (fun t' h => hroute t' (List.mem_cons_of_mem _ h))
      (fun t' h => helig t' (List.mem_cons_of_mem _ h))
    rw [browse, List.forall_mem_cons, List.forall_mem_cons, hfirst]
    refine and_congr_right fun hfollows => ?_
    -- without a new cookie the client keeps the old one
    have hjar : t.jarAfter l metrics jar = jar := by
      obtain ⟨d, hd, -, -, hnone⟩ := hfirst.mpr hfollows
      unfold Turn.jarAfter
      rw [hd, Option.bind_some, hnone]
      simp
    rw [hjar]
    exact hrest

/-! ## A client of a split route -/

/-- A request to the two sticky pools, with the given draw. -/
def splitTurn (draw : Nat) : Turn :=
  { snapshot := splitSnapshot, heap := splitHeap
    visit := { splitVisit [] draw with cookies := [] }, answered := true }

def splitRoute : Route String :=
  (namedTable splitListener).matchRoute { host := "example.com", path := "/", headers := ∅ }

/-- The cookie of a client that was sent to the pool `blue`. -/
def blueCookie : StickyInfo := { cookieName := "hoot_lb_sticky", backendAddr := "10.0.0.1:8080" }

private theorem splitPools (name : String) (h : name ∈ splitRoute.target.pools) :
    ∃ ps, splitSnapshot.pool? splitHeap name = some ps ∧
      ps.sticky = some { cookieName := "hoot_lb_sticky", ttl := 3600000000000 } := by
  have hpools : splitRoute.target.pools = ["blue", "green"] := by decide +kernel
  rw [hpools] at h
  rcases List.mem_pair.mp h with rfl | rfl
  · exact ⟨stickyPool "blue" "10.0.0.1:8080", by decide +kernel, by decide +kernel⟩
  · exact ⟨stickyPool "green" "10.0.0.2:8080", by decide +kernel, by decide +kernel⟩

private theorem splitTurn_onRoute (draw : Nat) :
    (splitTurn draw).OnRoute splitListener splitRoute := by
  refine ⟨?_, rfl, fun name hname => ?_⟩
  · show (buildRouteTable splitListener splitSnapshot).isSome
    rw [buildRouteTable_split]
    rfl
  · obtain ⟨ps, hps, hsticky⟩ := splitPools name hname
    exact ⟨ps, _, hps, hsticky, nofun⟩

private theorem blue_eligible (draw : Nat) :
    ∃ ps, (splitTurn draw).snapshot.pool? (splitTurn draw).heap "blue" = some ps ∧
      EligibleIn ps blueCookie.backendAddr := by
  refine ⟨stickyPool "blue" "10.0.0.1:8080", ?_, ?_⟩
  · show splitSnapshot.pool? splitHeap "blue" = _
    decide +kernel
  · exact ⟨newServer "10.0.0.1:8080" 1, by decide +kernel, rfl, rfl⟩

/-- A client gets its cookie in `blue`; the next draw is `green`, and it is moved
    and given another cookie although its backend is as eligible as before. -/
theorem split_moves_client :
    ((httpDirector splitListener none splitSnapshot splitHeap (splitTurn 0).visit).map
      fun r => (r.ctx.host, r.sticky)) = some ("10.0.0.1:8080", some blueCookie) ∧
    (splitTurn 1).OnRoute splitListener splitRoute ∧
    (∃ ps, (splitTurn 1).snapshot.pool? (splitTurn 1).heap "blue" = some ps ∧
      EligibleIn ps blueCookie.backendAddr) ∧
    (browse splitListener none blueCookie [splitTurn 1]).map
        (Option.map fun r => (r.ctx.host, r.sticky)) =
      [some ("10.0.0.2:8080", some { blueCookie with backendAddr := "10.0.0.2:8080" })] ∧
    ¬ ∀ r ∈ browse splitListener none blueCookie [splitTurn 1],
      StaysAt blueCookie.backendAddr r := by
  have hrun : (browse splitListener none blueCookie [splitTurn 1]).map
        (Option.map fun r => (r.ctx.host, r.sticky)) =
      [some ("10.0.0.2:8080", some { blueCookie with backendAddr := "10.0.0.2:8080" })] := by
    decide +kernel
  refine ⟨by decide +kernel, splitTurn_onRoute 1, blue_eligible 1, hrun, fun hstays => ?_⟩
  obtain ⟨d, hd, -, hhost, -⟩ := hstays _ List.mem_cons_self
  rw [browse, browse, hd] at hrun
  simp only [List.map_cons, List.map_nil, Option.map_some, List.cons.injEq, Option.some.injEq,
    Prod.mk.injEq] at hrun
  exact absurd (hhost.symm.trans hrun.1.1) (by decide)

/-- The theorem at two requests whose draws both lead to `blue`. -/
theorem client_of_blue_stays :
    (browse splitListener none blueCookie [splitTurn 0, splitTurn 2]).length = 2 ∧
      ∀ r ∈ browse splitListener none blueCookie [splitTurn 0, splitTurn 2],
        StaysAt blueCookie.backendAddr r := by
  refine ⟨rfl, ?_⟩
  refine (sticky_stays_iff splitListener none splitRoute "blue" blueCookie
    [splitTurn 0, splitTurn 2] (fun t ht => ?_) fun t ht => ?_).mpr fun t ht => ?_
  · rcases List.mem_pair.mp ht with rfl | rfl <;> exact splitTurn_onRoute _
  · rcases List.mem_pair.mp ht with rfl | rfl <;> exact blue_eligible _
  · have hblue : splitSnapshot.pool? splitHeap "blue" =
        some (stickyPool "blue" "10.0.0.1:8080") := by
      decide +kernel
    rcases List.mem_pair.mp ht with rfl | rfl <;>
      exact ⟨"blue", _, _, by decide +kernel, hblue, rfl, rfl, by decide, .inl rfl⟩

end HootLb.L7
