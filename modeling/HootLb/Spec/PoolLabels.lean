import HootLb.Spec.GaugeVectors
import HootLb.Spec.RequestMetrics

/-!
# The pool in the labels

All proxies count their traffic under the pool of the listener entry, which is
fixed when the server is built. The pool that serves is found for each request or
connection: by a route, a draw among the entries of a split, or the server name of
a TLS client. The label is right when that is the listener's own pool, and only
then; the dashboard and the cleanup then see what the pool did, as long as their
comparison of strings cannot mistake one label for another.
-/

namespace HootLb

open Balancer Config HootLb.L7 HootLb.Metrics HootLb.Runtime

/-- Traffic of listener `l` that the pool of that name took to a backend, with the
    metric calls that are made for it. -/
inductive Serves (l : ListenerConfig) (s : Snapshot) (heap : Heap) :
    String → String → List Call → Prop
  | tcp {ref : PoolRef} {ps : PoolState} {draw : Nat} {clientIP b : String}
      {relayed : Option (Nat × Nat)} (hkind : proxyKind l = some .tcp)
      (hget : poolGetter l s = some ref) (hps : heap.pools[ref]? = some ps)
      (hpick : pickAddress ps draw clientIP = .ok b) :
      Serves l s heap l.pool b (handleConn l b relayed)
  | tls {sni : String} {ref : PoolRef} {ps : PoolState} {draw : Nat} {clientIP b : String}
      {relayed : Option (Nat × Nat)} (hkind : proxyKind l = some .tlsPassthrough)
      (hget : sniRouter l s sni = some ref) (hps : heap.pools[ref]? = some ps)
      (hpick : pickAddress ps draw clientIP = .ok b) :
      Serves l s heap (sniPool (isKey s) l sni) b (handleConn l b relayed)
  | udp {ref : PoolRef} {ps : PoolState} {draw : Nat} {clientIP b : String}
      (hkind : proxyKind l = some .udp) (hget : poolGetter l s = some ref)
      (hps : heap.pools[ref]? = some ps) (hpick : pickAddress ps draw clientIP = .ok b)
      (dialed : Bool) :
      Serves l s heap l.pool b (if dialed then udpSession l b else udpDialFailure l b)
  | http {backendLatency : Bool} {v : Visit} {r : DirectorResult} {name b : String}
      {body : RequestBody} {start : Int} {io : Nat → AttemptIO} {closes : Nat}
      (hkind : proxyKind l = some .http)
      (hr : httpDirector l (some backendLatency) s heap v = some r)
      (hname : ((namedTable l).matchRoute v.req).target.select v.splitDraw = some name)
      (hb : r.ctx.backend = some b) :
      Serves l s heap name b (httpRequest r.effects r.ctx body start io closes)

/-- The Director has taken the request to a backend of the pool that the routes
    name, and the label it counts under is the listener's pool. -/
theorem httpDirector_forwards {l : ListenerConfig} {backendLatency : Bool} {s : Snapshot}
    {heap : Heap} {v : Visit} {r : DirectorResult} {name b : String}
    (hr : httpDirector l (some backendLatency) s heap v = some r)
    (hname : ((namedTable l).matchRoute v.req).target.select v.splitDraw = some name)
    (hb : r.ctx.backend = some b) :
    ∃ ref ps, s.poolStates.lookup name = some ref ∧ heap.pools[ref]? = some ps ∧
      EligibleIn ps b ∧ r.ctx.Directed b ∧
      r.ctx.metrics = some { pool := l.pool, backendLatency } ∧
      r.effects = acquireIf (isConnReleaser ps.lb) b ++
        [.connectionsTotal l.pool b, .connectionsActive l.pool b 1] := by
  unfold httpDirector at hr
  cases htable : buildRouteTable l s with
  | none =>
    rw [htable] at hr
    exact nomatch hr
  | some table =>
    rw [htable] at hr
    obtain ⟨ref, ps, hsel, hps, hdirect⟩ := newDirectorInternal_directTo _ _ _ _ _ hr
    -- the table holds references; the name of the pool is in the configured routes
    obtain ⟨name', hname', hlookup⟩ :=
      (select_buildRouteTable l s table htable v.req v.splitDraw ref).mp hsel
    cases hname.symm.trans hname'
    obtain ⟨-, hfw, heffects⟩ := directTo_backend _ _ _ _ _ hdirect b hb
    exact ⟨ref, ps, hlookup, hps, chooseBackend_eligible ps v b hfw.chosen, hfw.directed,
      hfw.metrics, heffects⟩

/-- The name is that of the pool whose server was chosen. -/
theorem Serves.pool {l : ListenerConfig} {s : Snapshot} {heap : Heap} {name b : String}
    {calls : List Call} (h : Serves l s heap name b calls) :
    ∃ ref ps, s.poolStates.lookup name = some ref ∧ heap.pools[ref]? = some ps ∧
      EligibleIn ps b := by
  cases h with
  | tcp hkind hget hps hpick => exact ⟨_, _, hget, hps, pickAddress_eligible _ _ _ _ hpick⟩
  | tls hkind hget hps hpick =>
    rw [sniRouter_eq] at hget
    exact ⟨_, _, hget, hps, pickAddress_eligible _ _ _ _ hpick⟩
  | udp hkind hget hps hpick dialed =>
    exact ⟨_, _, hget, hps, pickAddress_eligible _ _ _ _ hpick⟩
  | http hkind hr hname hb =>
    obtain ⟨ref, ps, hlookup, hps, helig, -⟩ := httpDirector_forwards hr hname hb
    exact ⟨ref, ps, hlookup, hps, helig⟩

/-! ## The labels in use -/

/-- Calls under the listener's pool and a backend. -/
structure LabelledBy (l : ListenerConfig) (b : String) (calls : List Call) : Prop where
  pool : ∀ c ∈ calls, ∀ p, c.label "pool" = some p → p = l.pool
  some_call : ∃ c ∈ calls, c.label "pool" = some l.pool
  active : ∀ labels, .active (.withLabels labels) ∈ calls →
    ∃ listener protocol, labels = [listener, l.pool, b, protocol] ∧
      listener ∈ [l.name, ""] ∧ protocol ∈ ["tcp", "udp", "http"]

/-- Where the registered label names have the pool. -/
theorem idxOf_pool (metric : Metric) :
    metric.labelNames.idxOf "pool" =
      match metric with
      | .backendLatency => 0
      | _ => 1 := by
  cases metric <;> rfl

theorem labelledBy_handleConn (l : ListenerConfig) (b : String) (relayed : Option (Nat × Nat)) :
    LabelledBy l b (handleConn l b relayed) where
  pool := by
    cases relayed <;> simp [handleConn, Call.label, Call.labels, idxOf_pool]
  some_call := by
    refine ⟨.add .connectionsTotal [l.name, l.pool, b, "tcp"] 1, ?_, rfl⟩
    simp [handleConn]
  active := by
    intro labels hmem
    have heq : labels = [l.name, l.pool, b, "tcp"] := by
      cases relayed <;> simpa [handleConn] using hmem
    exact ⟨l.name, "tcp", heq, by simp, by simp⟩

theorem labelledBy_udp (l : ListenerConfig) (b : String) (dialed : Bool) :
    LabelledBy l b (if dialed then udpSession l b else udpDialFailure l b) where
  pool := by
    cases dialed <;> simp [udpSession, udpDialFailure, Call.label, Call.labels, idxOf_pool]
  some_call := by
    cases dialed with
    | true =>
      refine ⟨.add .connectionsTotal [l.name, l.pool, b, "udp"] 1, ?_, rfl⟩
      simp [udpSession]
    | false =>
      refine ⟨.add .dialFailures [l.name, l.pool, b] 1, ?_, rfl⟩
      simp [udpDialFailure]
  active := by
    intro labels hmem
    have heq : labels = [l.name, l.pool, b, "udp"] := by
      cases dialed with
      | true => simpa [udpSession] using hmem
      | false => simp [udpDialFailure] at hmem
    exact ⟨l.name, "udp", heq, by simp, by simp⟩

/-- The labels behind an effect. -/
theorem label_ofEffect (e : Effect) (c : Call) (hc : c ∈ ofEffect e) (p : String)
    (hp : c.label "pool" = some p) : ∃ addr, e.counted = some (p, addr) := by
  have hone : ∀ c', ofEffect e = [c'] → c = c' := by
    intro c' he
    rw [he] at hc
    exact List.mem_singleton.mp hc
  -- an update of the gauge is two calls, and only the lookup has labels
  cases e with
  | connectionsTotal pool addr => cases hone _ rfl; cases hp; exact ⟨addr, rfl⟩
  | connectionsActive pool addr delta =>
    rcases List.mem_pair.mp hc with rfl | rfl
    · cases hp
      exact ⟨addr, rfl⟩
    · exact nomatch hp
  | dialFailures pool addr => cases hone _ rfl; cases hp; exact ⟨addr, rfl⟩
  | backendLatency pool addr => cases hone _ rfl; cases hp; exact ⟨addr, rfl⟩
  | requestDuration pool addr => cases hone _ rfl; cases hp; exact ⟨addr, rfl⟩
  | _ => exact nomatch hc

theorem active_ofEffect (e : Effect) (labels : List String)
    (hc : .active (.withLabels labels) ∈ ofEffect e) :
    ∃ pool addr, e.counted = some (pool, addr) ∧ labels = ["", pool, addr, "http"] := by
  cases e <;> simp_all [ofEffect, Effect.counted]

theorem labelledBy_httpRequest (l : ListenerConfig) (b : String) (directed : List Effect)
    (ctx : Context) (body : RequestBody) (start : Int) (io : Nat → AttemptIO) (closes : Nat)
    (hdirected : CountedUnder l.pool b directed)
    (hcounted : .connectionsTotal l.pool b ∈ directed)
    (hlog : CountedUnder l.pool b (ctx.requestLog body start io closes)) :
    LabelledBy l b (httpRequest directed ctx body start io closes) := by
  have hall : CountedUnder l.pool b (directed ++ ctx.requestLog body start io closes) :=
    (countedUnder_append l.pool b _ _).mpr ⟨hdirected, hlog⟩
  rw [httpRequest_eq]
  constructor
  · intro c hc p hp
    obtain ⟨e, he, hce⟩ := List.mem_flatMap.mp hc
    obtain ⟨addr, hcounted⟩ := label_ofEffect e c hce p hp
    exact (Prod.mk.inj (hall e he _ hcounted)).1
  · refine ⟨.add .connectionsTotal ["", l.pool, b, "http"] 1, ?_, rfl⟩
    exact List.mem_flatMap.mpr ⟨_, List.mem_append_left _ hcounted, List.mem_singleton.mpr rfl⟩
  · intro labels hmem
    obtain ⟨e, he, hce⟩ := List.mem_flatMap.mp hmem
    obtain ⟨pool, addr, hcounted, rfl⟩ := active_ofEffect e labels hce
    obtain ⟨rfl, rfl⟩ := Prod.mk.inj (hall e he _ hcounted)
    exact ⟨"", "http", rfl, by simp, by simp⟩

/-- Whatever serves the traffic, it is counted under the listener's pool. -/
theorem Serves.labelledBy {l : ListenerConfig} {s : Snapshot} {heap : Heap} {name b : String}
    {calls : List Call} (h : Serves l s heap name b calls) : LabelledBy l b calls := by
  cases h with
  | tcp => exact labelledBy_handleConn l b _
  | tls => exact labelledBy_handleConn l b _
  | udp hkind hget hps hpick dialed => exact labelledBy_udp l b dialed
  | http hkind hr hname hb =>
    obtain ⟨ref, ps, -, -, -, hctx, hmetrics, heffects⟩ := httpDirector_forwards hr hname hb
    refine labelledBy_httpRequest l b _ _ _ _ _ _ ?_ ?_
      (requestLog_countedUnder _ _ b hctx hmetrics _ _ _ _)
    · rw [heffects]
      simp [acquireIf, Effect.counted]
    · rw [heffects]
      simp

/-! ## Dashboard and cleanup -/

/-- The pool `p` and the address `addr` cannot be mistaken for other labels of the
    traffic of `l` to `b`, nor can labels run together at the separator. -/
structure Apart (l : ListenerConfig) (b p addr : String) : Prop where
  separate : ∀ x ∈ [l.name, l.pool, b, p, addr], '\x00' ∉ x.toList
  pool : p ∉ [l.name, b, "", "tcp", "udp", "http"]
  backend : addr ∉ [l.name, l.pool, "", "tcp", "udp", "http"]

section Consumers

variable {l : ListenerConfig} {b p addr listener protocol : String}

theorem Apart.parts_key (h : Apart l b p addr) (hlistener : listener ∈ [l.name, ""])
    (hprotocol : protocol ∈ ["tcp", "udp", "http"]) :
    parts (key [listener, l.pool, b, protocol]) = [listener, l.pool, b, protocol] := by
  have hs := h.separate
  simp only [List.mem_cons, List.not_mem_nil, or_false, forall_eq_or_imp, forall_eq] at hs
  refine Metrics.parts_key _ (by simp) ?_
  simp only [List.mem_cons, List.not_mem_nil, or_false, forall_eq_or_imp, forall_eq]
  refine ⟨?_, hs.2.1, hs.2.2.1, ?_⟩
  · simp only [List.mem_cons, List.not_mem_nil, or_false] at hlistener
    rcases hlistener with rfl | rfl
    · exact hs.1
    · decide
  · simp only [List.mem_cons, List.not_mem_nil, or_false] at hprotocol
    rcases hprotocol with rfl | rfl | rfl <;> decide

/-- The row of the dashboard that reads the entry. -/
theorem Apart.readsRow_iff (h : Apart l b p addr) (hlistener : listener ∈ [l.name, ""])
    (hprotocol : protocol ∈ ["tcp", "udp", "http"]) :
    readsRow (rowKey p addr) (parts (key [listener, l.pool, b, protocol])) = true ↔
      p = l.pool ∧ addr = b := by
  have hs := h.separate
  rw [h.parts_key hlistener hprotocol]
  simp only [readsRow, decide_eq_true_eq]
  rw [rowKey_inj (by simp only [List.mem_cons] at hs ⊢; grind)]
  exact ⟨fun h => ⟨h.1.symm, h.2.symm⟩, fun h => ⟨h.1.symm, h.2.symm⟩⟩

/-- The cleanup that removes the entry. -/
theorem Apart.namesBoth_iff (h : Apart l b p addr) (hlistener : listener ∈ [l.name, ""])
    (hprotocol : protocol ∈ ["tcp", "udp", "http"]) :
    namesBoth p addr (key [listener, l.pool, b, protocol]) = true ↔ p = l.pool ∧ addr = b := by
  have hp := h.pool
  have hb := h.backend
  unfold namesBoth
  rw [h.parts_key hlistener hprotocol]
  simp only [List.mem_cons, List.not_mem_nil, or_false] at hp hb hlistener hprotocol
  simp only [Bool.and_eq_true, List.contains_iff_mem, List.mem_cons, List.not_mem_nil, or_false]
  grind

end Consumers

/-! ## The split of two pools -/

/-- A request on the split route, and the pool its draw leads to. -/
theorem serves_split (draw : Nat) (name b : String) (io : Nat → AttemptIO) (directed : List Effect)
    (hrun : (httpDirector splitListener (some false) splitSnapshot splitHeap
      (splitVisit [] draw)).map (fun r => (r.effects, r.ctx.backend)) = some (directed, some b))
    (hname : ((namedTable splitListener).matchRoute (splitVisit [] draw).req).target.select draw =
      some name) (hcounted : .connectionsActive "blue" b 1 ∈ directed) :
    ∃ calls, Serves splitListener splitSnapshot splitHeap name b calls ∧
      .active (.withLabels ["", "blue", b, "http"]) ∈ calls := by
  obtain ⟨r, hr, hr'⟩ := Option.map_eq_some_iff.mp hrun
  obtain ⟨heffects, hb⟩ := Prod.mk.inj hr'
  refine ⟨httpRequest r.effects r.ctx .absent 0 io 1, .http (by decide +kernel) hr hname hb, ?_⟩
  rw [httpRequest_eq, heffects]
  exact List.mem_flatMap.mpr ⟨_, List.mem_append_left _ hcounted, List.mem_cons_self⟩

end HootLb
