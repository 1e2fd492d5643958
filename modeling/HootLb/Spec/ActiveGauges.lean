import HootLb.Spec.GaugeVectors
import HootLb.Spec.RequestMetrics

/-!
# What the active-connection gauges count

Connections, sessions and requests take their gauge up when they begin and down
when they end, each by its own lookups in the vector, while cleanups remove entries
of the vector. The invariant is `Tallied`: every gauge that an unfinished activity
has looked up is still the one in the vector, and every entry counts the activities
that are in flight under its key. It is kept as long as no cleanup removes the
entry of an unfinished activity and every request is attempted exactly once.

Neither condition is kept by the code. The last section has a run for each: a
session whose entry is removed under it, and a request that is retried.
-/

namespace HootLb.Metrics

open Balancer HootLb.L7 HootLb.Runtime

/-! ## In flight -/

/-- The labels an activity is counted under. -/
def Flow.labels (f : Flow) : Option (List String) :=
  (f.made ++ f.pending).findSome? fun
    | .withLabels labels => some labels
    | .adjust _ => none

def GaugeCall.isAdjust : GaugeCall → Bool
  | .adjust _ => true
  | .withLabels _ => false

/-- From the first adjustment to the last. -/
def Flow.inFlight (f : Flow) : Bool :=
  f.made.any GaugeCall.isAdjust && f.pending.any GaugeCall.isAdjust

/-- In flight under the labels with this key. -/
def Flow.inFlightAt (k : String) (f : Flow) : Bool :=
  f.inFlight && decide (f.labels.map key = some k)

/-- The number of connections, sessions and requests in flight under a key. -/
def Board.inFlight (b : Board) (k : String) : Nat := b.flows.countP (Flow.inFlightAt k)

/-! ## Scripts -/

/-- Up and down, with a lookup before each. -/
def upAndDown (labels : List String) : List GaugeCall :=
  [.withLabels labels, .adjust 1, .withLabels labels, .adjust (-1)]

/-- A request is attempted exactly once: it is not retried, and its body can be read
    where that is needed. -/
def Activity.Once : Activity → Prop
  | .connection _ _ _ => True
  | .session _ _ => True
  | .request ps _ _ _ body start io _ =>
    match convertRetryConfig ps.retry with
    | none => True
    | some rcfg => ∀ k, Attempted rcfg start io body k ↔ k = 0

theorem gaugeCalls_handleConn (cfg : Config.ListenerConfig) (backend : String)
    (relayed : Option (Nat × Nat)) :
    gaugeCalls (handleConn cfg backend relayed) =
      upAndDown [cfg.name, cfg.pool, backend, "tcp"] := by
  cases relayed <;> rfl

/-- The calls of a request for which the Director found a backend. -/
theorem gaugeCalls_request (directed : List Effect) (ctx : Context) (m : L7Metrics) (b : String)
    (releaser : Bool) (hctx : ctx.Directed b) (hm : ctx.metrics = some m)
    (hdirected : directed = acquireIf releaser b ++
      [.connectionsTotal m.pool b, .connectionsActive m.pool b 1])
    (body : RequestBody) (start : Int) (io : Nat → AttemptIO) (closes : Nat)
    (honce : ∀ k, ctx.Attempts body start io k ↔ k = 0) :
    gaugeCalls (httpRequest directed ctx body start io (closes + 1)) =
      upAndDown ["", m.pool, b, "http"] := by
  obtain ⟨n, hn, hcalls⟩ := requestLog_gaugeCalls ctx m b hctx hm body start io closes
  -- the log takes the gauge down once for each attempt
  have hone : n = 1 := by
    have h0 : 0 < n := (hn 0).mp ((honce 0).mpr rfl)
    have h1 : ¬ 1 < n := fun h => absurd ((honce 1).mp ((hn 1).mpr h)) (by decide)
    omega
  have hlog : gaugeCalls (httpRequest directed ctx body start io (closes + 1)) =
      gaugeCallsOf directed ++ gaugeCallsOf (ctx.requestLog body start io (closes + 1)) := by
    rw [httpRequest_eq, ← gaugeCallsOf_append]
    rfl
  rw [hlog, hcalls, hdirected, hone]
  simp [upAndDown, takeDown]

/-- An activity is never counted, or it goes up and down under one set of labels. -/
theorem gaugeCalls_of_once (a : Activity) (h : a.Once) :
    gaugeCalls a.calls = [] ∨ ∃ labels, gaugeCalls a.calls = upAndDown labels := by
  cases a with
  | connection cfg backend relayed => exact .inr ⟨_, gaugeCalls_handleConn cfg backend relayed⟩
  | session cfg backend => exact .inr ⟨_, rfl⟩
  | request ps m stuck pick body start io closes =>
    cases hchoice : chooseBackend ps stuck pick with
    | panic =>
      left
      simp only [Activity.calls, director, hchoice]
      rfl
    | error why =>
      left
      simp only [Activity.calls, director, hchoice]
      rfl
    | ok b =>
      right
      refine ⟨["", m.pool, b, "http"], ?_⟩
      simp only [Activity.calls, director, hchoice]
      refine gaugeCalls_request _ _ m b (isConnReleaser ps.lb) ⟨rfl, rfl, rfl⟩ rfl rfl body start io
        closes fun k => ?_
      unfold Activity.Once at h
      unfold Context.Attempts
      dsimp only at h ⊢
      cases hretry : convertRetryConfig ps.retry with
      | none => rfl
      | some rcfg =>
        rw [hretry] at h
        exact h k

/-! ## The invariant -/

/-- How far an activity is; an unfinished one holds the gauge that is in the vector. -/
inductive Stands (gv : GaugeVec) (f : Flow) : Prop
  | idle (h : f = { made := [], pending := [], gauge := none })
  | waiting (labels : List String)
      (h : f = { made := [], pending := upAndDown labels, gauge := none })
  | found (labels : List String) (g : Nat)
      (h : f =
        { made := [.withLabels labels], gauge := some g
          pending := [.adjust 1, .withLabels labels, .adjust (-1)] })
      (hg : gv.items.lookup (key labels) = some g)
  | counted (labels : List String) (g : Nat)
      (h : f =
        { made := [.withLabels labels, .adjust 1], gauge := some g
          pending := [.withLabels labels, .adjust (-1)] })
      (hg : gv.items.lookup (key labels) = some g)
  | leaving (labels : List String) (g : Nat)
      (h : f =
        { made := [.withLabels labels, .adjust 1, .withLabels labels], gauge := some g
          pending := [.adjust (-1)] })
      (hg : gv.items.lookup (key labels) = some g)
  | ended (labels : List String) (g : Nat)
      (h : f = { made := upAndDown labels, pending := [], gauge := some g })

/-- It stands as well in a vector that has kept the entries of what is unfinished. -/
theorem Stands.of_lookup {gv gv' : GaugeVec} {f : Flow} (h : Stands gv f)
    (hkeep : ∀ labels g, f.made ≠ [] → f.pending ≠ [] → f.labels = some labels →
      gv.items.lookup (key labels) = some g → gv'.items.lookup (key labels) = some g) :
    Stands gv' f := by
  cases h with
  | idle h => exact .idle h
  | waiting labels h => exact .waiting labels h
  | found labels g h hg =>
    subst h
    exact .found labels g rfl (hkeep labels g (by simp) (by simp) rfl hg)
  | counted labels g h hg =>
    subst h
    exact .counted labels g rfl (hkeep labels g (by simp) (by simp) rfl hg)
  | leaving labels g h hg =>
    subst h
    exact .leaving labels g rfl (hkeep labels g (by simp) (by simp) rfl hg)
  | ended labels g h => exact .ended labels g h

/-- What is in flight has its entry in the vector. -/
theorem Stands.lookup_of_inFlightAt {gv : GaugeVec} {f : Flow} (h : Stands gv f) {k : String}
    (hk : f.inFlightAt k = true) : ∃ g, gv.items.lookup k = some g := by
  unfold Flow.inFlightAt at hk
  rw [Bool.and_eq_true, decide_eq_true_eq] at hk
  obtain ⟨hflight, hkey⟩ := hk
  cases h with
  | idle h => subst h; exact nomatch hflight
  | waiting labels h => subst h; exact nomatch hflight
  | found labels g h hg => subst h; exact nomatch hflight
  | counted labels g h hg =>
    subst h
    cases hkey
    exact ⟨g, hg⟩
  | leaving labels g h hg =>
    subst h
    cases hkey
    exact ⟨g, hg⟩
  | ended labels g h => subst h; exact nomatch hflight

structure Board.Tallied (b : Board) : Prop where
  flows : ∀ f ∈ b.flows, Stands b.active f
  counts : ∀ k v, b.active.value k = some v → v = b.inFlight k

/-- Without an entry nothing is in flight. -/
theorem Board.Tallied.inFlight_of_none {b : Board} (h : b.Tallied) {k : String}
    (hk : b.active.items.lookup k = none) : b.inFlight k = 0 := by
  unfold Board.inFlight
  rw [List.countP_eq_zero]
  intro f hf hk'
  obtain ⟨g, hg⟩ := (h.flows f hf).lookup_of_inFlightAt hk'
  exact nomatch hk.symm.trans hg

/-- The count when one activity moves on. -/
theorem inFlight_set (b : Board) {i : Nat} {f : Flow} (hi : b.flows[i]? = some f) (f' : Flow)
    (active : GaugeVec) (k : String) :
    Board.inFlight { active, flows := b.flows.set i f' } k + (if f.inFlightAt k then 1 else 0) =
      b.inFlight k + (if f'.inFlightAt k then 1 else 0) :=
  List.countP_set_add (Flow.inFlightAt k) f' hi

theorem mem_set_flows {flows : List Flow} {i : Nat} {f' x : Flow} (hx : x ∈ flows.set i f') :
    x = f' ∨ x ∈ flows := by
  rcases List.mem_or_eq_of_mem_set hx with h | h
  · exact .inr h
  · exact .inl h

/-! ## Steps -/

/-- `With` keeps the entries that are there. -/
theorem lookup_withLabels_of_some (gv : GaugeVec) (labels : List String) {k : String} {g : Nat}
    (h : gv.items.lookup k = some g) : (gv.withLabels labels).2.items.lookup k = some g := by
  rw [gv.lookup_withLabels]
  split
  · rename_i heq
    rw [heq] at h
    rw [gv.withLabels_of_some h]
  · exact h

theorem advance_withLabels (gv : GaugeVec) (made rest : List GaugeCall) (labels : List String)
    (gauge : Option Nat) :
    Flow.advance gv { made, pending := .withLabels labels :: rest, gauge } =
      ((gv.withLabels labels).2,
        { made := made ++ [.withLabels labels], pending := rest
          gauge := some (gv.withLabels labels).1 }) :=
  rfl

theorem advance_adjust (gv : GaugeVec) (made rest : List GaugeCall) (delta : Int) (g : Nat) :
    Flow.advance gv { made, pending := .adjust delta :: rest, gauge := some g } =
      (gv.adjust g delta, { made := made ++ [.adjust delta], pending := rest, gauge := some g }) :=
  rfl

section Next

variable {b : Board} {i : Nat} {f : Flow}

/-- An activity looks its gauge up. -/
theorem Board.Tallied.lookup (h : b.Tallied) (hi : b.flows[i]? = some f) (labels : List String)
    (f' : Flow) (hsame : ∀ k, f'.inFlightAt k = f.inFlightAt k)
    (hf' : Stands (b.active.withLabels labels).2 f') :
    Board.Tallied { active := (b.active.withLabels labels).2, flows := b.flows.set i f' } := by
  have hcount : ∀ k, Board.inFlight
      { active := (b.active.withLabels labels).2, flows := b.flows.set i f' } k = b.inFlight k := by
    intro k
    have hset := inFlight_set b hi f' (b.active.withLabels labels).2 k
    rw [hsame k] at hset
    omega
  constructor
  · intro x hx
    rcases mem_set_flows hx with rfl | hx
    · exact hf'
    · exact (h.flows x hx).of_lookup fun labels' g _ _ _ hg =>
        lookup_withLabels_of_some b.active labels hg
  · intro k v hv
    dsimp only at hv
    rw [b.active.value_withLabels] at hv
    rw [hcount]
    split at hv
    · rename_i hk
      cases hold : b.active.value k with
      | some v' =>
        rw [hold] at hv
        cases hv
        exact h.counts k _ hold
      | none =>
        rw [hold] at hv
        cases hv
        -- a new entry, for something that nobody has in flight
        have hnone : b.active.items.lookup k = none := by
          have hsome := b.active.valid.deref_isSome k
          rw [show RefMap.deref b.active.items b.active.gauges k = none from hold] at hsome
          exact Option.isNone_iff_eq_none.mp (by simpa using hsome.symm)
        rw [h.inFlight_of_none hnone]
        rfl
    · exact h.counts k v hv

/-- An activity adjusts the gauge of its entry and is in flight from then on, or no
    longer. -/
theorem Board.Tallied.adjust (h : b.Tallied) (hi : b.flows[i]? = some f) {k₀ : String} {g : Nat}
    (hg : b.active.items.lookup k₀ = some g) (delta : Int) (f' : Flow)
    (hdelta : ∀ k, ((if f'.inFlightAt k then 1 else 0 : Nat) : Int) =
      ((if f.inFlightAt k then 1 else 0 : Nat) : Int) + if k = k₀ then delta else 0)
    (hf' : Stands b.active f') :
    Board.Tallied { active := b.active.adjust g delta, flows := b.flows.set i f' } := by
  constructor
  · intro x hx
    have hx' : Stands b.active x := by
      rcases mem_set_flows hx with rfl | hx
      · exact hf'
      · exact h.flows x hx
    exact hx'.of_lookup fun labels g' _ _ _ hg' => hg'
  · intro k v hv
    dsimp only at hv
    rw [b.active.value_adjust] at hv
    have hset := inFlight_set b hi f' (b.active.adjust g delta) k
    have hd := hdelta k
    split at hv
    · rename_i hk
      -- no two entries share a gauge, so it is the activity's own entry that changes
      have hkey : k = k₀ := b.active.injective k k₀ g hk hg
      obtain ⟨v', hv', rfl⟩ := Option.map_eq_some_iff.mp hv
      have hold := h.counts k v' hv'
      rw [if_pos hkey] at hd
      omega
    · rename_i hk
      have hkey : k ≠ k₀ := by
        rintro rfl
        exact hk hg
      have hold := h.counts k v hv
      rw [if_neg hkey] at hd
      omega

/-- The next call of an activity. -/
theorem Board.Tallied.next (h : b.Tallied) (hi : b.flows[i]? = some f) :
    Board.Tallied
      { active := (f.advance b.active).1, flows := b.flows.set i (f.advance b.active).2 } := by
  -- an activity with no calls left stays as it is
  have hrest : f.pending = [] → Board.Tallied
      { active := (f.advance b.active).1, flows := b.flows.set i (f.advance b.active).2 } := by
    intro hpending
    have hsame : f.advance b.active = (b.active, f) := by
      unfold Flow.advance
      rw [hpending]
    have hset : b.flows.set i f = b.flows := by
      obtain ⟨hlt, rfl⟩ := List.getElem?_eq_some_iff.mp hi
      exact List.set_getElem_self hlt
    rw [hsame, hset]
    exact h
  -- from here on the cases are the calls of `upAndDown`, one by one
  cases h.flows f (List.mem_of_getElem? hi) with
  | idle hf => exact hrest (by rw [hf])
  | waiting labels hf =>
    subst hf
    rw [upAndDown, advance_withLabels]
    refine h.lookup hi labels _ (fun k => ?_) (.found labels _ rfl ?_)
    · rfl
    · rw [b.active.lookup_withLabels, if_pos rfl]
  | found labels g hf hg =>
    subst hf
    rw [advance_adjust]
    refine h.adjust hi hg 1 _ (fun k => ?_) (.counted labels g rfl hg)
    by_cases hk : k = key labels
    · simp [Flow.inFlightAt, Flow.inFlight, Flow.labels, GaugeCall.isAdjust, hk]
    · simp [Flow.inFlightAt, Flow.inFlight, Flow.labels, GaugeCall.isAdjust, hk, Ne.symm hk]
  | counted labels g hf hg =>
    subst hf
    rw [advance_withLabels]
    refine h.lookup hi labels _ (fun k => ?_) (.leaving labels _ rfl ?_)
    · rfl
    -- the second lookup finds the same gauge again, since the entry was spared
    · rw [b.active.lookup_withLabels, if_pos rfl]
  | leaving labels g hf hg =>
    subst hf
    rw [advance_adjust]
    refine h.adjust hi hg (-1) _ (fun k => ?_) (.ended labels g rfl)
    by_cases hk : k = key labels
    · simp [Flow.inFlightAt, Flow.inFlight, Flow.labels, GaugeCall.isAdjust, hk]
    · simp [Flow.inFlightAt, Flow.inFlight, Flow.labels, GaugeCall.isAdjust, hk, Ne.symm hk]
  | ended labels g hf => exact hrest (by rw [hf])

end Next

/-- A cleanup for this pool and backend leaves the entries alone that unfinished
    activities have looked up. -/
def Board.Spares (b : Board) (pool backend : String) : Prop :=
  ∀ f ∈ b.flows, f.made ≠ [] → f.pending ≠ [] → ∀ labels ∈ f.labels,
    namesBoth pool backend (key labels) = false

instance (b : Board) (pool backend : String) : Decidable (b.Spares pool backend) :=
  inferInstanceAs (Decidable (∀ f ∈ b.flows, f.made ≠ [] → f.pending ≠ [] →
    ∀ labels ∈ f.labels, namesBoth pool backend (key labels) = false))

theorem Board.Tallied.remove {b : Board} (h : b.Tallied) (pool backend : String)
    (hclean : b.Spares pool backend) :
    Board.Tallied { b with active := b.active.removeByPoolBackend pool backend } := by
  constructor
  · intro f hf
    refine (h.flows f hf).of_lookup fun labels g hmade hpending hlabels hg => ?_
    rw [b.active.lookup_remove, hclean f hf hmade hpending labels hlabels]
    exact hg
  · intro k v hv
    dsimp only at hv
    rw [b.active.value_remove] at hv
    split at hv
    · exact nomatch hv
    · exact h.counts k v hv

/-- Something new begins. -/
theorem Board.Tallied.start {b : Board} (h : b.Tallied) (a : Activity) (ha : a.Once) :
    Board.Tallied (b.step (.start a)) := by
  have hnew : Stands b.active { made := [], pending := gaugeCalls a.calls, gauge := none } := by
    rcases gaugeCalls_of_once a ha with hnone | ⟨labels, hlabels⟩
    · rw [hnone]
      exact .idle rfl
    · rw [hlabels]
      exact .waiting labels rfl
  constructor
  · intro f hf
    rcases List.mem_append.mp hf with hf | hf
    · exact h.flows f hf
    · rw [List.mem_singleton.mp hf]
      exact hnew
  · intro k v hv
    rw [h.counts k v hv]
    simp [Board.inFlight, Board.step, Flow.inFlightAt, Flow.inFlight]

/-- A cleanup is a run of removals. -/
theorem cleanup_eq_removals (heap : Heap) (oldSnap newSnap : Snapshot) (b : Board) :
    { b with active := cleanupRemovedBackends heap oldSnap newSnap b.active } =
      ((removedBackends (extractPoolBackends heap oldSnap) (extractPoolBackends heap newSnap)).map
        fun (pool, addr) => BoardOp.remove pool addr).foldl Board.step b := by
  unfold cleanupRemovedBackends
  induction removedBackends (extractPoolBackends heap oldSnap) (extractPoolBackends heap newSnap)
    generalizing b with
  | nil => rfl
  | cons e rest ih =>
    rw [List.map_cons, List.foldl_cons, List.foldl_cons]
    exact ih (b.step (.remove e.1 e.2))

/-- What a step may do for the gauges to stay right. -/
def Clean (b : Board) : BoardOp → Prop
  | .start a => a.Once
  | .next _ => True
  | .remove pool backend => b.Spares pool backend

theorem Board.Tallied.step {b : Board} (h : b.Tallied) (op : BoardOp) (hclean : Clean b op) :
    (b.step op).Tallied := by
  cases op with
  | start a => exact h.start a hclean
  | next i =>
    cases hi : b.flows[i]? with
    | none =>
      simp only [Board.step, hi]
      exact h
    | some f =>
      simp only [Board.step, hi]
      exact h.next hi
  | remove pool backend => exact h.remove pool backend hclean

theorem newBoard_tallied : newBoard.Tallied where
  flows := nofun
  counts := nofun

/-! ## Runs that break the gauges -/

/-- A UDP listener for the pool `web`. -/
def dnsListener : Config.ListenerConfig := Sample.listener "dns" "0.0.0.0:53" "udp" "web"

/-- A session is under way when a backend is removed. -/
def cleanupDuringSession (pool backend : String) : List BoardOp :=
  [.start (.session dnsListener "10.0.0.1:53"), .next 0, .next 0, .remove pool backend]

/-- A pool whose requests are attempted twice. -/
def retriedPool : PoolState :=
  buildPoolState
    { Sample.pool "web" "10.0.0.1:8080" with
      retry := some
        { maxAttempts := 2, retryBudgetRatio := .fin 1, backoffBase := 100000000
          backoffMax := 1000000000, retryableStatusCodes := [503] } }
    [⟨"10.0.0.1:8080", 1⟩]

/-- The first attempt is answered 503 after eleven seconds, the second 200. -/
def answeredAtLast (attempt : Nat) : AttemptIO :=
  { now := 11000000000, draw := 0, pick := .ok "10.0.0.1:8080"
    result := if attempt = 0 then .ok 503 else .ok 200 }

def retriedRequest : Activity :=
  .request retriedPool { pool := "web", backendLatency := false } none (.ok "10.0.0.1:8080") .absent
    0 answeredAtLast 0

/-- The board after `n` calls of that request. -/
def retriedFor (n : Nat) : Board :=
  (.start retriedRequest :: List.replicate n (.next 0)).foldl Board.step newBoard

end HootLb.Metrics
