import HootLb.ForStd.RefMap
import HootLb.Native.Director

/-!
# Metrics

The vector of active connections, the calls that the proxies make on the metric
vectors, `CleanupRemovedBackends`, and the connection counts of the dashboard's
`Feed`.

`With` returns a pointer, and a `Gauge` lives on when its entry is removed from the
vector; gauges are numbers and the vector maps keys to them. The other vectors are
only told apart by name: what matters about them here is under which labels they
are called.
-/

namespace HootLb.Metrics

open Balancer Config HootLb.Runtime HootLb.L7

/-! ## `GaugeVec` -/

/-- `key`: the label values joined by zero bytes. -/
def key (labelValues : List String) : String := "\x00".intercalate labelValues

/-- `strings.Split(k, "\x00")`. -/
def parts (k : String) : List String := (k.toList.splitOn '\x00').map String.ofList

/-- `GaugeVec`, with every gauge it has ever made. Every entry has a gauge of its
    own. -/
structure GaugeVec where
  gauges : List Int
  items : GoMap Nat
  valid : RefMap.Valid items gauges
  injective : RefMap.Injective items

def newGaugeVec : GaugeVec :=
  { gauges := [], items := ∅, valid := RefMap.valid_empty [], injective := RefMap.injective_empty }

/-- `With`. -/
def GaugeVec.withLabels (gv : GaugeVec) (labelValues : List String) : Nat × GaugeVec :=
  match gv.items.lookup (key labelValues) with
  | some g => (g, gv)
  | none =>
    (gv.gauges.length,
      { gauges := gv.gauges ++ [0]
        items := gv.items.insert (key labelValues) gv.gauges.length
        valid := gv.valid.alloc (key labelValues) 0
        injective := gv.injective.alloc gv.valid (key labelValues) })

/-- `Inc` and `Dec` of a gauge. -/
def GaugeVec.adjust (gv : GaugeVec) (g : Nat) (delta : Int) : GaugeVec :=
  { gv with
    gauges := gv.gauges.modify g (· + delta)
    valid := gv.valid.modify g (· + delta) }

/-- `With(labelValues...).Inc()`, and the same with `Dec`. -/
def GaugeVec.count (gv : GaugeVec) (labelValues : List String) (delta : Int) : GaugeVec :=
  let (g, gv) := gv.withLabels labelValues
  gv.adjust g delta

/-- The test of `RemoveByPoolBackend`: both values are among the labels, at any
    position. -/
def namesBoth (pool backend : String) (k : String) : Bool :=
  (parts k).contains pool && (parts k).contains backend

/-- `RemoveByPoolBackend`. -/
def GaugeVec.removeByPoolBackend (gv : GaugeVec) (pool backend : String) : GaugeVec :=
  let keep (k : String) : Bool := !namesBoth pool backend k
  { gv with
    items := RefMap.filterKeys keep gv.items
    valid := gv.valid.filterKeys keep
    injective := gv.injective.filterKeys keep }

/-- The calls `Each` makes, in the order of the keys. -/
def GaugeVec.each (gv : GaugeVec) : List (List String × Int) :=
  ((gv.items.entries.map fun e => (e.1, e.2)).mergeSort fun a b => a.1 ≤ b.1).map
    fun (k, g) => (parts k, gv.gauges.getD g 0)

/-! ## Cleanup -/

/-- `ExtractPoolBackends`, as pairs of a map. -/
def extractPoolBackends (heap : Heap) (s : Snapshot) : List (String × List String) :=
  s.poolStates.entries.map fun e =>
    (e.1, ((heap.pools[e.2]?).map fun ps => ps.servers.map (·.address)).getD [])

/-- The pairs for which `CleanupRemovedBackends` calls `RemoveByPoolBackend`. -/
def removedBackends (oldPools newPools : List (String × List String)) :
    List (String × String) :=
  oldPools.flatMap fun (pool, oldBackends) =>
    -- a pool that is not there any more has no addresses
    let newAddrs := ((newPools.find? fun e => e.1 = pool).map (·.2)).getD []
    (oldBackends.filter fun addr => !newAddrs.contains addr).map fun addr => (pool, addr)

/-- `CleanupRemovedBackends` for one vector. -/
def cleanupRemovedBackends (heap : Heap) (oldSnap newSnap : Snapshot) (gv : GaugeVec) : GaugeVec :=
  (removedBackends (extractPoolBackends heap oldSnap) (extractPoolBackends heap newSnap)).foldl
    (fun gv (pool, addr) => gv.removeByPoolBackend pool addr) gv

/-! ## The dashboard's counts -/

/-- The key of `connCounts`. -/
def rowKey (pool backend : String) : String := pool ++ "\x00" ++ backend

/-- `connCounts` of `Feed.Build`. -/
def connCounts (gv : GaugeVec) : GoMap Int :=
  gv.each.foldl (fun counts (labels, value) =>
    match labels with
    | _ :: pool :: backend :: _ =>
      counts.insert (rowKey pool backend)
        ((counts.lookup (rowKey pool backend)).getD 0 + value)
    | _ => counts) ∅

structure BackendSnapshot where
  address : String
  weight : Int
  healthy : Bool
  draining : Bool
  activeConnections : Int
  deriving DecidableEq

structure PoolSnapshot where
  name : String
  algorithm : String
  backends : List BackendSnapshot
  deriving DecidableEq

/-- `ActiveConnections` of a row. -/
def activeConnections (connActive : Option GaugeVec) (pool backend : String) : Int :=
  match connActive with
  | none => 0
  | some gv => ((connCounts gv).lookup (rowKey pool backend)).getD 0

/-- The pools of `Feed.Build`. -/
def build (pools : List PoolConfig) (heap : Heap) (rs : Snapshot) (connActive : Option GaugeVec) :
    List PoolSnapshot :=
  pools.map fun p =>
    { name := p.name, algorithm := p.algorithm
      backends :=
        match (rs.poolStates.lookup p.name).bind fun ref => heap.pools[ref]? with
        | none => []
        | some state =>
          state.servers.map fun srv =>
            { address := srv.address, weight := srv.weight, healthy := srv.healthy
              draining := srv.draining
              activeConnections := activeConnections connActive p.name srv.address } }

/-! ## What the proxies call -/

/-- The vectors the proxies update. -/
inductive Metric where
  | connectionsTotal
  | connectionsActive
  | requestDuration
  | bytesTransferred
  | dialFailures
  | backendLatency
  deriving DecidableEq

/-- The label names they are registered with. -/
def Metric.labelNames : Metric → List String
  | .connectionsTotal => ["listener", "pool", "backend", "protocol"]
  | .connectionsActive => ["listener", "pool", "backend", "protocol"]
  | .requestDuration => ["listener", "pool", "backend"]
  | .bytesTransferred => ["listener", "pool", "backend", "direction"]
  | .dialFailures => ["listener", "pool", "backend"]
  | .backendLatency => ["pool", "backend"]

/-- A call on the vector of active connections, or on the gauge it returned last. -/
inductive GaugeCall where
  | withLabels (labels : List String)
  | adjust (delta : Int)
  deriving DecidableEq

inductive Call where
  /-- `With(labels...).Add(n)` on a counter -/
  | add (metric : Metric) (labels : List String) (n : Nat)
  /-- `With(labels...).Observe` on a histogram -/
  | observe (metric : Metric) (labels : List String)
  | active (call : GaugeCall)
  deriving DecidableEq

/-- The vector a call is on, and the labels. -/
def Call.labels : Call → Option (Metric × List String)
  | .add metric labels _ => some (metric, labels)
  | .observe metric labels => some (metric, labels)
  | .active (.withLabels labels) => some (.connectionsActive, labels)
  | .active (.adjust _) => none

/-- The value a call gives to the label of that name. -/
def Call.label (name : String) (c : Call) : Option String :=
  c.labels.bind fun (metric, labels) => labels[metric.labelNames.idxOf name]?

/-- The calls on the vector of active connections. -/
def gaugeCalls (calls : List Call) : List GaugeCall :=
  calls.filterMap fun
    | .active call => some call
    | _ => none

/-- `handleConn` of `TCPServer` and of `TLSPassthroughServer` from the `Pick` on.
    `relayed` is how many bytes went each way, if the dial succeeded. The argument
    of the deferred call is evaluated with the `defer`, so the gauge that is
    decremented at the end was looked up at the beginning. -/
def handleConn (cfg : ListenerConfig) (backend : String) (relayed : Option (Nat × Nat)) :
    List Call :=
  let labels := [cfg.name, cfg.pool, backend, "tcp"]
  [.add .connectionsTotal labels 1, .active (.withLabels labels), .active (.adjust 1),
    .active (.withLabels labels)] ++
  (match relayed with
    | none => [.add .dialFailures [cfg.name, cfg.pool, backend] 1]
    | some (sent, received) =>
      [.add .bytesTransferred [cfg.name, cfg.pool, backend, "upstream"] sent,
        .add .bytesTransferred [cfg.name, cfg.pool, backend, "downstream"] received]) ++
  [.active (.adjust (-1))]

/-- A UDP session: counted by `handleDatagram`, which creates it, and discounted by
    the `evictExpired` or `Close` that deletes it from the table. -/
def udpSession (cfg : ListenerConfig) (backend : String) : List Call :=
  let labels := [cfg.name, cfg.pool, backend, "udp"]
  [.add .connectionsTotal labels 1, .active (.withLabels labels), .active (.adjust 1),
    .active (.withLabels labels), .active (.adjust (-1))]

/-- `handleDatagram` when `DialUDP` fails. -/
def udpDialFailure (cfg : ListenerConfig) (backend : String) : List Call :=
  [.add .dialFailures [cfg.name, cfg.pool, backend] 1]

/-- The metric calls behind an effect of the HTTP proxy. -/
def ofEffect : Effect → List Call
  | .connectionsTotal pool addr => [.add .connectionsTotal ["", pool, addr, "http"] 1]
  | .connectionsActive pool addr delta =>
    [.active (.withLabels ["", pool, addr, "http"]), .active (.adjust delta)]
  | .dialFailures pool addr => [.add .dialFailures ["", pool, addr] 1]
  | .backendLatency pool addr => [.observe .backendLatency [pool, addr]]
  | .requestDuration pool addr => [.observe .requestDuration ["", pool, addr]]
  | _ => []

/-- A request from the Director on: what the Director did, the round trip, and
    `closes` calls of `Close` on the body of the response. -/
def httpRequest (directed : List Effect) (ctx : Context) (body : RequestBody) (start : Int)
    (io : Nat → AttemptIO) (closes : Nat) : List Call :=
  let (made, result) := ctx.roundTrip body start io
  let closing :=
    match result with
    | .response _ body => body.closeTimes closes
    | _ => []
  (directed ++ made ++ closing).flatMap ofEffect

/-! ## Interleavings -/

/-- Something that is counted while it lasts. -/
inductive Activity where
  | connection (cfg : ListenerConfig) (backend : String) (relayed : Option (Nat × Nat))
  | session (cfg : ListenerConfig) (backend : String)
  /-- an HTTP request for a pool; the proxy closes the body at least once -/
  | request (ps : PoolState) (m : L7Metrics) (stuck : Option String) (pick : PickResult String)
      (body : RequestBody) (start : Int) (io : Nat → AttemptIO) (closes : Nat)

def Activity.calls : Activity → List Call
  | .connection cfg backend relayed => handleConn cfg backend relayed
  | .session cfg backend => udpSession cfg backend
  | .request ps m stuck pick body start io closes =>
    match director ps (some m) stuck pick with
    | none => []
    | some (directed, ctx) => httpRequest directed ctx body start io (closes + 1)

/-- An activity under way: the calls on the vector it has made and those to come, and
    the gauge it holds. -/
structure Flow where
  made : List GaugeCall
  pending : List GaugeCall
  gauge : Option Nat
  deriving DecidableEq

/-- The vector and everything that updates it. -/
structure Board where
  active : GaugeVec
  flows : List Flow

def newBoard : Board := { active := newGaugeVec, flows := [] }

inductive BoardOp where
  | start (a : Activity)
  /-- the next call of an activity -/
  | next (flow : Nat)
  /-- one `RemoveByPoolBackend` of a cleanup -/
  | remove (pool backend : String)

/-- The next call of a flow. -/
def Flow.advance (gv : GaugeVec) (f : Flow) : GaugeVec × Flow :=
  match f.pending with
  | [] => (gv, f)
  | call :: rest =>
    match call with
    | .withLabels labels =>
      let (g, gv) := gv.withLabels labels
      (gv, { made := f.made ++ [call], pending := rest, gauge := some g })
    | .adjust delta =>
      match f.gauge with
      | none => (gv, f)
      | some g =>
        (gv.adjust g delta, { f with made := f.made ++ [call], pending := rest })

/-- A step. An activity that has nothing left to do does nothing. -/
def Board.step (b : Board) : BoardOp → Board
  | .start a =>
    { b with flows := b.flows ++ [{ made := [], pending := gaugeCalls a.calls, gauge := none }] }
  | .next flow =>
    match b.flows[flow]? with
    | none => b
    | some f =>
      let (active, f) := f.advance b.active
      { active, flows := b.flows.set flow f }
  | .remove pool backend => { b with active := b.active.removeByPoolBackend pool backend }

end HootLb.Metrics
