import HootLb.Native.Histogram
import HootLb.Native.Metrics

/-!
# Metric vectors

`CounterVec`, `GaugeVec` and `HistogramVec` have the same code for everything but
the operations of their items; `Vec` is any of them. What an item is worth stands
in the map itself, since nothing here holds on to an item that is removed; where
pointers matter, `GaugeVec` of the module on metrics has them.

The vectors that `run` registers, with their labels, and `CleanupRemovedBackends`
on all of them.
-/

namespace HootLb.Metrics

open HootLb.Runtime

variable {ν : Type}

/-- A vector of counters, gauges or histograms. -/
structure Vec (ν : Type) where
  labels : List String
  items : GoMap ν

/-- `NewCounterVec`, `NewGaugeVec` and `NewHistogramVec`. -/
def newVec (labels : List String) : Vec ν := { labels, items := ∅ }

/-- `With` followed by an operation on the item; `zero` is a new item. -/
def Vec.update (zero : ν) (vec : Vec ν) (labelValues : List String) (op : ν → ν) : Vec ν :=
  let item := (vec.items.lookup (key labelValues)).getD zero
  { vec with items := vec.items.insert (key labelValues) (op item) }

/-- `RemoveByPoolBackend`. -/
def Vec.removeByPoolBackend (vec : Vec ν) (pool backend : String) : Vec ν :=
  { vec with items := RefMap.filterKeys (fun k => !namesBoth pool backend k) vec.items }

/-- The calls `Each` makes, in the order of the keys. -/
def Vec.each (vec : Vec ν) : List (List String × ν) :=
  ((vec.items.entries.map fun e => (e.1, e.2)).mergeSort fun a b => a.1 ≤ b.1).map
    fun e => (parts e.1, e.2)

/-! ## The vectors of `run` -/

/-- `MetricVecs`. -/
structure MetricVecs (β : Type) [LinearOrder β] where
  gaugeVecs : List (Vec Int)
  counterVecs : List (Vec Nat)
  histogramVecs : List (Vec (Histogram β))

/-- The vectors `run` hands to the cleanup, when they are new. -/
def newMetricVecs (β : Type) [LinearOrder β] : MetricVecs β :=
  { gaugeVecs :=
      [newVec Metric.connectionsActive.labelNames,
        -- lb_backend_healthy
        newVec ["pool", "backend"]]
    counterVecs :=
      [newVec Metric.connectionsTotal.labelNames, newVec Metric.bytesTransferred.labelNames,
        newVec Metric.dialFailures.labelNames]
    histogramVecs :=
      [newVec Metric.requestDuration.labelNames, newVec Metric.backendLatency.labelNames,
        -- lb_tls_handshake_duration_seconds
        newVec ["listener"],
        -- lb_health_check_duration_seconds
        newVec ["pool", "backend"],
        -- lb_connection_duration_seconds
        newVec ["listener", "pool", "backend", "protocol"]] }

section

variable {β : Type} [LinearOrder β]

/-- The inner loops of `CleanupRemovedBackends`, over the vectors. -/
def MetricVecs.removeByPoolBackend (mv : MetricVecs β) (pool addr : String) : MetricVecs β :=
  { gaugeVecs := mv.gaugeVecs.map fun gv => gv.removeByPoolBackend pool addr
    counterVecs := mv.counterVecs.map fun cv => cv.removeByPoolBackend pool addr
    histogramVecs := mv.histogramVecs.map fun hv => hv.removeByPoolBackend pool addr }

/-- `CleanupRemovedBackends`, when there are vectors. -/
def MetricVecs.cleanupRemovedBackends (heap : Heap) (oldSnap newSnap : Snapshot)
    (mv : MetricVecs β) : MetricVecs β :=
  (removedBackends (extractPoolBackends heap oldSnap) (extractPoolBackends heap newSnap)).foldl
    (fun mv e => mv.removeByPoolBackend e.1 e.2) mv

end

end HootLb.Metrics
