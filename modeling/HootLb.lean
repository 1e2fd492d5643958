import HootLb.ForStd.AtomicCell
import HootLb.ForStd.BigEndian
import HootLb.ForStd.ByteStream
import HootLb.ForStd.DoneChan
import HootLb.ForStd.ExceptRules
import HootLb.ForStd.Lifecycle
import HootLb.ForStd.List
import HootLb.ForStd.Percent
import HootLb.ForStd.PromText
import HootLb.ForStd.Reader
import HootLb.ForStd.RefMap
import HootLb.ForStd.Search
import HootLb.ForStd.Semaphore
import HootLb.ForStd.SmoothSchedule
import HootLb.ForStd.TokenBucket
import HootLb.ForStd.Trace
import HootLb.ForStd.Unwinding
import HootLb.ForStd.WaitGroup
import HootLb.ForStd.WeightedSlots
import HootLb.ForStd.WrappedScan
import HootLb.Native.Admin
import HootLb.Native.AdminPaths
import HootLb.Native.Balancer
import HootLb.Native.Breaker
import HootLb.Native.ClientHello
import HootLb.Native.Concurrent
import HootLb.Native.Config
import HootLb.Native.ConnLimit
import HootLb.Native.Dashboard
import HootLb.Native.Director
import HootLb.Native.Exposition
import HootLb.Native.GoString
import HootLb.Native.Histogram
import HootLb.Native.Metrics
import HootLb.Native.Passthrough
import HootLb.Native.PoolState
import HootLb.Native.RateLimit
import HootLb.Native.Rbac
import HootLb.Native.Relay
import HootLb.Native.Restart
import HootLb.Native.Retry
import HootLb.Native.Routing
import HootLb.Native.Shutdown
import HootLb.Native.Snapshot
import HootLb.Native.StopFunctions
import HootLb.Native.Store
import HootLb.Native.System
import HootLb.Native.TcpConn
import HootLb.Native.Transport
import HootLb.Native.Udp
import HootLb.Native.Validate
import HootLb.Native.Vectors
import HootLb.Native.Watcher
import HootLb.Native.WebSocket
import HootLb.Native.Yaml
import HootLb.Spec.ActiveGauges
import HootLb.Spec.AdminAddressing
import HootLb.Spec.Backoff
import HootLb.Spec.BalancerSound
import HootLb.Spec.BreakerMachine
import HootLb.Spec.BreakerRecovery
import HootLb.Spec.CardinalityCleanup
import HootLb.Spec.CheckerLifecycle
import HootLb.Spec.ClientHelloAccepted
import HootLb.Spec.ClientHelloSound
import HootLb.Spec.ClientHelloWire
import HootLb.Spec.ClientIsolation
import HootLb.Spec.CloseOnce
import HootLb.Spec.ConnLimit
import HootLb.Spec.ConnTable
import HootLb.Spec.DashboardClose
import HootLb.Spec.DirectorSound
import HootLb.Spec.Discovery
import HootLb.Spec.ExpositionText
import HootLb.Spec.FailureExclusion
import HootLb.Spec.ForwardedHeaders
import HootLb.Spec.FrameSync
import HootLb.Spec.GaugeVectors
import HootLb.Spec.Generations
import HootLb.Spec.HandoffMap
import HootLb.Spec.HashRemoval
import HootLb.Spec.HistogramCounts
import HootLb.Spec.HopByHop
import HootLb.Spec.Hysteresis
import HootLb.Spec.IdleEviction
import HootLb.Spec.IdleTicks
import HootLb.Spec.ListenerDiff
import HootLb.Spec.Membership
import HootLb.Spec.PartialUpdate
import HootLb.Spec.PickComplete
import HootLb.Spec.PoolLabels
import HootLb.Spec.PoolValidity
import HootLb.Spec.ProbeVerdict
import HootLb.Spec.QuotedItems
import HootLb.Spec.RateBound
import HootLb.Spec.RbacCoverage
import HootLb.Spec.RelayDelivery
import HootLb.Spec.RelayIdle
import HootLb.Spec.RelayReplay
import HootLb.Spec.ReloadAtomicity
import HootLb.Spec.ReloadedSettings
import HootLb.Spec.Replay
import HootLb.Spec.RequestMetrics
import HootLb.Spec.RetryBooking
import HootLb.Spec.RetryBudget
import HootLb.Spec.RetryRun
import HootLb.Spec.Roster
import HootLb.Spec.RouteMatch
import HootLb.Spec.RouteTable
import HootLb.Spec.RoutingReload
import HootLb.Spec.Serializable
import HootLb.Spec.ShutdownDrains
import HootLb.Spec.SmoothWeights
import HootLb.Spec.StickySessions
import HootLb.Spec.StoreView
import HootLb.Spec.Successor
import HootLb.Spec.TcpAccounting
import HootLb.Spec.TransportBalance
import HootLb.Spec.UdpAccounting
import HootLb.Spec.UdpLiveness
import HootLb.Spec.ValidateSound
import HootLb.Spec.View
import HootLb.Spec.WeightedDraws
import HootLb.Spec.YamlComments
import HootLb.Spec.YamlContext
import HootLb.Spec.YamlLines
import HootLb.Spec.YamlProgress
import HootLb.Spec.YamlRender
