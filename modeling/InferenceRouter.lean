import InferenceRouter.Semantics.Run
import InferenceRouter.Semantics.Interleaving
import InferenceRouter.Semantics.SlidingWindow
import InferenceRouter.Semantics.Population
import InferenceRouter.Semantics.CyclicSearch
import InferenceRouter.Semantics.Hysteresis
import InferenceRouter.Semantics.Threads
import InferenceRouter.Semantics.Tickets
import InferenceRouter.Semantics.LostUpdates
import InferenceRouter.Semantics.WeightedChoice
import InferenceRouter.Semantics.Family
import InferenceRouter.Semantics.Ranking
import InferenceRouter.Semantics.Lru
import InferenceRouter.Semantics.FairSemaphore
import InferenceRouter.Semantics.ExponentialAverage
import InferenceRouter.CircuitBreaker.Basic
import InferenceRouter.CircuitBreaker.Control
import InferenceRouter.CircuitBreaker.WindowRefinement
import InferenceRouter.CircuitBreaker.Session
import InferenceRouter.CircuitBreaker.OpenPeriod
import InferenceRouter.CircuitBreaker.StaleVerdicts
import InferenceRouter.CircuitBreaker.Observers
import InferenceRouter.CircuitBreaker.FailingBackend
import InferenceRouter.CircuitBreaker.Accountable
import InferenceRouter.CircuitBreaker.Tolerance
import InferenceRouter.Text
import InferenceRouter.F64
import InferenceRouter.Backend
import InferenceRouter.Backpressure
import InferenceRouter.Routing.Basic
import InferenceRouter.Routing.Ring
import InferenceRouter.Routing.RingSuccessor
import InferenceRouter.Routing.PrefixCache
import InferenceRouter.Routing.Conversation
import InferenceRouter.Routing.RoundRobin
import InferenceRouter.Routing.LatencyAware
import InferenceRouter.Routing.Strategy
import InferenceRouter.Routing.Fairness
import InferenceRouter.Routing.LatencyShares
import InferenceRouter.Config
import InferenceRouter.Routing.ConfiguredAffinity
import InferenceRouter.LatencyEstimate
import InferenceRouter.LatencyAverage
import InferenceRouter.Benchmark.RateLimiter
import InferenceRouter.Benchmark.LoadTest
import InferenceRouter.Benchmark.Results
import InferenceRouter.Benchmark.InFlight
import InferenceRouter.Health.Metrics
import InferenceRouter.Health.Exposition
import InferenceRouter.MockBackend.PrefixCache
import InferenceRouter.MockBackend.Server
import InferenceRouter.MockBackend.Slots
import InferenceRouter.MockBackend.Drain
import InferenceRouter.MockBackend.Totals
import InferenceRouter.MockBackend.Exposition
import InferenceRouter.MockBackend.Locality
import InferenceRouter.Health.Checker
import InferenceRouter.Health.Staleness
import InferenceRouter.Health.Rounds
import InferenceRouter.Routing.LeastLoad
import InferenceRouter.Accounting.Basic
import InferenceRouter.Metrics
import InferenceRouter.Accounting.ProbeExclusivity
import InferenceRouter.Accounting.Stream
import InferenceRouter.Accounting.StreamContract
import InferenceRouter.Accounting.DoneMarker
import InferenceRouter.Proxy
import InferenceRouter.Server.Handler
import InferenceRouter.Server.AccountedOnce
import InferenceRouter.Server.Conservation
import InferenceRouter.Server.Reaction
import InferenceRouter.Server.Counters
import InferenceRouter.Server.Series
import InferenceRouter.Server.Relay
import InferenceRouter.Server.MetricsHandler
import InferenceRouter.Server.ProbeServerError
import InferenceRouter.Server.SelectBackend
import InferenceRouter.Server.Selection
import InferenceRouter.Server.SelectionSound
import InferenceRouter.Server.SelectionAvailable
import InferenceRouter.Server.Failover
import InferenceRouter.Server.Probes
import InferenceRouter.App
import InferenceRouter.Server.LiveRouter
import InferenceRouter.Server.ProbesHeld
import InferenceRouter.Server.Recovery
