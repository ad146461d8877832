import InferenceRouter.Accounting.Basic
import InferenceRouter.Semantics.Family

/-! The metrics that the router exports. Counters count in `Nat`, durations are
in nanoseconds, and of a histogram the buckets are left out. -/
namespace InferenceRouter

open Semantics

structure RequestLabels where
  strategy : String
  backend : String
  status : String
  deriving DecidableEq, Repr

structure BackendLabels where
  backend : String
  deriving DecidableEq, Repr

structure RejectLabels where
  reason : String
  deriving DecidableEq, Repr

structure Histogram where
  sum : Nat
  count : Nat
  deriving DecidableEq, Repr, Inhabited

def Histogram.observe (self : Histogram) (value : Nat) : Histogram where
  sum := self.sum + value
  count := self.count + 1

structure RouterMetrics where
  requestsTotal : Family RequestLabels Nat
  requestDuration : Family BackendLabels Histogram
  activeConnections : Family BackendLabels Int
  circuitBreakerState : Family BackendLabels Int
  backendHealth : Family BackendLabels Int
  backendQueueDepth : Family BackendLabels Int
  backendKvCacheUsage : Family BackendLabels ℚ
  rejectedRequests : Family RejectLabels Nat
  inFlight : Int

namespace RouterMetrics

def new : RouterMetrics where
  requestsTotal := ∅
  requestDuration := ∅
  activeConnections := ∅
  circuitBreakerState := ∅
  backendHealth := ∅
  backendQueueDepth := ∅
  backendKvCacheUsage := ∅
  rejectedRequests := ∅
  inFlight := 0

/-- One observation of `router_request_duration_seconds`. -/
def observeDuration (self : RouterMetrics) (backendUrl : String) (elapsed : Nat) : RouterMetrics :=
  { self with requestDuration := self.requestDuration.update ⟨backendUrl⟩ fun h => h.observe elapsed }

/-- One increment of `router_requests_total`. -/
def incRequests (self : RouterMetrics) (labels : RequestLabels) : RouterMetrics :=
  { self with requestsTotal := self.requestsTotal.update labels (· + 1) }

/-- One increment of `router_rejected_requests_total`. -/
def incRejected (self : RouterMetrics) (reason : String) : RouterMetrics :=
  { self with rejectedRequests := self.rejectedRequests.update ⟨reason⟩ (· + 1) }

/-- What an effect does to the metrics. A backend is known by its URL here. -/
def record (url : BackendId → String) (self : RouterMetrics) : Effect → RouterMetrics
  | .observeDuration backend elapsed => self.observeDuration (url backend) elapsed
  | .incRequests strategy backend status => self.incRequests ⟨strategy, url backend, status⟩
  | .incRejected reason => self.incRejected reason
  | _ => self

end RouterMetrics

end InferenceRouter
