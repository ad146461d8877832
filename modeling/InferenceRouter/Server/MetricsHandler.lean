import InferenceRouter.Server.Counters
import InferenceRouter.Server.SelectBackend

/-! The handler of `/metrics`. It sets the gauges from the pool and the limiter
before it encodes them, one load or one store at a time, and anything but another
scrape may come in between. The encoding is left out, and the float of the cache
usage is read as exact. -/
namespace InferenceRouter

open Semantics Program

/-- `as i64` of an unsigned 64-bit integer. -/
@[irreducible] def asI64 (value : Nat) : Int := Int.bmod value wordSize

/-- The gauges with a series for each backend. -/
inductive Gauge where
  | activeConnections
  | backendHealth
  | circuitBreakerState
  | backendQueueDepth
  | backendKvCacheUsage
  deriving DecidableEq

namespace Gauge

/-- In the order in which the handler sets them. -/
def all : List Gauge :=
  [.activeConnections, .backendHealth, .circuitBreakerState, .backendQueueDepth, .backendKvCacheUsage]

abbrev Value : Gauge → Type
  | .backendKvCacheUsage => ℚ
  | _ => Int

/-- What the handler reads from a backend. Its breaker is asked at `now`. -/
def load (backend : Backend) (now : Nat) : (gauge : Gauge) → gauge.Value × Backend
  | .activeConnections => (asI64 backend.activeConnections, backend)
  | .backendHealth => (if backend.isHealthy then 1 else 0, backend)
  | .circuitBreakerState =>
      let (state, breaker) := backend.breaker.state now
      (asI64 state.asU64, { backend with breaker })
  | .backendQueueDepth => (asI64 backend.queueDepth, backend)
  | .backendKvCacheUsage => ((backend.kvCacheUsageBp : ℚ) / 10000, backend)

theorem load_activeConnections (gauge : Gauge) (backend : Backend) (now : Nat) :
    (gauge.load backend now).2.activeConnections = backend.activeConnections := by
  cases gauge <;> rfl

end Gauge

namespace RouterMetrics

def gauge (self : RouterMetrics) (labels : BackendLabels) : (gauge : Gauge) → gauge.Value
  | .activeConnections => self.activeConnections.get labels
  | .backendHealth => self.backendHealth.get labels
  | .circuitBreakerState => self.circuitBreakerState.get labels
  | .backendQueueDepth => self.backendQueueDepth.get labels
  | .backendKvCacheUsage => self.backendKvCacheUsage.get labels

def setGauge (self : RouterMetrics) (labels : BackendLabels) : (gauge : Gauge) → gauge.Value → RouterMetrics
  | .activeConnections, value =>
      { self with activeConnections := self.activeConnections.update labels fun _ => value }
  | .backendHealth, value => { self with backendHealth := self.backendHealth.update labels fun _ => value }
  | .circuitBreakerState, value =>
      { self with circuitBreakerState := self.circuitBreakerState.update labels fun _ => value }
  | .backendQueueDepth, value =>
      { self with backendQueueDepth := self.backendQueueDepth.update labels fun _ => value }
  | .backendKvCacheUsage, value =>
      { self with backendKvCacheUsage := self.backendKvCacheUsage.update labels fun _ => value }

def setInFlight (self : RouterMetrics) (value : Int) : RouterMetrics := { self with inFlight := value }

variable (self : RouterMetrics) (labels : BackendLabels)

end RouterMetrics

/-- What a scrape does to shared objects. -/
inductive ScrapeOp where
  | load (gauge : Gauge) (backend : BackendId)
  | set (labels : BackendLabels) (gauge : Gauge) (value : gauge.Value)
  | loadInFlight
  | setInFlight (value : Int)

abbrev ScrapeOp.Answer : ScrapeOp → Type
  | .load gauge _ => gauge.Value
  | .set _ _ _ => Unit
  | .loadInFlight => Nat
  | .setInFlight _ => Unit

namespace MeteredRouter

/-- Do one operation. Only the one that asks a breaker reads the clock. -/
def perform (now : Nat) (self : MeteredRouter) : (op : ScrapeOp) → op.Answer × MeteredRouter
  | .load gauge b =>
      let (value, backend) := gauge.load (self.router.backends b) now
      (value, { self with router := self.router.updateBackend b fun _ => backend })
  | .set labels gauge value => ((), { self with metrics := self.metrics.setGauge labels gauge value })
  | .loadInFlight => (self.router.backpressure.inFlight, self)
  | .setInFlight value => ((), { self with metrics := self.metrics.setInFlight value })

/-- An operation, done at some time. -/
def Performs (s : MeteredRouter) (op : ScrapeOp) (answer : op.Answer) (t : MeteredRouter) : Prop :=
  ∃ now, s.perform now op = (answer, t)

theorem performs_perform (now : Nat) (self : MeteredRouter) (op : ScrapeOp) :
    Performs self op (self.perform now op).1 (self.perform now op).2 := ⟨now, rfl⟩

/-- What others do between two operations of a scrape. Another scrape, which alone
would set gauges, is none of them. -/
def Others (app : AppState) (s : MeteredRouter) (action : RouterAction) (t : MeteredRouter) : Prop :=
  t = (s.act app action).2

end MeteredRouter

/-- The operation sets no gauge, or another one, or under other labels. -/
def ScrapeOp.Spares (labels : BackendLabels) (gauge : Gauge) : ScrapeOp → Prop
  | .set otherLabels other _ => other ≠ gauge ∨ otherLabels ≠ labels
  | _ => True

section Gauges

variable {app : AppState} {Steps : MeteredRouter → RouterAction → MeteredRouter → Prop}
  {s t : MeteredRouter} {accesses : ScrapeAccesses} {labels : BackendLabels} {gauge : Gauge}

variable (hSteps : ∀ s action t, Steps s action t → MeteredRouter.Others app s action t)
include hSteps

end Gauges

namespace Router

end Router

namespace MeteredRouter

/-- The counters are what the requests hold, within the limit of the router. -/
structure Within (maxInFlight : Nat) (s : MeteredRouter) : Prop where
  balanced : s.router.Balanced
  limit : s.router.backpressure.maxInFlight = maxInFlight

variable {app : AppState} {maxInFlight : Nat} {s t : MeteredRouter} {op : ScrapeOp} {answer : op.Answer}

/-- A scrape takes no slot and no connection, and gives none back. -/
theorem Performs.keeps (h : Performs s op answer t) :
    t.router.backpressure = s.router.backpressure ∧ t.router.requests = s.router.requests ∧
      ∀ b, (t.router.backends b).activeConnections = (s.router.backends b).activeConnections := by
  obtain ⟨now, hPerform⟩ := h
  obtain rfl : (s.perform now op).2 = t := congrArg Prod.snd hPerform
  cases op with
  | load gauge backend =>
      refine ⟨rfl, rfl, fun b => ?_⟩
      by_cases hSame : b = backend
      · subst hSame
        simp [perform, Router.updateBackend, Gauge.load_activeConnections]
      · simp [perform, Router.updateBackend, hSame]
  | set | loadInFlight | setInFlight => exact ⟨rfl, rfl, fun _ => rfl⟩

theorem Within.perform (h : Within maxInFlight s) (hPerforms : Performs s op answer t) : Within maxInFlight t := by
  obtain ⟨hLimiter, hRequests, hActive⟩ := hPerforms.keeps
  obtain ⟨⟨hInFlight, hBounded, hConnections, hOrderly⟩, hLimit⟩ := h
  rw [← hRequests] at hInFlight hOrderly
  rw [← hLimiter] at hInFlight hBounded hLimit
  refine ⟨⟨hInFlight, hBounded, fun b => ?_, hOrderly⟩, hLimit⟩
  rw [hActive, hRequests]
  exact hConnections b

end MeteredRouter

section Scrape

variable {app : AppState} {maxInFlight : Nat} {Steps : MeteredRouter → RouterAction → MeteredRouter → Prop}
  {s t : MeteredRouter} {accesses : ScrapeAccesses}

/-- What others do keeps the router within its limit. -/
theorem MeteredRouter.Within.others (hSteps : ∀ s action t, Steps s action t → MeteredRouter.Others app s action t)
    {action : RouterAction} (h : s.Within maxInFlight) (hStep : Steps s action t) : t.Within maxInFlight := by
  rw [hSteps s action t hStep]
  exact ⟨(h.balanced.act app action).1, (Router.act_maxInFlight ..).trans h.limit⟩

end Scrape

namespace MeteredRouter

end MeteredRouter

end InferenceRouter
