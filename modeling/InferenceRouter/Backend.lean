import InferenceRouter.CircuitBreaker.Basic
import Mathlib.Data.Rat.Floor

/-! One backend replica. Its atomics are fields that hold the current value. The
counter of connections wraps, as the atomic does; the streaks of health checks,
of which there is at most one a second, do not get that far. -/
namespace InferenceRouter

abbrev BackendId := Nat

def wordSize : Nat := 2 ^ 64

/-- `fetch_add(1)` on a 64-bit atomic. -/
def fetchAdd (value : Nat) : Nat := (value + 1) % wordSize

/-- `fetch_sub(1)` on a 64-bit atomic. -/
def fetchSub (value : Nat) : Nat := (value + wordSize - 1) % wordSize

theorem fetchAdd_of_lt {value : Nat} (h : value + 1 < wordSize) : fetchAdd value = value + 1 :=
  Nat.mod_eq_of_lt h

theorem fetchSub_of_pos {value : Nat} (hPos : 0 < value) (h : value < wordSize) :
    fetchSub value = value - 1 := by
  unfold fetchSub
  rw [show value + wordSize - 1 = (value - 1) + wordSize by omega, Nat.add_mod_right]
  exact Nat.mod_eq_of_lt (by omega)

structure Backend where
  id : BackendId
  url : String
  weight : Nat
  breaker : CircuitBreaker
  healthy : Bool
  activeConnections : Nat
  /-- EWMA latency in microseconds, 0 before the first sample. -/
  ewmaLatencyUs : Nat
  /-- Queue depth scraped from the backend's `/metrics`. -/
  queueDepth : Nat
  kvCacheUsageBp : Nat
  consecutiveHealthFailures : Nat
  consecutiveHealthSuccesses : Nat

namespace Backend

def new (id : BackendId) (url : String) (weight : Nat) (breaker : CircuitBreaker) : Backend where
  id := id
  url := url
  weight := weight
  breaker := breaker
  healthy := true
  activeConnections := 0
  ewmaLatencyUs := 0
  queueDepth := 0
  kvCacheUsageBp := 0
  consecutiveHealthFailures := 0
  consecutiveHealthSuccesses := 0

/-- As the active checks see it. -/
def isHealthy (self : Backend) : Bool := self.healthy

def markHealthy (self : Backend) : Backend :=
  { self with healthy := true, consecutiveHealthFailures := 0 }

def markUnhealthy (self : Backend) : Backend :=
  { self with healthy := false, consecutiveHealthSuccesses := 0 }

def recordRequestStart (self : Backend) : Backend :=
  { self with activeConnections := fetchAdd self.activeConnections }

def recordRequestEnd (self : Backend) : Backend :=
  { self with activeConnections := fetchSub self.activeConnections }

/-- The next estimate, with the float arithmetic read as exact. -/
def smoothedLatency (old latencyUs : Nat) (alpha : ℚ) : Nat :=
  if old = 0 then latencyUs else ⌊alpha * latencyUs + (1 - alpha) * old⌋₊

def updateEwmaLatency (self : Backend) (latencyUs : Nat) (alpha : ℚ) : Backend :=
  { self with ewmaLatencyUs := smoothedLatency self.ewmaLatencyUs latencyUs alpha }

end Backend

end InferenceRouter
