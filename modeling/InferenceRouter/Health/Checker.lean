import InferenceRouter.Accounting.Basic
import InferenceRouter.Config
import InferenceRouter.Health.Metrics
import InferenceRouter.Semantics.Hysteresis

/-! Active health checking. The probes drive a switch with hysteresis, and what
was scraped last is kept only while it may still be true. -/
namespace InferenceRouter

open Semantics

/-- What the two requests of one check come to. A request without a response has
no status, a body that cannot be read is no text. -/
structure Check where
  health : Option StatusCode
  metrics : Option (StatusCode × Option String)

namespace Backend

/-- Hysteresis: `unhealthy_threshold` consecutive failures mark down,
`healthy_threshold` consecutive successes mark up. -/
def applyProbeResult (config : HealthCheckConfig) (self : Backend) (healthy : Bool) : Backend :=
  if healthy then
    let streak := self.consecutiveHealthSuccesses + 1
    let self := { self with consecutiveHealthSuccesses := streak, consecutiveHealthFailures := 0 }
    if config.healthyThreshold.toNat ≤ streak && !self.isHealthy then self.markHealthy else self
  else
    let streak := self.consecutiveHealthFailures + 1
    let self := { self with consecutiveHealthFailures := streak, consecutiveHealthSuccesses := 0 }
    if config.unhealthyThreshold.toNat ≤ streak && self.isHealthy then self.markUnhealthy else self

/-- Returns whether the backend should be scraped. Scraped values are cleared only
once the backend is actually marked unhealthy. -/
def recordProbe (config : HealthCheckConfig) (self : Backend) (healthy : Bool) : Bool × Backend :=
  let self := self.applyProbeResult config healthy
  (healthy, if !healthy && !self.isHealthy then self.resetScraped else self)

def checkOne (config : HealthCheckConfig) (self : Backend) (check : Check) : Backend :=
  let healthy := check.health.elim false StatusCode.isSuccess
  let (passed, self) := self.recordProbe config healthy
  if !passed then self
  else
    match check.metrics with
    | some (status, body) =>
        if status.isSuccess then
          match body with
          | some text => self.applyScrape text
          | none => self.resetScraped
        else self.resetScraped
    | none => self.resetScraped

/-- The health of a backend as a switch. -/
def switch (self : Backend) : Switch where
  on := self.healthy
  goods := self.consecutiveHealthSuccesses
  bads := self.consecutiveHealthFailures

/-- A probe result moves the switch, and nothing else. What `markHealthy` and
`markUnhealthy` write to the counters is there already. -/
theorem applyProbeResult_eq (config : HealthCheckConfig) (self : Backend) (healthy : Bool) :
    let switch := self.switch.observe config.healthyThreshold.toNat config.unhealthyThreshold.toNat healthy
    self.applyProbeResult config healthy =
      { self with
        healthy := switch.on
        consecutiveHealthSuccesses := switch.goods
        consecutiveHealthFailures := switch.bads } := by
  obtain ⟨id, url, weight, breaker, on, active, ewma, queueDepth, kv, failures, successes⟩ := self
  cases healthy with
  | true =>
      cases on <;> by_cases hUp : config.healthyThreshold.toNat ≤ successes + 1 <;>
        simp [applyProbeResult, switch, Switch.observe, isHealthy, markHealthy, hUp]
  | false =>
      cases on <;> by_cases hDown : config.unhealthyThreshold.toNat ≤ failures + 1 <;>
        simp [applyProbeResult, switch, Switch.observe, isHealthy, markUnhealthy, hDown]

theorem applyProbeResult_switch (config : HealthCheckConfig) (self : Backend) (healthy : Bool) :
    (self.applyProbeResult config healthy).switch =
      self.switch.observe config.healthyThreshold.toNat config.unhealthyThreshold.toNat healthy := by
  rw [applyProbeResult_eq]
  rfl

/-- A whole history of probe results is a run of the switch. -/
theorem foldl_applyProbeResult_switch (config : HealthCheckConfig) (id : BackendId) (url : String)
    (weight : Nat) (breaker : CircuitBreaker) (history : List Bool) :
    (history.foldl (applyProbeResult config) (new id url weight breaker)).switch =
      .run config.healthyThreshold.toNat config.unhealthyThreshold.toNat history := by
  induction history using List.reverseRecOn with
  | nil => rfl
  | append_singleton history healthy ih =>
      rw [List.foldl_append, List.foldl_cons, List.foldl_nil, applyProbeResult_switch, ih, Switch.run_concat]

/-- After any probe results, a backend that was new is unhealthy exactly if at some
point the failures in a row were enough and the successes in a row since then were
not, and its counters are the two runs at the end. -/
theorem hysteresis (config : HealthCheckConfig) (id : BackendId) (url : String) (weight : Nat)
    (breaker : CircuitBreaker) (history : List Bool) :
    let u := max config.unhealthyThreshold.toNat 1
    let h := max config.healthyThreshold.toNat 1
    let self := history.foldl (applyProbeResult config) (new id url weight breaker)
    (self.isHealthy = false ↔ ∃ before after, history = before ++ after ∧
      List.replicate u false <:+ before ∧ ¬List.replicate h true <:+: after) ∧
    self.consecutiveHealthSuccesses = trailing true history ∧
    self.consecutiveHealthFailures = trailing false history ∧
    (self.consecutiveHealthSuccesses = 0 ∨ self.consecutiveHealthFailures = 0) := by
  intro u h self
  have hSwitch : self.switch = .run _ _ history :=
    foldl_applyProbeResult_switch config id url weight breaker history
  obtain ⟨hGoods, hBads⟩ := Switch.run_counts config.healthyThreshold.toNat config.unhealthyThreshold.toNat history
  rw [← hSwitch] at hGoods hBads
  have hSuccesses : self.consecutiveHealthSuccesses = trailing true history := hGoods
  have hFailures : self.consecutiveHealthFailures = trailing false history := hBads
  refine ⟨?_, hSuccesses, hFailures, ?_⟩
  · have hOff := Switch.run_on_eq_false_iff config.healthyThreshold.toNat config.unhealthyThreshold.toNat history
    rw [← hSwitch] at hOff
    exact hOff
  · rw [hSuccesses, hFailures]
    exact trailing_eq_zero_or Bool.false_ne_true.symm history

end Backend

end InferenceRouter
