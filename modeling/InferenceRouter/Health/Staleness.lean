import InferenceRouter.Health.Checker

/-! How old a scraped value can be. A value that is not zero comes from the last
check that passed, and there have been too few failures since to mark down. -/
namespace InferenceRouter

open Semantics

namespace Check

/-- The probe got a response of success. -/
def passed (self : Check) : Bool := self.health.elim false StatusCode.isSuccess

/-- The text that a check scrapes, if its probe passes and the scrape works. -/
def scraped (self : Check) : Option String :=
  if self.passed then
    self.metrics.bind fun (status, body) => if status.isSuccess then body else none
  else none

end Check

namespace Backend

variable {config : HealthCheckConfig} {self : Backend} {check : Check}

theorem checkOne_passed (h : check.passed = true) :
    self.checkOne config check =
      check.scraped.elim (self.applyProbeResult config true).resetScraped
        (self.applyProbeResult config true).applyScrape := by
  obtain ⟨health, metrics⟩ := check
  have hHealthy : health.elim false StatusCode.isSuccess = true := h
  simp only [checkOne, recordProbe, hHealthy, Check.scraped, h, if_true, Bool.not_true, Bool.false_and,
    Bool.false_eq_true, if_false]
  cases metrics with
  | none => rfl
  | some response =>
      obtain ⟨status, body⟩ := response
      cases hStatus : status.isSuccess <;> cases body <;> simp [hStatus]

theorem checkOne_failed (h : check.passed = false) :
    self.checkOne config check =
      if (self.applyProbeResult config false).isHealthy then self.applyProbeResult config false
      else (self.applyProbeResult config false).resetScraped := by
  have hHealthy : check.health.elim false StatusCode.isSuccess = false := h
  simp only [checkOne, recordProbe, hHealthy, Bool.not_false, Bool.true_and, if_true]
  cases (self.applyProbeResult config false).isHealthy <;> rfl

/-- A failure that leaves the backend up is one too few. -/
theorem failures_lt_of_isHealthy (h : (self.applyProbeResult config false).isHealthy = true) :
    self.consecutiveHealthFailures + 1 < config.unhealthyThreshold.toNat := by
  rw [applyProbeResult_eq] at h
  have hOn : (self.healthy && !decide (config.unhealthyThreshold.toNat ≤ self.consecutiveHealthFailures + 1)) =
      true := h
  simp only [Bool.and_eq_true, Bool.not_eq_true', decide_eq_false_iff_not, not_le] at hOn
  exact hOn.2

/-- One of the two values that a scrape writes: how it is stored, and how a body
reports it. -/
structure ScrapedValue where
  stored : Backend → Nat
  reported : String → Nat
  of_applyScrape (self : Backend) (text : String) : stored (self.applyScrape text) = reported text
  of_resetScraped (self : Backend) : stored self.resetScraped = 0
  of_applyProbeResult (config : HealthCheckConfig) (self : Backend) (healthy : Bool) :
    stored (self.applyProbeResult config healthy) = stored self
  of_new (id : BackendId) (url : String) (weight : Nat) (breaker : CircuitBreaker) :
    stored (new id url weight breaker) = 0

namespace ScrapedValue

def queueDepth : ScrapedValue where
  stored := Backend.queueDepth
  reported text := (reportedQueue text).toU64
  of_applyScrape self text := by rw [applyScrape_eq]
  of_resetScraped _ := rfl
  of_applyProbeResult config self healthy := by rw [applyProbeResult_eq]
  of_new _ _ _ _ := rfl

def kvCacheUsageBp : ScrapedValue where
  stored := Backend.kvCacheUsageBp
  reported text := ((reportedKv text).scale 10000).toU64
  of_applyScrape self text := by rw [applyScrape_eq]
  of_resetScraped _ := rfl
  of_applyProbeResult config self healthy := by rw [applyProbeResult_eq]
  of_new _ _ _ _ := rfl

/-- The value that `self` holds after `checks` was scraped by one of them, and only
failures came after it, so few that the backend is still up. -/
def Recent (value : ScrapedValue) (config : HealthCheckConfig) (checks : List Check) (self : Backend) : Prop :=
  value.stored self ≠ 0 → ∃ before check text after, checks = before ++ check :: after ∧
    check.scraped = some text ∧ value.stored self = value.reported text ∧
    (∀ later ∈ after, later.passed = false) ∧ after.length = self.consecutiveHealthFailures ∧
    after.length < max config.unhealthyThreshold.toNat 1 ∧ (after ≠ [] → self.isHealthy = true)

variable {value : ScrapedValue} {checks : List Check}

/-- Nothing is held that is not recent, if nothing is held. -/
theorem Recent.of_stored_eq_zero (h : value.stored self = 0) : value.Recent config checks self :=
  fun hStored => absurd h hStored

/-- A check that passes holds what it scraped, or nothing. -/
theorem Recent.of_passed (hPassed : check.passed = true) :
    value.Recent config (checks ++ [check]) (self.checkOne config check) := by
  rw [checkOne_passed hPassed]
  cases hScraped : check.scraped with
  | none => exact .of_stored_eq_zero (value.of_resetScraped _)
  | some text =>
      intro _
      have hFailures : (self.applyProbeResult config true).consecutiveHealthFailures = 0 := by
        rw [applyProbeResult_eq]
        rfl
      refine ⟨checks, check, text, [], rfl, hScraped, value.of_applyScrape _ text, by simp, ?_, by simp, by simp⟩
      rw [Option.elim_some, applyScrape_eq]
      exact hFailures.symm

/-- A check that fails keeps what there was, unless the backend is down then. -/
theorem Recent.of_failed (hFailed : check.passed = false) (h : value.Recent config checks self) :
    value.Recent config (checks ++ [check]) (self.checkOne config check) := by
  rw [checkOne_failed hFailed]
  split
  · rename_i hHealthy
    intro hStored
    rw [value.of_applyProbeResult] at hStored
    obtain ⟨before, last, text, after, rfl, hScraped, hValue, hFailures, hCount, _, _⟩ := h hStored
    refine ⟨before, last, text, after ++ [check], by simp, hScraped, ?_, ?_, ?_, ?_, fun _ => hHealthy⟩
    · rw [value.of_applyProbeResult, hValue]
    · intro later hLater
      rcases List.mem_append.mp hLater with hEarlier | hNow
      · exact hFailures later hEarlier
      · rw [List.mem_singleton.mp hNow, hFailed]
    · rw [applyProbeResult_eq, List.length_append, hCount]
      rfl
    · rw [List.length_append, hCount]
      exact lt_max_of_lt_left (failures_lt_of_isHealthy hHealthy)
  · exact .of_stored_eq_zero (value.of_resetScraped _)

/-- After any checks of a backend that was new, what is held is recent. -/
theorem recent_foldl_checkOne (value : ScrapedValue) (config : HealthCheckConfig) (id : BackendId)
    (url : String) (weight : Nat) (breaker : CircuitBreaker) (checks : List Check) :
    value.Recent config checks (checks.foldl (checkOne config) (new id url weight breaker)) := by
  induction checks using List.reverseRecOn with
  | nil => exact .of_stored_eq_zero (value.of_new id url weight breaker)
  | append_singleton checks check ih =>
      rw [List.foldl_append, List.foldl_cons, List.foldl_nil]
      cases hPassed : check.passed with
      | true => exact .of_passed hPassed
      | false => exact .of_failed hPassed ih

end ScrapedValue

/-- After every check, queue depth and KV-cache usage are zero or recent. They are
zero if the last check found the backend down, or could not scrape it. -/
theorem bounded_staleness (config : HealthCheckConfig) (id : BackendId) (url : String) (weight : Nat)
    (breaker : CircuitBreaker) (checks : List Check) :
    let self := checks.foldl (checkOne config) (new id url weight breaker)
    ScrapedValue.queueDepth.Recent config checks self ∧ ScrapedValue.kvCacheUsageBp.Recent config checks self ∧
      ∀ check ∈ checks.getLast?, (check.passed = false ∧ self.isHealthy = false) ∨
        (check.passed = true ∧ check.scraped = none) → self.queueDepth = 0 ∧ self.kvCacheUsageBp = 0 := by
  intro self
  refine ⟨ScrapedValue.recent_foldl_checkOne _ config id url weight breaker checks,
    ScrapedValue.recent_foldl_checkOne _ config id url weight breaker checks, ?_⟩
  intro check hLast hReset
  obtain ⟨earlier, rfl⟩ := List.getLast?_eq_some_iff.mp hLast
  have hSelf : self = (earlier.foldl (checkOne config) (new id url weight breaker)).checkOne config check := by
    simp [self]
  rcases hReset with ⟨hFailed, hDown⟩ | ⟨hPassed, hNone⟩
  · rw [hSelf, checkOne_failed hFailed] at hDown ⊢
    split
    · rename_i hHealthy
      rw [if_pos hHealthy, hHealthy] at hDown
      cases hDown
    · exact ⟨rfl, rfl⟩
  · rw [hSelf, checkOne_passed hPassed, hNone]
    exact ⟨rfl, rfl⟩

end Backend

end InferenceRouter
