import InferenceRouter.CircuitBreaker.Control
import Mathlib.Algebra.Order.Field.Rat
import Mathlib.Algebra.Order.Field.Basic

/-! What a closed circuit tolerates. It opens for a share of the verdicts in its
window, and not before there are a number of them, so a few failures never open
it, whatever else is in the window. -/
namespace InferenceRouter

/-- A call that counts a failure. -/
def Call.isFailure : Call → Bool
  | .recordFailure _ => true
  | _ => false

namespace CircuitBreaker

variable {self : CircuitBreaker}

/-- The failures in the window, as it was last moved. -/
def recentFailures (self : CircuitBreaker) : Nat := self.inner.totals.1

/-- Too few failures to open the circuit even with as few verdicts as count, with the
rate of failures read as exact. -/
def WithinBudget (self : CircuitBreaker) : Prop :=
  (self.recentFailures : ℚ) < self.failureRateThreshold * self.minRequests

theorem overThreshold_eq_false {inner : Inner self.window} (hThreshold : 0 ≤ self.failureRateThreshold)
    (hBudget : (inner.totals.1 : ℚ) < self.failureRateThreshold * self.minRequests) :
    self.overThreshold inner = false := by
  refine decide_eq_false ?_
  rintro ⟨hEnough, hRate⟩
  have hPositive : (0 : ℚ) < inner.totals.2 := by
    by_contra hNone
    have hZero : inner.totals.2 = 0 := by simpa using hNone
    have hMin : self.minRequests = 0 := Nat.le_zero.mp (hZero ▸ hEnough)
    rw [hMin, Nat.cast_zero, mul_zero] at hBudget
    exact absurd hBudget (not_lt.mpr (Nat.cast_nonneg _))
  have hReached : self.failureRateThreshold * self.minRequests ≤ inner.totals.1 := calc
    self.failureRateThreshold * self.minRequests ≤ self.failureRateThreshold * inner.totals.2 :=
      mul_le_mul_of_nonneg_left (Nat.cast_le.mpr hEnough) hThreshold
    _ ≤ inner.totals.1 := (le_div_iff₀ hPositive).mp hRate
  exact absurd hBudget (not_lt.mpr hReached)

/-- The failures after a failure, whether it opened the circuit or not. -/
theorem recentFailures_recordFailure (hClosed : self.control.state = .closed) (adm : Admission) (now : Nat) :
    (self.recordFailure adm now).recentFailures =
      ((self.inner.refresh now self.openDuration).rotate now).countFailure.totals.1 := by
  have hFresh : ((self.inner.refresh now self.openDuration).rotate now).state = .closed := by
    have hState := congrArg Control.state
      ((Inner.toControl_rotate (self.inner.refresh now self.openDuration) now).trans
        (self.inner.toControl_refresh now self.openDuration))
    exact hState.trans ((Control.refresh_state_closed_iff ..).mpr hClosed)
  simp only [recentFailures, recordFailure, hFresh, reduceCtorEq, false_and, if_false]
  split
  · rfl
  · split <;> rfl

/-- Within the budget a failure does not open the circuit. -/
theorem trips_eq_false {adm : Admission} {now : Nat} (hClosed : self.control.state = .closed)
    (hThreshold : 0 ≤ self.failureRateThreshold) (hBudget : (self.recordFailure adm now).WithinBudget) :
    self.trips now = false := by
  refine overThreshold_eq_false hThreshold ?_
  rw [← recentFailures_recordFailure hClosed adm now]
  exact hBudget

theorem serve_failureRateThreshold (self : CircuitBreaker) (e : Event) :
    (self.serve e).2.failureRateThreshold = self.failureRateThreshold := by
  obtain ⟨now, call⟩ := e
  cases call with
  | abandon adm =>
      simp only [serve, abandon]
      split <;> rfl
  | _ => rfl

/-- Nothing but a failure beyond the budget opens a closed circuit. -/
theorem serve_closed {e : Event} (hClosed : self.control.state = .closed)
    (hThreshold : 0 ≤ self.failureRateThreshold)
    (hBudget : e.call.isFailure = true → (self.serve e).2.WithinBudget) :
    (self.serve e).2.control.state = .closed := by
  have hFresh : (self.control.refresh e.now self.openDuration).state = .closed :=
    (Control.refresh_state_closed_iff ..).mpr hClosed
  rw [(self.serve_control e).2]
  obtain ⟨now, call⟩ := e
  cases call with
  | state | isRoutable => exact hFresh
  | tryBegin | recordSuccess adm => simp [Control.serve, hFresh]
  | recordFailure adm =>
      have hQuiet : self.trips now = false := trips_eq_false hClosed hThreshold (hBudget rfl)
      simp [Control.serve, hFresh, hQuiet]
  | abandon adm => simp [Control.serve, hClosed]

end CircuitBreaker

end InferenceRouter
