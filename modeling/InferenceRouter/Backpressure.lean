import InferenceRouter.Backend

/-! Admission control: a bounded number of in-flight requests. -/
namespace InferenceRouter

/-- A slot in the in-flight budget. Whoever owns it gives it back by dropping it. -/
structure Permit where
  deriving DecidableEq

/-- The counter, and a limit that fits in the counter's word. -/
structure BackpressureController where
  inFlight : Nat
  maxInFlight : Nat
  max_lt : maxInFlight < wordSize

namespace BackpressureController

def new (maxInFlight : Nat) (max_lt : maxInFlight < wordSize) : BackpressureController where
  inFlight := 0
  maxInFlight := maxInFlight
  max_lt := max_lt

/-- Try to take a slot; none means the router is at capacity. -/
def tryAcquire (self : BackpressureController) : Option Permit × BackpressureController :=
  if self.inFlight < self.maxInFlight then (some ⟨⟩, { self with inFlight := self.inFlight + 1 })
  else (none, self)

/-- `Permit::drop`: a `checked_sub`, which leaves zero alone. -/
def release (self : BackpressureController) : BackpressureController :=
  if self.inFlight = 0 then self else { self with inFlight := self.inFlight - 1 }

theorem release_inFlight (self : BackpressureController) :
    self.release.inFlight = self.inFlight - 1 := by
  unfold release
  split <;> simp_all

@[simp] theorem release_maxInFlight (self : BackpressureController) :
    self.release.maxInFlight = self.maxInFlight := by
  unfold release
  split <;> rfl

@[simp] theorem tryAcquire_maxInFlight (self : BackpressureController) :
    self.tryAcquire.2.maxInFlight = self.maxInFlight := by
  unfold tryAcquire
  split <;> rfl

/-- Within the limit, a slot is refused exactly at the limit. -/
theorem tryAcquire_eq_none_iff {self : BackpressureController}
    (h : self.inFlight ≤ self.maxInFlight) :
    self.tryAcquire.1 = none ↔ self.inFlight = self.maxInFlight := by
  unfold tryAcquire
  split
  · simp
    omega
  · simp
    omega

end BackpressureController

end InferenceRouter
