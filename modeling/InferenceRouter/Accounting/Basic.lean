import InferenceRouter.Backend
import InferenceRouter.CircuitBreaker.Control

/-! Per-request accounting. A guard owns the permit of its request and settles
everything when it is dropped. What its methods do to shared objects is a list
of effects, in program order; the guard itself belongs to one request.
Effects name a shared backend by its id. Logging is left out. -/
namespace InferenceRouter

/-- An HTTP status code. -/
structure StatusCode where
  code : Nat
  valid : 100 ≤ code ∧ code < 1000
  deriving DecidableEq

namespace StatusCode

def isSuccess (self : StatusCode) : Bool := 200 ≤ self.code ∧ self.code < 300

def isServerError (self : StatusCode) : Bool := 500 ≤ self.code ∧ self.code < 600

end StatusCode

inductive Outcome where
  /-- The backend answered and the whole body reached the client. -/
  | completed (status : StatusCode)
  /-- Connection failure or timeout before the response headers arrived. -/
  | transportError
  /-- The backend's stream broke after the headers were sent. -/
  | streamError
  /-- The client went away before the body finished. -/
  | clientDisconnect
  deriving DecidableEq

namespace Outcome

def isBackendFailure : Outcome → Bool
  | .completed s => s.isServerError
  | .transportError | .streamError => true
  | .clientDisconnect => false

def statusLabel : Outcome → String
  | .completed s => toString s.code
  | .transportError => "transport_error"
  | .streamError => "stream_error"
  | .clientDisconnect => "client_disconnect"

/-- The label of a status has digits only. -/
theorem statusLabel_completed_ne {s : StatusCode} {text : String}
    (hText : ∃ c ∈ text.toList, c.isDigit = false) : (completed s).statusLabel ≠ text := by
  rintro rfl
  obtain ⟨c, hMem, hDigit⟩ := hText
  simp only [statusLabel, Nat.toString_eq_repr, Nat.toList_repr] at hMem
  have hIsDigit := Nat.isDigit_of_mem_toDigits (by decide) (by decide) hMem
  simp [hDigit] at hIsDigit

/-- Outcomes with one label are one outcome. -/
theorem statusLabel_injective : Function.Injective statusLabel := by
  have hNe (s : StatusCode) (other : Outcome) (hOther : ∀ s, other ≠ .completed s) :
      (completed s).statusLabel ≠ other.statusLabel := by
    refine statusLabel_completed_ne ?_
    cases other with
    | completed s => exact absurd rfl (hOther s)
    | transportError | streamError | clientDisconnect => exact ⟨'_', by decide, by decide⟩
  intro left right h
  cases left with
  | completed s =>
      cases right with
      | completed s' =>
          simp only [statusLabel, Nat.toString_eq_repr] at h
          have hDigits : Nat.toDigits 10 s.code = Nat.toDigits 10 s'.code := by
            rw [← Nat.toList_repr, ← Nat.toList_repr, h]
          have hCode : s.code = s'.code := by
            rw [← Nat.ofDigitChars_ten_toDigits (n := s.code), hDigits, Nat.ofDigitChars_ten_toDigits]
          cases s
          cases s'
          simp only at hCode
          subst hCode
          rfl
      | transportError | streamError | clientDisconnect => exact absurd h (hNe s _ (by simp))
  | transportError | streamError | clientDisconnect =>
      cases right with
      | completed s => exact absurd h.symm (hNe s _ (by simp))
      | transportError | streamError | clientDisconnect => first | rfl | exact absurd h (by decide)

end Outcome

/-- One access to an object that requests share. -/
inductive Effect where
  | recordRequestStart (backend : BackendId)
  | recordRequestEnd (backend : BackendId)
  | updateEwmaLatency (backend : BackendId) (latencyUs : Nat) (alpha : ℚ)
  | breaker (backend : BackendId) (call : Call)
  /-- An observation of `router_request_duration_seconds`, in nanoseconds. -/
  | observeDuration (backend : BackendId) (elapsed : Nat)
  /-- An increment of `router_requests_total`. -/
  | incRequests (strategy : String) (backend : BackendId) (status : String)
  /-- An increment of `router_rejected_requests_total`. -/
  | incRejected (reason : String)
  /-- The drop of a `Permit`. -/
  | releasePermit
  deriving DecidableEq

/-- The two clock readings of a drop: the end of the request, and the stand-in
for a missing arrival of the headers. -/
structure DropClock where
  elapsedAt : Nat
  ttfbAt : Nat

/-- The guard of one started request. Its `Permit` is the guard itself. -/
structure RequestAccounting where
  backend : BackendId
  strategyName : String
  ewmaAlpha : ℚ
  started : Nat
  /-- When the backend's response headers arrived. -/
  headersAt : Option Nat
  outcome : Outcome
  admission : Admission

namespace RequestAccounting

/-- Mark the request as started on `backend`. -/
def start (backend : BackendId) (strategyName : String) (ewmaAlpha : ℚ) (admission : Admission)
    (now : Nat) : List Effect × RequestAccounting :=
  ([.recordRequestStart backend],
    { backend, strategyName, ewmaAlpha, admission
      started := now
      headersAt := none
      outcome := .clientDisconnect })

/-- Record when the headers arrived, once. -/
def markHeadersReceivedAt (self : RequestAccounting) (arrival : Nat) : RequestAccounting :=
  { self with headersAt := some (self.headersAt.getD arrival) }

/-- A probe is judged on the headers if they are a success. The verdict of the
whole request then counts as `normal`. -/
def resolveProbeOnHeaders (self : RequestAccounting) (status : StatusCode) :
    List Effect × RequestAccounting :=
  if self.admission = .probe ∧ status.isSuccess then
    ([.breaker self.backend (.recordSuccess .probe)], { self with admission := .normal })
  else ([], self)

/-- Whole microseconds in 64 bits. -/
def microsOf (duration : Nat) : Nat := duration / 1000 % wordSize

/-- The effects of dropping the guard; the permit goes last, with the fields. -/
def drop (self : RequestAccounting) (clock : DropClock) : List Effect :=
  let elapsed := saturatingDurationSince clock.elapsedAt self.started
  [.recordRequestEnd self.backend] ++
  (match self.outcome with
    | .completed status =>
        (if status.isSuccess then
          let ttfb := saturatingDurationSince (self.headersAt.getD clock.ttfbAt) self.started
          [.updateEwmaLatency self.backend (microsOf ttfb) self.ewmaAlpha]
        else []) ++
        (if self.outcome.isBackendFailure then [.breaker self.backend (.recordFailure self.admission)]
        else [.breaker self.backend (.recordSuccess self.admission)])
    | .transportError | .streamError => [.breaker self.backend (.recordFailure self.admission)]
    | .clientDisconnect => [.breaker self.backend (.abandon self.admission)]) ++
  [.observeDuration self.backend elapsed,
    .incRequests self.strategyName self.backend self.outcome.statusLabel,
    .releasePermit]

/-- Set the outcome and drop the guard. -/
def finish (self : RequestAccounting) (outcome : Outcome) (clock : DropClock) : List Effect :=
  drop { self with outcome } clock

/-- The verdict that a guard delivers. -/
def verdict (self : RequestAccounting) : Call :=
  match self.outcome with
  | .completed _ =>
      if self.outcome.isBackendFailure then .recordFailure self.admission
      else .recordSuccess self.admission
  | .transportError | .streamError => .recordFailure self.admission
  | .clientDisconnect => .abandon self.admission

theorem verdict_cases (self : RequestAccounting) :
    self.verdict = .recordSuccess self.admission ∨ self.verdict = .recordFailure self.admission ∨
      self.verdict = .abandon self.admission := by
  unfold verdict
  split
  · split
    · exact .inr (.inl rfl)
    · exact .inl rfl
  · exact .inr (.inl rfl)
  · exact .inr (.inl rfl)
  · exact .inr (.inr rfl)

/-- The latency sample that a guard delivers, if it delivers one. -/
def sample (self : RequestAccounting) (clock : DropClock) : Option Nat :=
  match self.outcome with
  | .completed status =>
      if status.isSuccess then
        some (microsOf (saturatingDurationSince (self.headersAt.getD clock.ttfbAt) self.started))
      else none
  | _ => none

/-- A drop is always one release of the connection, at most one sample, one
verdict, one observation, one count and the release of the permit. -/
theorem drop_eq (self : RequestAccounting) (clock : DropClock) :
    self.drop clock =
      .recordRequestEnd self.backend ::
        ((self.sample clock).toList.map fun latency =>
          .updateEwmaLatency self.backend latency self.ewmaAlpha) ++
        [.breaker self.backend self.verdict,
          .observeDuration self.backend (saturatingDurationSince clock.elapsedAt self.started),
          .incRequests self.strategyName self.backend self.outcome.statusLabel,
          .releasePermit] := by
  cases hOutcome : self.outcome with
  | completed status =>
      simp only [drop, sample, verdict, hOutcome]
      split <;> split <;> rfl
  | transportError | streamError | clientDisconnect => simp [drop, sample, verdict, hOutcome]

end RequestAccounting

end InferenceRouter
