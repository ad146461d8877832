import InferenceRouter.Semantics.SlidingWindow
import Mathlib.Data.Rat.Defs

/-! The per-backend circuit breaker. Instants and durations are nanoseconds.
Clock readings are arguments: every method reads the clock before it takes
the lock, so nothing here makes the readings of successive calls increase.
The failure rate is compared as an exact rational, and a bucket counts in
`Nat`, since 2^64 verdicts in one window are out of reach. -/
namespace InferenceRouter

open Semantics.SlidingWindow

/-- `Duration::from_secs`. -/
def fromSecs (secs : Nat) : Nat := secs * 1000000000

/-- `Duration::as_secs`, whole seconds only. -/
def asSecs (duration : Nat) : Nat := duration / 1000000000

/-- `Instant::saturating_duration_since`, zero when `earlier` is not earlier. -/
def saturatingDurationSince (now earlier : Nat) : Nat := now - earlier

inductive CircuitState where
  | closed
  | open
  | halfOpen
  deriving DecidableEq, Repr

namespace CircuitState

def asU64 : CircuitState → Nat
  | .closed => 0
  | .halfOpen => 1
  | .open => 2

end CircuitState

/-- How a request was admitted. Only a `probe` verdict may move a half-open breaker. -/
inductive Admission where
  | normal
  | probe
  deriving DecidableEq, Repr

structure Bucket where
  successes : Nat := 0
  failures : Nat := 0
  deriving DecidableEq, Repr

/-- The fields of `Inner` that decide who is admitted. -/
structure Control where
  state : CircuitState
  openedAt : Option Nat
  probeInFlight : Bool
  deriving DecidableEq, Repr

/-- `Inner` of a window of `n` one-second buckets: the vector has `n` entries
and the head is one of their indices by construction. -/
structure Inner (n : Nat) extends Control where
  buckets : Fin n → Bucket
  head : Fin n
  headStart : Nat

namespace Inner

variable {n : Nat} [NeZero n]

/-- Slide the window forward to `now`, blanking buckets that fell out. -/
def rotate (self : Inner n) (now : Nat) : Inner n :=
  let elapsed := asSecs (saturatingDurationSince now self.headStart)
  if elapsed = 0 then self
  else
    let steps := min elapsed n
    { self with
      buckets := clearAhead {} self.head steps self.buckets
      head := slot self.head steps
      headStart := self.headStart + fromSecs elapsed }

/-- Failures and all verdicts in the window. -/
def totals (self : Inner n) : Nat × Nat :=
  let failures := ∑ i, (self.buckets i).failures
  let successes := ∑ i, (self.buckets i).successes
  (failures, failures + successes)

def clear (self : Inner n) (now : Nat) : Inner n :=
  { self with buckets := fun _ => {}, head := Fin.ofNat n 0, headStart := now }

/-- `Open` becomes `HalfOpen` once the open period is over. -/
def refresh (self : Inner n) (now : Nat) (openDuration : Nat) : Inner n :=
  if self.state = .open then
    match self.openedAt with
    | some opened =>
        if openDuration ≤ saturatingDurationSince now opened then
          { self with state := .halfOpen }
        else self
    | none => self
  else self

/-- `buckets[head].successes += 1`. -/
def countSuccess (self : Inner n) : Inner n :=
  let bucket := self.buckets self.head
  { self with
    buckets := Function.update self.buckets self.head
      { bucket with successes := bucket.successes + 1 } }

/-- `buckets[head].failures += 1`. -/
def countFailure (self : Inner n) : Inner n :=
  let bucket := self.buckets self.head
  { self with
    buckets := Function.update self.buckets self.head
      { bucket with failures := bucket.failures + 1 } }

end Inner

/-- A breaker with its mutex content. The settings never change after `new`. -/
structure CircuitBreaker where
  window : Nat
  [window_pos : NeZero window]
  inner : Inner window
  failureRateThreshold : ℚ
  minRequests : Nat
  openDuration : Nat

namespace CircuitBreaker

attribute [instance] CircuitBreaker.window_pos

/-- `CircuitBreaker::new` at the instant `now`. -/
def new (now : Nat) (failureRateThreshold : ℚ) (minRequests windowSecs openDurationSecs : Nat) :
    CircuitBreaker where
  window := max windowSecs 1
  window_pos := ⟨by omega⟩
  inner := {
    state := .closed
    openedAt := none
    probeInFlight := false
    buckets := fun _ => {}
    head := ⟨0, by omega⟩
    headStart := now }
  failureRateThreshold := failureRateThreshold
  minRequests := max minRequests 1
  openDuration := fromSecs openDurationSecs

/-- Current state. Side effect: moves `Open` to `HalfOpen` once it is due. -/
def state (self : CircuitBreaker) (now : Nat) : CircuitState × CircuitBreaker :=
  let inner := self.inner.refresh now self.openDuration
  (inner.state, { self with inner })

/-- May this backend be offered to the strategy right now? -/
def isRoutable (self : CircuitBreaker) (now : Nat) : Bool × CircuitBreaker :=
  let inner := self.inner.refresh now self.openDuration
  let answer := match inner.state with
    | .closed => true
    | .halfOpen => !inner.probeInFlight
    | .open => false
  (answer, { self with inner })

/-- Claim the right to send one request. In `HalfOpen` only one caller wins the
probe; the state check and the claim happen under one lock. -/
def tryBegin (self : CircuitBreaker) (now : Nat) : Option Admission × CircuitBreaker :=
  let inner := self.inner.refresh now self.openDuration
  let (answer, inner) := match inner.state with
    | .closed => (some .normal, inner)
    | .open => (none, inner)
    | .halfOpen =>
        if inner.probeInFlight then (none, inner)
        else (some .probe, { inner with probeInFlight := true })
  (answer, { self with inner })

def recordSuccess (self : CircuitBreaker) (adm : Admission) (now : Nat) : CircuitBreaker :=
  let inner := (self.inner.refresh now self.openDuration).rotate now
  let inner :=
    if inner.state = .halfOpen ∧ adm = .probe then
      { ({ inner with state := .closed, openedAt := none }.clear now) with probeInFlight := false }
    else inner
  { self with inner := inner.countSuccess }

/-- The window, with the latest failure counted, calls for opening the circuit. -/
def overThreshold (self : CircuitBreaker) (inner : Inner self.window) : Bool :=
  let (failures, total) := inner.totals
  decide (self.minRequests ≤ total ∧ self.failureRateThreshold ≤ (failures : ℚ) / (total : ℚ))

def recordFailure (self : CircuitBreaker) (adm : Admission) (now : Nat) : CircuitBreaker :=
  let inner := (self.inner.refresh now self.openDuration).rotate now
  let inner :=
    if inner.state = .halfOpen ∧ adm = .probe then
      { inner with state := .open, openedAt := some now, probeInFlight := false }
    else
      let inner := inner.countFailure
      -- Late failures while `Open` or `HalfOpen` are counted but do not extend the open period.
      if inner.state ≠ .closed then inner
      else if self.overThreshold inner then { inner with state := .open, openedAt := some now }
      else inner
  { self with inner }

/-- The request ended without a verdict. A probe is handed back; a `normal`
request holds nothing. The clock is not read and the state is not refreshed. -/
def abandon (self : CircuitBreaker) (adm : Admission) : CircuitBreaker :=
  if adm ≠ .probe then self
  else
    let inner := self.inner
    { self with
      inner := if inner.state = .halfOpen then { inner with probeInFlight := false } else inner }

end CircuitBreaker

/-- The window drops a bucket after `n` seconds and not before: three old
failures still open the circuit at 9 s in a 10 s window, not at 10 s. -/
example :
    let failing (cb : CircuitBreaker) (now : Nat) := cb.recordFailure .normal now
    let old := failing (failing (failing (.new 0 (1 / 2) 4 10 30) 0) 0) 0
    (failing old 9000000000).inner.state = .open ∧
      (failing old 10000000000).inner.state = .closed := by
  decide +kernel

end InferenceRouter
