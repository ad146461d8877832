import InferenceRouter.CircuitBreaker.Control
import InferenceRouter.Semantics.Run

/-! The ring of one-second buckets refines a breaker that never forgets: it
logs every verdict counted since the window began and judges a failure by
filtering that log. Clock readings may go backwards; a verdict belongs to the
latest second any record call has reached. -/
namespace InferenceRouter

open Semantics Semantics.SlidingWindow

/-- A counted verdict, stamped with the largest clock reading of the record
calls made so far since the window began. -/
structure Verdict where
  latest : Nat
  failed : Bool
  deriving DecidableEq, Repr

/-- The reference breaker. `base` is the creation instant, or the instant of
the probe success that last closed the circuit. -/
structure LogBreaker where
  window : Nat
  failureRateThreshold : ℚ
  minRequests : Nat
  openDuration : Nat
  control : Control
  base : Nat
  latest : Nat
  log : List Verdict

namespace LogBreaker

def new (now : Nat) (failureRateThreshold : ℚ) (minRequests windowSecs openDurationSecs : Nat) :
    LogBreaker where
  window := max windowSecs 1
  failureRateThreshold := failureRateThreshold
  minRequests := max minRequests 1
  openDuration := fromSecs openDurationSecs
  control := ⟨.closed, none, false⟩
  base := now
  latest := now
  log := []

/-- The second number of a verdict. -/
def second (self : LogBreaker) (verdict : Verdict) : Nat := asSecs (verdict.latest - self.base)

/-- The second number of the latest record call. -/
def currentSecond (self : LogBreaker) : Nat := asSecs (self.latest - self.base)

/-- The verdicts of the last `window` seconds. -/
def recent (self : LogBreaker) : List Verdict :=
  self.log.filter fun verdict => self.currentSecond < self.second verdict + self.window

/-- Failures and all verdicts of the last `window` seconds. -/
def totals (self : LogBreaker) : Nat × Nat :=
  (self.recent.countP Verdict.failed, self.recent.length)

def overThreshold (self : LogBreaker) : Prop :=
  self.minRequests ≤ self.totals.2 ∧
    self.failureRateThreshold ≤ (self.totals.1 : ℚ) / (self.totals.2 : ℚ)

instance (self : LogBreaker) : Decidable self.overThreshold := inferInstanceAs (Decidable (_ ∧ _))

/-- A record call at `now` has read the clock. -/
def observe (self : LogBreaker) (now : Nat) : LogBreaker :=
  { self with
    control := self.control.refresh now self.openDuration
    latest := max self.latest now }

/-- Count a verdict at the latest clock reading. -/
def count (self : LogBreaker) (failed : Bool) : LogBreaker :=
  { self with log := ⟨self.latest, failed⟩ :: self.log }

/-- A probe success closes the circuit and begins a new window. -/
def close (self : LogBreaker) (now : Nat) : LogBreaker :=
  { self with control := ⟨.closed, none, false⟩, base := now, latest := now, log := [] }

def recordSuccess (self : LogBreaker) (adm : Admission) (now : Nat) : LogBreaker :=
  let noted := self.observe now
  if noted.control.state = .halfOpen ∧ adm = .probe then (noted.close now).count false
  else noted.count false

def recordFailure (self : LogBreaker) (adm : Admission) (now : Nat) : LogBreaker :=
  let noted := self.observe now
  if noted.control.state = .halfOpen ∧ adm = .probe then
    { noted with control := ⟨.open, some now, false⟩ }
  else
    let counted := noted.count true
    if counted.control.state = .closed ∧ counted.overThreshold then
      { counted with control := { counted.control with state := .open, openedAt := some now } }
    else counted

/-- Serve one call. Calls that count nothing act on control alone. -/
def serve (self : LogBreaker) (e : Event) : Answer × LogBreaker :=
  match e.call with
  | .recordSuccess adm => (.unit, self.recordSuccess adm e.now)
  | .recordFailure adm => (.unit, self.recordFailure adm e.now)
  | _ =>
      let (answer, control) := self.control.serve self.openDuration false e
      (answer, { self with control })

/-- The log with every verdict weighed, as the sliding window sees it. -/
def weighed (self : LogBreaker) (weight : Bool → Nat) : List (Nat × Nat) :=
  self.log.map fun verdict => (self.second verdict, weight verdict.failed)

end LogBreaker

namespace Inner

variable {n : Nat} [NeZero n]

def elapsedSecs (self : Inner n) (now : Nat) : Nat :=
  asSecs (saturatingDurationSince now self.headStart)

theorem rotate_headStart (self : Inner n) (now : Nat) :
    (self.rotate now).headStart = self.headStart + fromSecs (self.elapsedSecs now) := by
  simp only [rotate, elapsedSecs]
  split
  · rename_i hZero
    simp [hZero, fromSecs]
  · rfl

/-- Rotating the window is one advance of the ring, for any bucket count. -/
theorem rotate_holds {self : Inner n} {tick : Nat} {log : List (Nat × Nat)} (weight : Bucket → Nat)
    (hBlank : weight {} = 0) (h : Holds (fun i => weight (self.buckets i)) self.head tick log)
    (now : Nat) :
    Holds (fun i => weight ((self.rotate now).buckets i)) (self.rotate now).head
      (tick + self.elapsedSecs now) log := by
  simp only [rotate, elapsedSecs]
  split
  · rename_i hZero
    simpa [hZero] using h
  · have hAdvance := h.advance (asSecs (saturatingDurationSince now self.headStart))
    simpa only [comp_clearAhead, hBlank] using hAdvance

omit [NeZero n] in
/-- Counting into the head bucket is one record of the ring. -/
theorem update_head_holds {self : Inner n} {tick : Nat} {log : List (Nat × Nat)}
    (weight : Bucket → Nat) (bucket : Bucket) (amount : Nat)
    (hBucket : weight bucket = weight (self.buckets self.head) + amount)
    [NeZero n] (h : Holds (fun i => weight (self.buckets i)) self.head tick log) :
    Holds (fun i => weight (Function.update self.buckets self.head bucket i)) self.head tick
      ((tick, amount) :: log) := by
  have hRecord := h.record amount
  have hEq : (fun i => weight (Function.update self.buckets self.head bucket i)) =
      Function.update (fun i => weight (self.buckets i)) self.head
        (weight (self.buckets self.head) + amount) := by
    funext i
    by_cases hi : i = self.head
    · subst hi
      simp [hBucket]
    · simp [Function.update_of_ne hi]
  rw [hEq]
  exact hRecord

end Inner

/-- The breaker and the reference agree on the settings and on control, and the
ring holds the log of the reference, successes and failures apart. -/
structure Refines (cb : CircuitBreaker) (ref : LogBreaker) : Prop where
  window : ref.window = cb.window
  failureRateThreshold : ref.failureRateThreshold = cb.failureRateThreshold
  minRequests : ref.minRequests = cb.minRequests
  openDuration : ref.openDuration = cb.openDuration
  control : ref.control = cb.control
  base_le : ref.base ≤ ref.latest
  headStart : cb.inner.headStart = ref.base + fromSecs ref.currentSecond
  failures : Holds (fun i => (cb.inner.buckets i).failures) cb.inner.head ref.currentSecond
    (ref.weighed fun failed => if failed then 1 else 0)
  successes : Holds (fun i => (cb.inner.buckets i).successes) cb.inner.head ref.currentSecond
    (ref.weighed fun failed => if failed then 0 else 1)

namespace Refines

variable {cb : CircuitBreaker} {ref : LogBreaker}

theorem new (now : Nat) (threshold : ℚ) (minRequests windowSecs openDurationSecs : Nat) :
    Refines (.new now threshold minRequests windowSecs openDurationSecs)
      (.new now threshold minRequests windowSecs openDurationSecs) where
  window := rfl
  failureRateThreshold := rfl
  minRequests := rfl
  openDuration := rfl
  control := rfl
  base_le := Nat.le_refl _
  headStart := by simp [CircuitBreaker.new, LogBreaker.new, LogBreaker.currentSecond, asSecs, fromSecs]
  failures := Holds.empty _ _
  successes := Holds.empty _ _

private theorem sum_weighed (log : List Verdict) (young : Verdict → Prop) [DecidablePred young]
    (weight : Bool → Nat) :
    (log.map fun v => if young v then weight v.failed else 0).sum =
      ((log.filter fun v => young v).map fun v => weight v.failed).sum := by
  induction log with
  | nil => rfl
  | cons v log ih =>
      by_cases hYoung : young v <;> simp [hYoung, ih]

private theorem sum_failed (log : List Verdict) :
    (log.map fun v => if v.failed then 1 else 0).sum = log.countP Verdict.failed := by
  induction log with
  | nil => rfl
  | cons v log ih => cases h : v.failed <;> simp [h, ih, Nat.add_comm]

private theorem sum_all (log : List Verdict) :
    (log.map fun v => if v.failed then 1 else 0).sum +
      (log.map fun v => if v.failed then 0 else 1).sum = log.length := by
  induction log with
  | nil => rfl
  | cons v log ih =>
      cases h : v.failed <;> simp only [List.map_cons, List.sum_cons, List.length_cons, h] <;>
        simp <;> omega

/-- The bucket sums are the counts over the recent part of the log. -/
theorem totals (h : Refines cb ref) : cb.inner.totals = ref.totals := by
  have hFailures := h.failures.total
  have hSuccesses := h.successes.total
  simp only [LogBreaker.weighed, List.map_map, Function.comp_def, ← h.window] at hFailures hSuccesses
  rw [sum_weighed ref.log
    (fun v => ref.currentSecond < ref.second v + ref.window) (fun failed => if failed then 1 else 0)]
    at hFailures
  rw [sum_weighed ref.log
    (fun v => ref.currentSecond < ref.second v + ref.window) (fun failed => if failed then 0 else 1)]
    at hSuccesses
  have hAll := sum_all ref.recent
  rw [sum_failed] at hAll hFailures
  simp only [LogBreaker.recent] at hAll
  simp only [Inner.totals, LogBreaker.totals, LogBreaker.recent, hFailures, hSuccesses, hAll]

theorem overThreshold (h : Refines cb ref) :
    cb.overThreshold cb.inner = decide ref.overThreshold := by
  simp only [CircuitBreaker.overThreshold, LogBreaker.overThreshold, h.totals, h.minRequests,
    h.failureRateThreshold]

theorem withControl (h : Refines cb ref) (control : Control) :
    Refines { cb with inner := { cb.inner with toControl := control } } { ref with control } where
  window := h.window
  failureRateThreshold := h.failureRateThreshold
  minRequests := h.minRequests
  openDuration := h.openDuration
  control := rfl
  base_le := h.base_le
  headStart := h.headStart
  failures := h.failures
  successes := h.successes

/-- The second of the largest reading so far is where the head has moved to. -/
private theorem second_of_max (base latest now : Nat) (hBase : base ≤ latest) :
    asSecs (max latest now - base) = asSecs (latest - base) +
      asSecs (saturatingDurationSince now (base + fromSecs (asSecs (latest - base)))) := by
  simp only [asSecs, fromSecs, saturatingDurationSince]
  omega

/-- Every record call first refreshes the state and rotates the window. -/
theorem observe (h : Refines cb ref) (now : Nat) :
    Refines { cb with inner := (cb.inner.refresh now cb.openDuration).rotate now }
      (ref.observe now) := by
  have hRefreshed : Refines { cb with inner := cb.inner.refresh now cb.openDuration }
      { ref with control := ref.control.refresh now ref.openDuration } := by
    have hEq : cb.inner.refresh now cb.openDuration =
        { cb.inner with toControl := ref.control.refresh now ref.openDuration } := by
      rw [Inner.refresh_eq, h.control, h.openDuration]
      rfl
    rw [hEq]
    exact h.withControl _
  have hTick : (ref.observe now).currentSecond =
      ref.currentSecond + (cb.inner.refresh now cb.openDuration).elapsedSecs now := by
    rw [Inner.elapsedSecs, hRefreshed.headStart]
    exact second_of_max ref.base ref.latest now h.base_le
  exact {
    window := h.window
    failureRateThreshold := h.failureRateThreshold
    minRequests := h.minRequests
    openDuration := h.openDuration
    control := hRefreshed.control.trans (Inner.toControl_rotate _ now).symm
    base_le := h.base_le.trans (Nat.le_max_left _ _)
    headStart := by
      have hStart := hRefreshed.headStart
      simp only [LogBreaker.currentSecond] at hStart
      rw [hTick, Inner.rotate_headStart, hStart]
      simp only [LogBreaker.observe, LogBreaker.currentSecond, fromSecs]
      omega
    failures := by
      rw [hTick]
      exact Inner.rotate_holds Bucket.failures rfl hRefreshed.failures now
    successes := by
      rw [hTick]
      exact Inner.rotate_holds Bucket.successes rfl hRefreshed.successes now }

theorem countSuccess (h : Refines cb ref) :
    Refines { cb with inner := cb.inner.countSuccess } (ref.count false) :=
  { h with
    failures := Inner.update_head_holds Bucket.failures _ 0 rfl h.failures
    successes := Inner.update_head_holds Bucket.successes _ 1 rfl h.successes }

theorem countFailure (h : Refines cb ref) :
    Refines { cb with inner := cb.inner.countFailure } (ref.count true) :=
  { h with
    failures := Inner.update_head_holds Bucket.failures _ 1 rfl h.failures
    successes := Inner.update_head_holds Bucket.successes _ 0 rfl h.successes }

/-- A new window is empty and begins at the closing instant. -/
theorem close (h : Refines cb ref) (now : Nat) :
    Refines { cb with inner := { cb.inner.clear now with toControl := ⟨.closed, none, false⟩ } }
      (ref.close now) :=
  { h with
    control := rfl
    base_le := Nat.le_refl _
    headStart := by
      simp [Inner.clear, LogBreaker.close, LogBreaker.currentSecond, asSecs, fromSecs]
    failures := Holds.empty _ _
    successes := Holds.empty _ _ }

theorem recordSuccess (h : Refines cb ref) (adm : Admission) (now : Nat) :
    Refines (cb.recordSuccess adm now) (ref.recordSuccess adm now) := by
  have hNoted := h.observe now
  simp only [CircuitBreaker.recordSuccess, LogBreaker.recordSuccess, hNoted.control,
    CircuitBreaker.control]
  split
  · exact (hNoted.close now).countSuccess
  · exact hNoted.countSuccess

/-- The counted failure opens both breakers or neither. -/
theorem openIfOver (h : Refines cb ref) (now : Nat) :
    Refines
      { cb with inner :=
          if cb.inner.state ≠ .closed then cb.inner
          else if cb.overThreshold cb.inner then
            { cb.inner with state := .open, openedAt := some now }
          else cb.inner }
      (if ref.control.state = .closed ∧ ref.overThreshold then
        { ref with control := { ref.control with state := .open, openedAt := some now } }
      else ref) := by
  rw [h.overThreshold, h.control, CircuitBreaker.control]
  by_cases hClosed : cb.inner.state = .closed
  · by_cases hOver : ref.overThreshold
    · simpa [hClosed, hOver, h.control] using h.withControl ⟨.open, some now, cb.inner.probeInFlight⟩
    · simpa [hClosed, hOver] using h
  · simpa [hClosed] using h

theorem recordFailure (h : Refines cb ref) (adm : Admission) (now : Nat) :
    Refines (cb.recordFailure adm now) (ref.recordFailure adm now) := by
  have hNoted := h.observe now
  simp only [CircuitBreaker.recordFailure, LogBreaker.recordFailure, hNoted.control,
    CircuitBreaker.control]
  split
  · exact hNoted.withControl ⟨.open, some now, false⟩
  · exact hNoted.countFailure.openIfOver now

/-- Calls that count nothing leave the ring and the log alone. -/
theorem serve_of_not_record (h : Refines cb ref) {e : Event} (hCall : e.call.isRecord = false) :
    (cb.serve e).1 = (ref.serve e).1 ∧ Refines (cb.serve e).2 (ref.serve e).2 := by
  obtain ⟨hAnswer, hNext⟩ := cb.serve_control e
  have hRef : ref.serve e = ((ref.control.serve ref.openDuration false e).1,
      { ref with control := (ref.control.serve ref.openDuration false e).2 }) := by
    obtain ⟨now, call⟩ := e
    cases call with
    | recordSuccess adm | recordFailure adm => cases hCall
    | _ => rfl
  have hControl : ref.control.serve ref.openDuration false e =
      cb.control.serve cb.openDuration (cb.trips e.now) e := by
    rw [h.control, h.openDuration]
    exact Control.serve_eq_of_not_record _ _ _ _ hCall
  rw [hRef, hControl]
  refine ⟨hAnswer, ?_⟩
  rw [cb.serve_eq_of_not_record hCall, hNext]
  exact h.withControl _

/-- One call: the same answer, and the refinement goes on. -/
theorem serve (h : Refines cb ref) (e : Event) :
    (cb.serve e).1 = (ref.serve e).1 ∧ Refines (cb.serve e).2 (ref.serve e).2 := by
  cases hCall : e.call with
  | recordSuccess adm =>
      simp only [CircuitBreaker.serve, LogBreaker.serve, hCall, true_and]
      exact h.recordSuccess adm e.now
  | recordFailure adm =>
      simp only [CircuitBreaker.serve, LogBreaker.serve, hCall, true_and]
      exact h.recordFailure adm e.now
  | _ => exact h.serve_of_not_record (by rw [hCall]; rfl)

/-- Whole runs, with any clock readings in any order. -/
theorem replay (h : Refines cb ref) (events : List Event) :
    (Semantics.replay CircuitBreaker.serve cb events).1 =
        (Semantics.replay LogBreaker.serve ref events).1 ∧
      Refines (Semantics.replay CircuitBreaker.serve cb events).2
        (Semantics.replay LogBreaker.serve ref events).2 :=
  replay_simulation (R := fun cb ref _ => Refines cb ref) (fun _ _ e _ h => h.serve e) cb ref events h

/-- The windows agree on whether one more failure at `now` is too many. -/
theorem trips (h : Refines cb ref) (now : Nat) :
    cb.trips now = decide ((ref.observe now).count true).overThreshold :=
  (h.observe now).countFailure.overThreshold

end Refines

/-- A closed circuit opens on a failure that reaches the threshold, and on
nothing else. -/
theorem CircuitBreaker.opens_from_closed_iff (cb : CircuitBreaker) (e : Event)
    (hClosed : cb.control.state = .closed) :
    (cb.serve e).2.control.state = .open ↔
      (∃ adm, e.call = .recordFailure adm) ∧ cb.trips e.now = true := by
  rw [(cb.serve_control e).2]
  have hNotOpen : cb.control.state ≠ .open := by simp [hClosed]
  have hFresh := Control.refresh_of_ne_open hNotOpen e.now cb.openDuration
  cases hCall : e.call with
  | recordFailure adm =>
      cases hTrips : cb.trips e.now <;> simp [Control.serve, hFresh, hCall, hClosed]
  | _ => simp [Control.serve, hFresh, hCall, hClosed]

/-- The breaker and the log-keeping reference cannot be told apart: over every
sequence of calls, with clock readings in any order, they answer alike, after
every record call the bucket sums are the counts of the verdicts less than
`window` seconds old, and a closed circuit opens exactly on the failures whose
counts reach the threshold. -/
theorem breaker_refines_log (start : Nat) (threshold : ℚ)
    (minRequests windowSecs openDurationSecs : Nat) (events : List Event) :
    let cb := replay CircuitBreaker.serve
      (.new start threshold minRequests windowSecs openDurationSecs) events
    let ref := replay LogBreaker.serve
      (.new start threshold minRequests windowSecs openDurationSecs) events
    cb.1 = ref.1 ∧ cb.2.control = ref.2.control ∧
    (∀ e : Event, e.call.isRecord = true →
      (cb.2.serve e).2.inner.totals = (ref.2.serve e).2.totals) ∧
    (∀ e : Event, cb.2.control.state = .closed →
      ((cb.2.serve e).2.control.state = .open ↔
        (∃ adm, e.call = .recordFailure adm) ∧
          ((ref.2.observe e.now).count true).overThreshold)) := by
  intro cb ref
  obtain ⟨hAnswers, hRefines⟩ :=
    (Refines.new start threshold minRequests windowSecs openDurationSecs).replay events
  refine ⟨hAnswers, hRefines.control.symm, ?_, ?_⟩
  · intro e _
    exact (hRefines.serve e).2.totals
  · intro e hClosed
    rw [cb.2.opens_from_closed_iff e hClosed, hRefines.trips, decide_eq_true_iff]

end InferenceRouter
