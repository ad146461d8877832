import InferenceRouter.CircuitBreaker.StaleVerdicts
import Mathlib.Data.List.ReduceOption

/-! Observers of a breaker: the metrics handler and the routable filter. Their
calls do the refresh that is due, so a run that is watched passes through other
states than the same run unwatched. No caller of the run can tell the two apart. -/
namespace InferenceRouter

open Semantics

/-- One call of a run that is watched. -/
inductive Watched where
  | call (e : Event)
  /-- A `state` that an observer put in. -/
  | state (now : Nat)
  /-- An `isRoutable` that an observer put in. -/
  | isRoutable (now : Nat)

namespace Watched

def event : Watched → Event
  | .call e => e
  | .state now => ⟨now, .state⟩
  | .isRoutable now => ⟨now, .isRoutable⟩

/-- The call, if it is one of the run itself. -/
def original : Watched → Option Event
  | .call e => some e
  | .state _ | .isRoutable _ => none

end Watched

namespace Inner

variable {n : Nat}

/-- A refresh and a later one are the later one. -/
theorem refresh_refresh (self : Inner n) {clock now : Nat} (d : Nat) (hClock : clock ≤ now) :
    (self.refresh clock d).refresh now d = self.refresh now d := by
  simp only [refresh_eq, Control.refresh_refresh hClock]

theorem refresh_eq_self_or_refresh (self : Inner n) {clock now : Nat} (d : Nat) (hClock : clock ≤ now) :
    self.refresh clock d = self ∨ self.refresh clock d = self.refresh now d := by
  rcases self.toControl.refresh_cases clock d with hSame | ⟨_, hHalf⟩
  · exact .inl (by rw [refresh_eq, hSame])
  · right
    have hSettled : (self.toControl.refresh clock d).refresh now d = self.toControl.refresh clock d :=
      Control.refresh_of_ne_open (by simp [hHalf]) now d
    rw [Control.refresh_refresh hClock] at hSettled
    rw [refresh_eq, refresh_eq, hSettled]

theorem totals_refresh (self : Inner n) (now d : Nat) : (self.refresh now d).totals = self.totals := by
  rw [refresh_eq]
  rfl

end Inner

namespace CircuitBreaker

/-- Serve one call and report its answer and the window totals after it. -/
def report (self : CircuitBreaker) (e : Event) : (Answer × Nat × Nat) × CircuitBreaker :=
  let (answer, next) := self.serve e
  ((answer, next.inner.totals), next)

/-- Serve one call of a watched run. What observers get is not reported. -/
def reportWatched (self : CircuitBreaker) (w : Watched) :
    Option (Answer × Nat × Nat) × CircuitBreaker :=
  match w.original with
  | some e => let (seen, next) := self.report e; (some seen, next)
  | none => (none, (self.serve w.event).2)

/-- The same with no observer there. -/
def reportUnwatched (self : CircuitBreaker) (w : Watched) :
    Option (Answer × Nat × Nat) × CircuitBreaker :=
  match w.original with
  | some e => let (seen, next) := self.report e; (some seen, next)
  | none => (none, self)

/-- `ahead` is `cb`, save that some observer may have done the refresh that was
due at `clock`. -/
def Ahead (clock : Nat) (cb ahead : CircuitBreaker) : Prop :=
  ahead = cb ∨ cb.control.probeInFlight = false ∧
    ahead = { cb with inner := cb.inner.refresh clock cb.openDuration }

variable {cb ahead : CircuitBreaker} {clock now : Nat} {e : Event}

theorem Ahead.mono (h : Ahead clock cb ahead) (hClock : clock ≤ now) : Ahead now cb ahead := by
  rcases h with rfl | ⟨hFlag, rfl⟩
  · exact .inl rfl
  · rcases cb.inner.refresh_eq_self_or_refresh cb.openDuration hClock with hSame | hLater
    · exact .inl (by rw [hSame])
    · exact .inr ⟨hFlag, by rw [hLater]⟩

theorem Ahead.totals (h : Ahead clock cb ahead) : ahead.inner.totals = cb.inner.totals := by
  rcases h with rfl | ⟨_, rfl⟩
  · rfl
  · exact cb.inner.totals_refresh clock cb.openDuration

/-- With no probe out, an abandon does nothing. -/
theorem abandon_of_not_inFlight (hFlag : cb.control.probeInFlight = false) (adm : Admission) :
    cb.abandon adm = cb := by
  have hInner : cb.inner.probeInFlight = false := hFlag
  simp only [abandon]
  split
  · rfl
  · split
    · rw [← hInner]
    · rfl

/-- Every call but an abandon begins with a refresh, so an earlier one is lost on it. -/
theorem serve_of_refresh (cb : CircuitBreaker) (hClock : clock ≤ e.now)
    (hCall : ∀ adm, e.call ≠ .abandon adm) :
    serve { cb with inner := cb.inner.refresh clock cb.openDuration } e = cb.serve e := by
  have hFresh := cb.inner.refresh_refresh cb.openDuration hClock
  cases h : e.call with
  | abandon adm => exact absurd h (hCall adm)
  | state => simp only [serve, h, state, hFresh]
  | isRoutable => simp only [serve, h, isRoutable, hFresh]
  | tryBegin => simp only [serve, h, tryBegin, hFresh]
  | recordSuccess adm => simp only [serve, h, recordSuccess, hFresh]
  | recordFailure adm =>
      simp only [serve, h, recordFailure, hFresh]
      rfl

/-- One call of the run is answered alike, and the two stay as close. -/
theorem Ahead.serve (h : Ahead clock cb ahead) (hClock : clock ≤ e.now) :
    (ahead.serve e).1 = (cb.serve e).1 ∧ Ahead e.now (cb.serve e).2 (ahead.serve e).2 := by
  rcases h with rfl | ⟨hFlag, rfl⟩
  · exact ⟨rfl, .inl rfl⟩
  by_cases hCall : ∃ adm, e.call = .abandon adm
  · obtain ⟨adm, hCall⟩ := hCall
    have hRefreshed : control { cb with inner := cb.inner.refresh clock cb.openDuration } =
        cb.control.refresh clock cb.openDuration := cb.inner.toControl_refresh _ _
    have hKept : Ahead e.now cb { cb with inner := cb.inner.refresh clock cb.openDuration } :=
      Ahead.mono (.inr ⟨hFlag, rfl⟩) hClock
    simp only [CircuitBreaker.serve, hCall, true_and]
    rw [abandon_of_not_inFlight hFlag, abandon_of_not_inFlight (by
      rw [hRefreshed, Control.refresh_probeInFlight]
      exact hFlag)]
    exact hKept
  · rw [cb.serve_of_refresh hClock fun adm hAbandon => hCall ⟨adm, hAbandon⟩]
    exact ⟨rfl, .inl rfl⟩

/-- A call of an observer puts the watched breaker ahead, and no more. -/
theorem Ahead.observe (h : Ahead clock cb ahead) (hProbe : cb.control.ProbeHalfOpen)
    (hClock : clock ≤ e.now) (hCall : e.call = .state ∨ e.call = .isRoutable) :
    Ahead e.now cb (ahead.serve e).2 := by
  have hRefreshed : (ahead.serve e).2 =
      { cb with inner := cb.inner.refresh e.now cb.openDuration } := by
    rcases h with rfl | ⟨_, rfl⟩
    · rcases hCall with hCall | hCall <;> simp only [CircuitBreaker.serve, hCall, state, isRoutable]
    · have hFresh := cb.inner.refresh_refresh cb.openDuration hClock
      rcases hCall with hCall | hCall <;>
        simp only [CircuitBreaker.serve, hCall, state, isRoutable, hFresh]
  rw [hRefreshed]
  cases hFlag : cb.control.probeInFlight with
  | false => exact .inr ⟨hFlag, rfl⟩
  | true =>
      have hSame : cb.inner.toControl.refresh e.now cb.openDuration = cb.inner.toControl :=
        Control.refresh_of_ne_open (fun hOpen => by cases hOpen.symm.trans (hProbe hFlag)) _ _
      exact .inl (by rw [Inner.refresh_eq, hSame])

/-- What the watched and the unwatched breaker have to do with each other. -/
structure InStep (ahead cb : CircuitBreaker) (rest : List Watched) (clock : Nat) : Prop where
  ahead : Ahead clock cb ahead
  probe : cb.control.ProbeHalfOpen
  later : ∀ w ∈ rest, clock ≤ w.event.now
  sorted : rest.Pairwise fun a b => a.event.now ≤ b.event.now

/-- One call of a watched run shows its caller what it shows with nobody watching. -/
theorem InStep.step {w : Watched} {rest : List Watched} (h : InStep ahead cb (w :: rest) clock) :
    (ahead.reportWatched w).1 = (cb.reportUnwatched w).1 ∧
      InStep (ahead.reportWatched w).2 (cb.reportUnwatched w).2 rest w.event.now := by
  have hClock : clock ≤ w.event.now := h.later w (List.mem_cons_self ..)
  obtain ⟨hLater, hSorted⟩ := List.pairwise_cons.mp h.sorted
  cases w with
  | call e =>
      obtain ⟨hAnswer, hAhead⟩ := h.ahead.serve (e := e) hClock
      have hProbe : (cb.serve e).2.control.ProbeHalfOpen := by
        rw [(cb.serve_control e).2]
        exact h.probe.serve _ _ _
      refine ⟨?_, hAhead, hProbe, hLater, hSorted⟩
      simp only [reportWatched, reportUnwatched, Watched.original, report, hAnswer, hAhead.totals]
  | state now | isRoutable now =>
      exact ⟨rfl, h.ahead.observe h.probe hClock (by simp [Watched.event]), h.probe, hLater, hSorted⟩

/-- Nobody watching, the run is that of its own calls. -/
theorem replay_reportUnwatched (cb : CircuitBreaker) (watched : List Watched) :
    (replay reportUnwatched cb watched).1.reduceOption =
      (replay report cb (watched.filterMap Watched.original)).1 := by
  induction watched generalizing cb with
  | nil => rfl
  | cons w rest ih =>
      cases w with
      | call e =>
          simp only [replay, reportUnwatched, Watched.original, List.filterMap_cons,
            List.reduceOption_cons_of_some, ih]
      | state now | isRoutable now =>
          simp only [replay, reportUnwatched, Watched.original, List.filterMap_cons,
            List.reduceOption_cons_of_none, ih]

/-- Observers do not influence a run: with their calls put in anywhere in the
order of the clock, all answers of the run and all totals of its window are
what they are without. -/
theorem observers_unnoticed (start : Nat) (threshold : ℚ) (minRequests windowSecs openDurationSecs : Nat)
    (watched : List Watched) (hClock : watched.Pairwise fun a b => a.event.now ≤ b.event.now) :
    let fresh := CircuitBreaker.new start threshold minRequests windowSecs openDurationSecs
    (replay reportWatched fresh watched).1.reduceOption =
      (replay report fresh (watched.filterMap Watched.original)).1 := by
  intro fresh
  have hProbe : fresh.control.ProbeHalfOpen :=
    probeHalfOpen_replay start threshold minRequests windowSecs openDurationSecs []
  have hStart : InStep fresh fresh watched 0 :=
    ⟨.inl rfl, hProbe, fun w _ => Nat.zero_le _, hClock⟩
  have hSame := (replay_simulation (R := fun ahead cb rest => ∃ clock, InStep ahead cb rest clock)
    (fun ahead cb w rest ⟨clock, h⟩ => ⟨h.step.1, _, h.step.2⟩) fresh fresh watched ⟨0, hStart⟩).1
  rw [hSame, replay_reportUnwatched]

/-- A circuit opens, is looked at before and after the open period is over, and
gives out its probe, which is handed back between two looks. -/
theorem observers_unnoticed_scraped :
    let fresh := CircuitBreaker.new 0 (1 / 2) 1 10 30
    let watched : List Watched :=
      [.call ⟨0, .tryBegin⟩, .call ⟨fromSecs 1, .recordFailure .normal⟩, .state (fromSecs 2),
        .isRoutable (fromSecs 31), .call ⟨fromSecs 31, .abandon .normal⟩, .state (fromSecs 32),
        .call ⟨fromSecs 33, .tryBegin⟩, .isRoutable (fromSecs 33), .call ⟨fromSecs 34, .abandon .probe⟩,
        .state (fromSecs 34), .call ⟨fromSecs 35, .tryBegin⟩]
    (replay reportWatched fresh watched).1.reduceOption =
      (replay report fresh (watched.filterMap Watched.original)).1 :=
  observers_unnoticed 0 (1 / 2) 1 10 30 _ (by decide)

end CircuitBreaker

end InferenceRouter
