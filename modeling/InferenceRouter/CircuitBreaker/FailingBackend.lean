import InferenceRouter.CircuitBreaker.OpenPeriod

/-! What a backend that keeps failing still gets. Between the opening of its circuit
and the next probe success it is given one request for each open period that has
passed, and one more for each probe whose client went away. -/
namespace InferenceRouter

open Semantics

/-- The answer admits a request. -/
def Answer.admits : Answer → Bool
  | .admission (some _) => true
  | _ => false

/-- A probe is handed back without a verdict. -/
def Event.handsBack (e : Event) : Bool := e.call = .abandon .probe

namespace Control

theorem refresh_openedAt (c : Control) (now d : Nat) : (c.refresh now d).openedAt = c.openedAt := by
  rcases c.refresh_cases now d with hSame | ⟨-, hHalf⟩
  · rw [hSame]
  · rw [hHalf]

/-- The account of a circuit that opened at `start` and has not closed since: the
requests `admitted` are paid for by the time until the last opening, by the probes
handed back, and by the probe that is out. -/
structure Rationed (start d admitted handedBack : Nat) (c : Control) : Prop where
  notClosed : c.state ≠ .closed
  paid : ∃ opened, c.openedAt = some opened ∧ start ≤ opened ∧
    admitted * d ≤ opened - start + handedBack * d + if c.probeInFlight then d else 0

namespace Rationed

variable {start d admitted handedBack tokens clock : Nat} {c : Control} {e : Event}

theorem refresh (h : Rationed start d admitted handedBack c) (now : Nat) :
    Rationed start d admitted handedBack (c.refresh now d) where
  notClosed := (refresh_state_closed_iff ..).not.mpr h.notClosed
  paid := by
    rw [refresh_openedAt, refresh_probeInFlight]
    exact h.paid

/-- Every call that is no probe success keeps the account. -/
theorem serve (h : Rationed start d admitted handedBack c) (hCoherent : Coherent c tokens)
    (hDated : Dated c d clock) (trips : Bool) (hClock : clock ≤ e.now) (hSpent : e.spent ≤ tokens)
    (hNoSuccess : e.call ≠ .recordSuccess .probe) :
    Rationed start d (admitted + if (c.serve d trips e).1.admits then 1 else 0)
      (handedBack + if e.handsBack then 1 else 0) (c.serve d trips e).2 := by
  have hFresh := h.refresh e.now
  have hNotClosed := hFresh.notClosed
  obtain ⟨now, call⟩ := e
  cases call with
  | state | isRoutable => exact hFresh
  | tryBegin =>
      simp only [Control.serve, hNotClosed, if_false]
      split
      · rename_i hClaim
        obtain ⟨opened, hOpened, hStart, hPaid⟩ := hFresh.paid
        rw [hClaim.2] at hPaid
        refine ⟨hNotClosed, opened, hOpened, hStart, ?_⟩
        simp only [Answer.admits, Event.handsBack, if_true, reduceCtorEq, decide_false,
          Bool.false_eq_true, if_false, Nat.add_zero, Nat.add_mul, Nat.one_mul] at hPaid ⊢
        omega
      · exact hFresh
  | recordSuccess adm =>
      have hNormal : adm ≠ .probe := fun hProbe => hNoSuccess (by rw [hProbe])
      simpa [Control.serve, hNormal, Answer.admits, Event.handsBack] using hFresh
  | recordFailure adm =>
      cases adm with
      | normal => simpa [Control.serve, hNotClosed, Answer.admits, Event.handsBack] using hFresh
      | probe =>
          obtain ⟨hHalf, hFlag⟩ := hCoherent.of_token hSpent
          obtain ⟨opened, hOpened, hStart, hPaid⟩ := h.paid
          have hDue := hDated.due hHalf opened hOpened
          simp only [Control.serve, hCoherent.refresh_of_token hSpent, hHalf, and_self, if_true]
          refine ⟨by simp, now, rfl, by dsimp only at hClock; omega, ?_⟩
          rw [hFlag, if_pos rfl] at hPaid
          simp only [Answer.admits, Event.handsBack, reduceCtorEq, decide_false, Bool.false_eq_true,
            if_false, Nat.add_zero]
          dsimp only at hClock
          omega
  | abandon adm =>
      cases adm with
      | normal => simpa [Control.serve, Answer.admits, Event.handsBack] using h
      | probe =>
          obtain ⟨hHalf, hFlag⟩ := hCoherent.of_token hSpent
          obtain ⟨opened, hOpened, hStart, hPaid⟩ := h.paid
          rw [hFlag, if_pos rfl] at hPaid
          simp only [Control.serve, hHalf, and_self, if_true]
          refine ⟨by simp, opened, hOpened, hStart, ?_⟩
          simp only [Answer.admits, Event.handsBack, decide_true, if_true, Bool.false_eq_true,
            if_false, Nat.add_zero, Nat.add_mul, Nat.one_mul]
          omega

/-- What is paid for lies in the past. -/
theorem admitted_le (h : Rationed start d admitted handedBack c) (hCoherent : Coherent c tokens)
    (hDated : Dated c d clock) : admitted * d ≤ clock - start + handedBack * d := by
  obtain ⟨opened, hOpened, hStart, hPaid⟩ := h.paid
  obtain ⟨_, hSame, hPast⟩ := hDated.opened h.notClosed
  rw [hOpened, Option.some.injEq] at hSame
  subst hSame
  cases hFlag : c.probeInFlight with
  | false =>
      rw [hFlag, if_neg Bool.false_ne_true] at hPaid
      omega
  | true =>
      have hDue := hDated.due (hCoherent.halfOpen hFlag) opened hOpened
      rw [hFlag, if_pos rfl] at hPaid
      omega

end Rationed

end Control

namespace Session

variable {s t u : Session} {d : Nat} {label : Event × Answer} {labels : List (Event × Answer)}

theorem step_serve {e : Event} {answer : Answer} (hAdmits : s.Admits e)
    (hAnswer : (s.serve e).1 = answer) : Step s (e, answer) (s.serve e).2 :=
  ⟨hAdmits, Prod.ext hAnswer rfl⟩

/-- The requests admitted in a part of a session. -/
def admitted (labels : List (Event × Answer)) : Nat := labels.countP fun label => label.2.admits

/-- The probes handed back in a part of a session. -/
def handedBack (labels : List (Event × Answer)) : Nat := labels.countP fun label => label.1.handsBack

theorem rationed_of_run {start n m : Nat} (run : Run Step s labels t) (hValid : s.Valid d)
    (h : s.control.Rationed start d n m)
    (hNoSuccess : ∀ label ∈ labels, label.1.call ≠ .recordSuccess .probe) :
    t.control.Rationed start d (n + admitted labels) (m + handedBack labels) := by
  induction run generalizing n m with
  | nil => exact h
  | @cons _ _ _ label labels first _ ih =>
      obtain ⟨trips, hControl⟩ := first.control_eq
      rw [hValid.openDuration] at hControl
      have hNext := h.serve hValid.coherent hValid.dated trips first.1.1 first.1.2
        (hNoSuccess label (List.mem_cons_self ..))
      rw [hControl] at hNext
      have hRest := ih (first.valid hValid) hNext fun l hMem => hNoSuccess l (List.mem_cons_of_mem _ hMem)
      simp only [admitted, handedBack, List.countP_cons] at hRest ⊢
      rwa [Nat.add_assoc, Nat.add_comm _ (List.countP _ _), Nat.add_assoc,
        Nat.add_comm _ (List.countP _ _)] at hRest

/-- While it keeps failing, a backend whose circuit opened gets no more than one
request for each open period since, and one for each probe that was handed back. -/
theorem failing_backend_rationed (start : Nat) (threshold : ℚ)
    (minRequests windowSecs openDurationSecs : Nat) {labels between : List (Event × Answer)}
    (run : Run Step (Session.start start threshold minRequests windowSecs openDurationSecs) labels s)
    (step : Step s label t) (hOpens : Opens s t) (later : Run Step t between u)
    (hNoSuccess : ∀ label ∈ between, label.1.call ≠ .recordSuccess .probe) :
    admitted between * fromSecs openDurationSecs ≤
      u.clock - label.1.now + handedBack between * fromSecs openDurationSecs := by
  have hValid : s.Valid (fromSecs openDurationSecs) :=
    valid_of_run run (valid_start start threshold minRequests windowSecs openDurationSecs)
  have hOpened := step.valid hValid
  have hStart : t.control.Rationed label.1.now (fromSecs openDurationSecs) 0 0 := by
    obtain ⟨trips, hControl⟩ := step.control_eq
    have hEq := Control.serve_of_opens (d := s.breaker.openDuration) trips (e := label.1)
      hValid.coherent hOpens.1 (by rw [hControl]; exact hOpens.2)
    rw [hControl] at hEq
    dsimp only at hEq
    rw [hEq]
    exact ⟨by simp, label.1.now, rfl, Nat.le_refl _, by simp⟩
  have hEnd := rationed_of_run later hOpened hStart hNoSuccess
  have hLast := valid_of_run later hOpened
  simpa using hEnd.admitted_le hLast.coherent hLast.dated

/-- An open period of one second: two requests in two seconds, and both fail. -/
theorem failing_backend_rationed_two :
    let second := fromSecs 1
    let between : List (Event × Answer) :=
      [(⟨second, .tryBegin⟩, .admission (some .probe)), (⟨second, .tryBegin⟩, .admission none),
        (⟨second, .recordFailure .probe⟩, .unit), (⟨2 * second, .tryBegin⟩, .admission (some .probe))]
    admitted between * second ≤ 2 * second - 0 + handedBack between * second ∧ admitted between = 2 := by
  intro second between
  let fresh := Session.start 0 1 1 1 1
  let tripped := (fresh.serve ⟨0, .recordFailure .normal⟩).2
  let probed := (tripped.serve ⟨second, .tryBegin⟩).2
  let refused := (probed.serve ⟨second, .tryBegin⟩).2
  let failed := (refused.serve ⟨second, .recordFailure .probe⟩).2
  have hTrip : Step fresh (⟨0, .recordFailure .normal⟩, .unit) tripped :=
    step_serve ⟨Nat.le_refl _, by decide⟩ rfl
  have hOpens : Opens fresh tripped := ⟨by decide +kernel, by decide +kernel⟩
  have hProbe : Step tripped (⟨second, .tryBegin⟩, .admission (some .probe)) probed :=
    step_serve ⟨by decide, by decide⟩ (by decide +kernel)
  have hRefuse : Step probed (⟨second, .tryBegin⟩, .admission none) refused :=
    step_serve ⟨by decide, by decide⟩ (by decide +kernel)
  have hFail : Step refused (⟨second, .recordFailure .probe⟩, .unit) failed :=
    step_serve ⟨by decide, by decide +kernel⟩ rfl
  have hAgain : Step failed (⟨2 * second, .tryBegin⟩, .admission (some .probe))
      (failed.serve ⟨2 * second, .tryBegin⟩).2 :=
    step_serve ⟨by decide, by decide⟩ (by decide +kernel)
  have hLater : Run Step tripped between (failed.serve ⟨2 * second, .tryBegin⟩).2 :=
    .cons hProbe (.cons hRefuse (.cons hFail (.cons hAgain (.nil _))))
  have hClock : (failed.serve ⟨2 * second, .tryBegin⟩).2.clock = 2 * second := rfl
  have hBound := failing_backend_rationed 0 1 1 1 1 (.nil fresh) hTrip hOpens hLater (by simp [between])
  rw [hClock] at hBound
  exact ⟨hBound, by decide⟩

end Session

end InferenceRouter
