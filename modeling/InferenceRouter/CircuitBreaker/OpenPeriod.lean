import InferenceRouter.CircuitBreaker.Session

/-! Timing of the open period and the legal transitions, over whole sessions.
No token is out when the circuit opens, so until the open period is over every
call leaves control as it was, however late the verdicts that arrive. -/
namespace InferenceRouter

open Semantics

namespace Control

/-- The moves a call may make. Time alone moves `Open`, and only a probe's own
verdict moves `HalfOpen`. -/
inductive LegalMove (d : Nat) (e : Event) (before after : Control) : Prop where
  | stay (h : after.state = before.state)
  | trip (hBefore : before.state = .closed) (hAfter : after.state = .open)
      (adm : Admission) (hCall : e.call = .recordFailure adm)
  | due (hBefore : before.state = .open) (hAfter : after.state = .halfOpen)
      (opened : Nat) (hOpened : before.openedAt = some opened) (hDue : opened + d ≤ e.now)
  | recover (hBefore : before.state = .halfOpen) (hAfter : after.state = .closed)
      (hCall : e.call = .recordSuccess .probe)
  | reopen (hBefore : before.state = .halfOpen) (hAfter : after.state = .open)
      (hCall : e.call = .recordFailure .probe)

/-- Control while the circuit that opened at `opened` has issued no probe yet. -/
def Awaiting (opened d clock : Nat) (c : Control) : Prop :=
  c = ⟨.open, some opened, false⟩ ∧ opened ≤ clock ∨
    c = ⟨.halfOpen, some opened, false⟩ ∧ opened + d ≤ clock

variable {c : Control} {tokens clock opened d : Nat} (trips : Bool) {e : Event}

theorem legalMove_refresh (hDated : Dated c d clock) (hClock : clock ≤ e.now) :
    LegalMove d e c (c.refresh e.now d) := by
  by_cases hOpen : c.state = .open
  · obtain ⟨opened, hOpened, hLe⟩ := hDated.opened (by simp [hOpen])
    by_cases hDue : opened + d ≤ e.now
    · exact .due hOpen (by rw [refresh_of_le hOpen hOpened hDue]) opened hOpened hDue
    · exact .stay (by rw [refresh_of_lt hOpened (hLe.trans hClock) (by omega)])
  · exact .stay (by rw [refresh_of_ne_open hOpen])

/-- With tokens used only as issued, no call makes two moves at once. -/
theorem legalMove_serve (hCoherent : Coherent c tokens) (hDated : Dated c d clock)
    (hClock : clock ≤ e.now) (hSpent : e.spent ≤ tokens) :
    LegalMove d e c (c.serve d trips e).2 := by
  have hFresh := legalMove_refresh hDated hClock
  have hProbe (hCall : e.call.returns .probe = true) :
      c.state = .halfOpen ∧ c.refresh e.now d = c := by
    have hToken : 0 < tokens := by
      simp only [Event.spent, hCall, if_true] at hSpent
      omega
    exact ⟨(hCoherent.of_token hToken).1, hCoherent.refresh_of_token hToken _ _⟩
  cases hCall : e.call with
  | state | isRoutable => simpa only [Control.serve, hCall] using hFresh
  | tryBegin =>
      have hState : (c.serve d trips e).2.state = (c.refresh e.now d).state := by
        simp only [Control.serve, hCall]
        split
        · rfl
        · split <;> rfl
      cases hFresh with
      | stay h => exact .stay (hState.trans h)
      | due hBefore hAfter opened hOpened hDue =>
          exact .due hBefore (hState.trans hAfter) opened hOpened hDue
      | trip _ _ _ h | recover _ _ h | reopen _ _ h => simp [hCall] at h
  | recordSuccess adm =>
      cases adm with
      | normal => simpa [Control.serve, hCall] using hFresh
      | probe =>
          obtain ⟨hHalf, hSame⟩ := hProbe (by simp [hCall, Call.returns])
          exact .recover hHalf (by simp [Control.serve, hCall, hSame, hHalf]) hCall
  | recordFailure adm =>
      cases adm with
      | normal =>
          by_cases hTrip : (c.refresh e.now d).state = .closed ∧ trips = true
          · refine .trip ((refresh_state_closed_iff ..).mp hTrip.1) ?_ .normal hCall
            simp [Control.serve, hCall, hTrip]
          · simpa [Control.serve, hCall, hTrip] using hFresh
      | probe =>
          obtain ⟨hHalf, hSame⟩ := hProbe (by simp [hCall, Call.returns])
          exact .reopen hHalf (by simp [Control.serve, hCall, hSame, hHalf]) hCall
  | abandon adm =>
      refine .stay ?_
      simp only [Control.serve, hCall]
      split <;> rfl

/-- The circuit opens with the opening instant set and no probe out. -/
theorem serve_of_opens (hCoherent : Coherent c tokens) (hBefore : c.state ≠ .open)
    (hAfter : (c.serve d trips e).2.state = .open) :
    (c.serve d trips e).2 = ⟨.open, some e.now, false⟩ := by
  have hSame := refresh_of_ne_open hBefore e.now d
  simp only [Control.serve, hSame] at hAfter ⊢
  cases hCall : e.call with
  | recordFailure adm =>
      simp only [hCall] at hAfter ⊢
      split at hAfter
      · simp [*]
      · split at hAfter
        · rename_i hTrip
          simp [*, hCoherent.of_closed hTrip.1]
        · exact absurd hAfter hBefore
  | tryBegin =>
      simp only [hCall] at hAfter
      split at hAfter
      · exact absurd hAfter hBefore
      · split at hAfter <;> exact absurd hAfter hBefore
  | recordSuccess adm =>
      simp only [hCall] at hAfter
      split at hAfter
      · cases hAfter
      · exact absurd hAfter hBefore
  | abandon adm =>
      simp only [hCall] at hAfter
      split at hAfter <;> exact absurd hAfter hBefore
  | state | isRoutable =>
      simp only [hCall] at hAfter
      exact absurd hAfter hBefore

theorem Awaiting.probeInFlight (h : Awaiting opened d clock c) : c.probeInFlight = false := by
  rcases h with ⟨rfl, _⟩ | ⟨rfl, _⟩ <;> rfl

/-- Refreshing keeps waiting for the end of the open period. -/
theorem Awaiting.refresh (h : Awaiting opened d clock c) (hClock : clock ≤ e.now) :
    Awaiting opened d e.now (c.refresh e.now d) := by
  rcases h with ⟨rfl, hPast⟩ | ⟨rfl, hDue⟩
  · by_cases hDue : opened + d ≤ e.now
    · exact .inr ⟨refresh_of_le rfl rfl hDue, hDue⟩
    · exact .inl ⟨refresh_of_lt rfl (hPast.trans hClock) (by omega), hPast.trans hClock⟩
  · exact .inr ⟨refresh_of_ne_open (by simp) _ _, hDue.trans hClock⟩

theorem Awaiting.state_ne_closed (h : Awaiting opened d clock c) : c.state ≠ .closed := by
  rcases h with ⟨rfl, _⟩ | ⟨rfl, _⟩ <;> simp

/-- Whatever is called without a token, short of a `tryBegin` after the open
period, keeps waiting. -/
theorem Awaiting.serve (h : Awaiting opened d clock c) (hClock : clock ≤ e.now)
    (hSpent : e.call.returns .probe = false)
    (hEarly : e.call = .tryBegin → e.now < opened + d) :
    Awaiting opened d e.now (c.serve d trips e).2 := by
  have hFresh := h.refresh hClock
  have hNotClosed := hFresh.state_ne_closed
  simp only [Control.serve]
  cases hCall : e.call with
  | state | isRoutable => exact hFresh
  | tryBegin =>
      have hNotHalf : (c.refresh e.now d).state ≠ .halfOpen := by
        have hNow := hEarly hCall
        rcases hFresh with ⟨hEq, _⟩ | ⟨_, hDue⟩
        · simp [hEq]
        · omega
      simpa [hNotClosed, hNotHalf] using hFresh
  | recordSuccess adm | recordFailure adm =>
      have hNormal : adm ≠ .probe := by simpa [hCall, Call.returns] using hSpent
      simpa [hNormal, hNotClosed] using hFresh
  | abandon adm =>
      have hNormal : adm ≠ .probe := by simpa [hCall, Call.returns] using hSpent
      simp only [hNormal, and_false, if_false]
      rcases h with ⟨rfl, hPast⟩ | ⟨rfl, hDue⟩
      · exact .inl ⟨rfl, hPast.trans hClock⟩
      · exact .inr ⟨rfl, hDue.trans hClock⟩

/-- Before the end of the open period nobody is admitted, after it a probe is. -/
theorem Awaiting.tryBegin (h : Awaiting opened d clock c) (hClock : clock ≤ e.now)
    (hCall : e.call = .tryBegin) :
    (c.serve d trips e).1 =
      .admission (if e.now < opened + d then none else some .probe) := by
  have hFresh := h.refresh hClock
  simp only [Control.serve, hCall]
  by_cases hDue : opened + d ≤ e.now
  · have hHalf : c.refresh e.now d = ⟨.halfOpen, some opened, false⟩ := by
      rcases h with ⟨rfl, _⟩ | ⟨rfl, _⟩
      · exact refresh_of_le rfl rfl hDue
      · exact refresh_of_ne_open (by simp) _ _
    simp [hHalf, Nat.not_lt.mpr hDue]
  · have hOpen : c.refresh e.now d = ⟨.open, some opened, false⟩ := by
      rcases hFresh with ⟨hEq, _⟩ | ⟨_, hPast⟩
      · exact hEq
      · exact absurd hPast hDue
    simp [hOpen, Nat.lt_of_not_le hDue]

theorem tryBegin_ne_normal (h : c.state ≠ .closed) (hCall : e.call = .tryBegin) :
    (c.serve d trips e).1 ≠ .admission (some .normal) := by
  have hFresh : (c.refresh e.now d).state ≠ .closed := by
    rwa [Ne, refresh_state_closed_iff]
  simp only [Control.serve, hCall, hFresh, if_false]
  split <;> simp

/-- With no probe out, the backend is offered and admits once the open period,
if there is one, is over. -/
theorem admits_of_no_token (hCoherent : Coherent c 0) (hDated : Dated c d clock)
    (now : Nat) (hDue : ∀ opened, c.openedAt = some opened → opened + d ≤ now) :
    (c.serve d trips ⟨now, .isRoutable⟩).1 = .routable true ∧
      (c.serve d trips ⟨now, .tryBegin⟩).1 ≠ .admission none := by
  have hFlag := hCoherent.eq_zero_iff.mp rfl
  simp only [Control.serve]
  cases hState : c.state with
  | closed => simp [refresh_of_ne_open, hState]
  | halfOpen => simp [refresh_of_ne_open, hState, hFlag]
  | «open» =>
      obtain ⟨opened, hOpened, _⟩ := hDated.opened (by simp [hState])
      simp [refresh_of_le hState hOpened (hDue opened hOpened), hFlag]

end Control

namespace Session

/-- (b) Timing of the open period that `opened` began, for the `tryBegin` after
`between`: refused before its end, the first one after it gets a probe. -/
def OpenPeriodKept (opened d : Nat) (between : List (Event × Answer)) (now : Nat)
    (answer : Answer) : Prop :=
  (now < opened + d → answer = .admission none) ∧
    (opened + d ≤ now →
      (∀ label ∈ between, label.1.call = .tryBegin → label.1.now < opened + d) →
        answer = .admission (some .probe))

def Opens (s t : Session) : Prop := s.control.state ≠ .open ∧ t.control.state = .open

variable {s t u v : Session} {d : Nat} {label : Event × Answer} {between : List (Event × Answer)}

theorem awaiting_of_opens (hValid : s.Valid d) (step : Step s label t) (hOpens : Opens s t) :
    t.control.Awaiting label.1.now d t.clock := by
  obtain ⟨trips, hControl⟩ := step.control_eq
  have hEq := Control.serve_of_opens (d := s.breaker.openDuration) trips (e := label.1)
    hValid.coherent hOpens.1 (by rw [hControl]; exact hOpens.2)
  rw [hControl] at hEq
  exact .inl ⟨hEq, step.clock_eq.ge⟩

/-- No token is out while a circuit awaits the end of its open period. -/
theorem Step.awaiting {opened : Nat} (step : Step s label t) (hValid : s.Valid d)
    (h : s.control.Awaiting opened d s.clock)
    (hEarly : label.1.call = .tryBegin → label.1.now < opened + d) :
    t.control.Awaiting opened d t.clock := by
  obtain ⟨trips, hControl⟩ := step.control_eq
  rw [hValid.openDuration] at hControl
  have hNone : s.tokens = 0 := hValid.coherent.eq_zero_iff.mpr h.probeInFlight
  have hSpent : label.1.call.returns .probe = false := by
    have hOwned := step.1.2
    rw [hNone, Event.spent] at hOwned
    cases hReturns : label.1.call.returns .probe with
    | false => rfl
    | true => simp [hReturns] at hOwned
  have hNext := h.serve trips step.1.1 hSpent hEarly
  rw [hControl] at hNext
  rw [step.clock_eq]
  exact hNext

theorem awaiting_of_run {opened : Nat} (run : Run Step s between t) (hValid : s.Valid d)
    (h : s.control.Awaiting opened d s.clock)
    (hEarly : ∀ label ∈ between, label.1.call = .tryBegin → label.1.now < opened + d) :
    t.control.Awaiting opened d t.clock := by
  have hBoth := run.invariant_of_mem (fun s => s.Valid d ∧ s.control.Awaiting opened d s.clock)
    (fun s label hm t hInv step =>
      ⟨step.valid hInv.1, step.awaiting hInv.1 hInv.2 (hEarly label hm)⟩) ⟨hValid, h⟩
  exact hBoth.2

theorem openPeriodKept_of_opens (hValid : s.Valid d) (step : Step s label t) (hOpens : Opens s t)
    (run : Run Step t between u) {now : Nat} {answer : Answer}
    (last : Step u (⟨now, .tryBegin⟩, answer) v) :
    OpenPeriodKept label.1.now d between now answer := by
  have hAwaiting := awaiting_of_opens hValid step hOpens
  have hAnswer (hEarly : ∀ l ∈ between, l.1.call = .tryBegin → l.1.now < label.1.now + d) :
      answer = .admission (if now < label.1.now + d then none else some .probe) := by
    have hLast := awaiting_of_run run (step.valid hValid) hAwaiting hEarly
    obtain ⟨trips, hControl⟩ := last.control_eq
    rw [(valid_of_run run (step.valid hValid)).openDuration] at hControl
    have hTry := hLast.tryBegin trips (e := ⟨now, .tryBegin⟩) last.1.1 rfl
    rw [hControl] at hTry
    exact hTry
  constructor
  · intro hNow
    rw [hAnswer (fun l hm _ => ((now_le_of_run run).2 l hm).trans_lt
      (last.1.1.trans_lt hNow)), if_pos hNow]
  · intro hNow hEarly
    rw [hAnswer hEarly, if_neg (Nat.not_lt.mpr hNow)]

/-- (c) No normal admission until a probe succeeds. -/
theorem tryBegin_ne_normal_of_run (hState : s.control.state ≠ .closed) (run : Run Step s between t)
    (hNoSuccess : ∀ label ∈ between, label.1.call ≠ .recordSuccess .probe) {now : Nat}
    {answer : Answer} (last : Step t (⟨now, .tryBegin⟩, answer) u) :
    answer ≠ .admission (some .normal) := by
  have hLast : t.control.state ≠ .closed := by
    refine run.invariant_of_mem (fun s => s.control.state ≠ .closed) ?_ hState
    intro s label hm t hInv step
    obtain ⟨trips, hControl⟩ := step.control_eq
    intro hClosed
    rw [show t.control = _ from (congrArg Prod.snd hControl).symm] at hClosed
    exact hNoSuccess label hm (Control.serve_closes hInv hClosed).1
  obtain ⟨trips, hControl⟩ := last.control_eq
  have hAnswer := Control.tryBegin_ne_normal (d := t.breaker.openDuration) trips
    (e := ⟨now, .tryBegin⟩) hLast rfl
  rwa [hControl] at hAnswer

/-- (d) An open circuit knows when it opened, and with no probe out it takes
nothing but time for the backend to be offered and to admit again. -/
def NeverStuck (s : Session) (d : Nat) : Prop :=
  (s.control.state = .open → ∃ opened, s.control.openedAt = some opened) ∧
    (s.tokens = 0 → ∀ now, (∀ opened, s.control.openedAt = some opened → opened + d ≤ now) →
      (s.breaker.isRoutable now).1 = true ∧ (s.breaker.tryBegin now).1 ≠ none)

theorem Valid.neverStuck (h : s.Valid d) : s.NeverStuck d := by
  constructor
  · intro hOpen
    obtain ⟨opened, hOpened, _⟩ := h.dated.opened (by simp [hOpen])
    exact ⟨opened, hOpened⟩
  · intro hTokens now hDue
    obtain ⟨hRoutable, hAdmits⟩ := Control.admits_of_no_token (s.breaker.trips now)
      (hTokens ▸ h.coherent) h.dated now hDue
    rw [← h.openDuration] at hRoutable hAdmits
    have hServeRoutable := (s.breaker.serve_control ⟨now, .isRoutable⟩).1
    have hServeTry := (s.breaker.serve_control ⟨now, .tryBegin⟩).1
    exact ⟨Answer.routable.inj (hServeRoutable.trans hRoutable),
      fun hNone => hAdmits (hServeTry.symm.trans (congrArg Answer.admission hNone))⟩

/-- The contract of the open period, after any session with a fresh breaker. -/
theorem open_period_contract (start : Nat) (threshold : ℚ)
    (minRequests windowSecs openDurationSecs : Nat) {labels : List (Event × Answer)} {s : Session}
    (run : Run Step (Session.start start threshold minRequests windowSecs openDurationSecs) labels s) :
    (∀ label t, Step s label t →
      Control.LegalMove (fromSecs openDurationSecs) label.1 s.control t.control) ∧
    (∀ label t, Step s label t → Opens s t → ∀ between u, Run Step t between u →
      ∀ now answer v, Step u (⟨now, .tryBegin⟩, answer) v →
        OpenPeriodKept label.1.now (fromSecs openDurationSecs) between now answer) ∧
    (∀ label t, Step s label t → Opens s t → ∀ between u, Run Step t between u →
      (∀ label ∈ between, label.1.call ≠ .recordSuccess .probe) →
      ∀ now answer v, Step u (⟨now, .tryBegin⟩, answer) v → answer ≠ .admission (some .normal)) ∧
    s.NeverStuck (fromSecs openDurationSecs) := by
  have hValid : s.Valid (fromSecs openDurationSecs) :=
    valid_of_run run (valid_start start threshold minRequests windowSecs openDurationSecs)
  refine ⟨?_, ?_, ?_, hValid.neverStuck⟩
  · intro label t step
    obtain ⟨trips, hControl⟩ := step.control_eq
    rw [hValid.openDuration] at hControl
    have hMove := Control.legalMove_serve trips hValid.coherent hValid.dated step.1.1 step.1.2
    rwa [hControl] at hMove
  · intro label t step hOpens between u runBetween now answer v last
    exact openPeriodKept_of_opens hValid step hOpens runBetween last
  · intro label t step hOpens between u runBetween hNoSuccess now answer v last
    exact tryBegin_ne_normal_of_run (by simp [hOpens.2]) runBetween hNoSuccess last

/-- One failure trips the circuit for a second, and the call at the end of that
second gets the probe. -/
theorem open_period_contract_trip :
    let fresh := Session.start 0 1 1 1 1
    let tripped := (fresh.serve ⟨0, .recordFailure .normal⟩).2
    Opens fresh tripped ∧
      OpenPeriodKept 0 (fromSecs 1) [] 1000000000 (tripped.serve ⟨1000000000, .tryBegin⟩).1 ∧
      (tripped.serve ⟨1000000000, .tryBegin⟩).1 = .admission (some .probe) := by
  intro fresh tripped
  have hTrip : Step fresh (⟨0, .recordFailure .normal⟩, .unit) tripped :=
    ⟨⟨Nat.le_refl _, by decide⟩, rfl⟩
  have hOpens : Opens fresh tripped := ⟨by decide +kernel, by decide +kernel⟩
  refine ⟨hOpens, ?_, by decide +kernel⟩
  exact (open_period_contract 0 1 1 1 1 (.nil fresh)).2.1 _ _ hTrip hOpens _ _ (.nil tripped) _ _ _
    ⟨⟨Nat.zero_le _, by decide⟩, rfl⟩

end Session

end InferenceRouter
