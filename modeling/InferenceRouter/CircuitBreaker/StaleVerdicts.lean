import InferenceRouter.CircuitBreaker.WindowRefinement

/-! Verdicts of requests that were admitted before the circuit opened. Until a
probe closes the circuit they leave no trace, since the window they are counted
in is thrown away. After that they are verdicts like any other. -/
namespace InferenceRouter

open Semantics

namespace Control

/-- The probe flag is up in `HalfOpen` only, whoever calls. -/
def ProbeHalfOpen (c : Control) : Prop := c.probeInFlight = true → c.state = .halfOpen

/-- `ahead` is `c`, save that it may have done the refresh at `clock` already. -/
def UpToRefresh (clock d : Nat) (c ahead : Control) : Prop :=
  ahead = c ∨ c.probeInFlight = false ∧ ahead = c.refresh clock d

variable {c ahead : Control} {clock now d : Nat} {e : Event}

theorem ProbeHalfOpen.refresh (h : c.ProbeHalfOpen) (now d : Nat) :
    (c.refresh now d).ProbeHalfOpen := by
  rcases c.refresh_cases now d with hSame | ⟨_, hHalf⟩
  · rwa [hSame]
  · rw [hHalf]
    exact fun _ => rfl

theorem ProbeHalfOpen.serve (h : c.ProbeHalfOpen) (d : Nat) (trips : Bool) (e : Event) :
    (c.serve d trips e).2.ProbeHalfOpen := by
  have hFresh := h.refresh e.now d
  simp only [Control.serve]
  cases e.call with
  | state | isRoutable => exact hFresh
  | tryBegin =>
      dsimp only
      split
      · exact hFresh
      · split
        · rename_i hClaim
          exact fun _ => hClaim.1
        · exact hFresh
  | recordSuccess adm =>
      dsimp only
      split
      · exact fun hFlag => absurd hFlag (by simp)
      · exact hFresh
  | recordFailure adm =>
      dsimp only
      split
      · exact fun hFlag => absurd hFlag (by simp)
      · split
        · rename_i hTrip
          exact fun hFlag => absurd (hFresh hFlag) (by simp [hTrip.1])
        · exact hFresh
  | abandon adm =>
      dsimp only
      split
      · exact fun hFlag => absurd hFlag (by simp)
      · exact h

/-- A second refresh finds nothing left to do. -/
theorem refresh_refresh (hClock : clock ≤ now) :
    (c.refresh clock d).refresh now d = c.refresh now d := by
  by_cases hOpen : c.state = .open
  · cases hOpened : c.openedAt with
    | none => simp [refresh, hOpen, hOpened]
    | some opened =>
        by_cases hDue : d ≤ clock - opened
        · have hLater : d ≤ now - opened := by omega
          simp [refresh, hOpen, hOpened, saturatingDurationSince, hDue, hLater]
        · simp [refresh, hOpen, hOpened, saturatingDurationSince, hDue]
  · rw [refresh_of_ne_open hOpen]

theorem UpToRefresh.refresh (h : UpToRefresh clock d c ahead) (hClock : clock ≤ now) :
    ahead.refresh now d = c.refresh now d := by
  rcases h with rfl | ⟨_, rfl⟩
  · rfl
  · exact refresh_refresh hClock

/-- Where no probe is out there is none to hand back. -/
theorem handedBack_of_not_inFlight (hFlag : c.probeInFlight = false) {adm : Admission} :
    (if c.state = .halfOpen ∧ adm = .probe then { c with probeInFlight := false } else c) = c := by
  split
  · rw [← hFlag]
  · rfl

/-- Away from `Closed`, the two answer alike and stay as close as they were,
whatever the windows say. -/
theorem UpToRefresh.serve (h : UpToRefresh clock d c ahead) (hState : c.state ≠ .closed)
    (trips trips' : Bool) (hClock : clock ≤ e.now) :
    (ahead.serve d trips' e).1 = (c.serve d trips e).1 ∧
      UpToRefresh clock d (c.serve d trips e).2 (ahead.serve d trips' e).2 := by
  have hFresh := h.refresh hClock
  have hNotClosed : (c.refresh e.now d).state ≠ .closed := by
    rwa [Ne, refresh_state_closed_iff]
  simp only [Control.serve, hFresh]
  cases e.call with
  | state | isRoutable | tryBegin | recordSuccess adm => exact ⟨rfl, .inl rfl⟩
  | recordFailure adm =>
      simp only [hNotClosed, false_and, if_false, true_and]
      exact .inl rfl
  | abandon adm =>
      -- The one call that does not refresh.
      refine ⟨rfl, ?_⟩
      rcases h with rfl | ⟨hFlag, rfl⟩
      · exact .inl rfl
      · dsimp only
        rw [handedBack_of_not_inFlight hFlag,
          handedBack_of_not_inFlight ((c.refresh_probeInFlight clock d).trans hFlag)]
        exact .inr ⟨hFlag, rfl⟩

end Control

namespace CircuitBreaker

/-- `ahead` differs from `cb` in what cannot be seen: a refresh done early, and
a window that no one will read before it is cleared. -/
def Shadows (clock : Nat) (cb ahead : CircuitBreaker) : Prop :=
  ∃ inner : Inner cb.window, ahead = { cb with inner } ∧
    (inner = cb.inner ∨
      cb.control.state ≠ .closed ∧
        Control.UpToRefresh clock cb.openDuration cb.control inner.toControl)

variable {cb ahead : CircuitBreaker} {clock : Nat} {e : Event} {after : List Event}

/-- A call changes the content of the lock and none of the settings. -/
theorem serve_settings (cb : CircuitBreaker) (inner : Inner cb.window) (e : Event) :
    ∃ next : Inner cb.window, (serve { cb with inner } e).2 = { cb with inner := next } := by
  obtain ⟨now, call⟩ := e
  cases call with
  | abandon adm => cases adm <;> exact ⟨_, rfl⟩
  | _ => exact ⟨_, rfl⟩

theorem probeHalfOpen_replay (start : Nat) (threshold : ℚ)
    (minRequests windowSecs openDurationSecs : Nat) (events : List Event) :
    (replay serve (new start threshold minRequests windowSecs openDurationSecs)
      events).2.control.ProbeHalfOpen := by
  refine replay_invariant (fun cb : CircuitBreaker => cb.control.ProbeHalfOpen) ?_ ?_ events
  · intro cb e hInv
    rw [(cb.serve_control e).2]
    exact hInv.serve _ _ _
  · exact fun hFlag => absurd hFlag (by simp [CircuitBreaker.control, new])

/-- Closing forgets the window, whatever was in it. -/
theorem recordSuccess_probe_eq (cb : CircuitBreaker) (inner : Inner cb.window) (now : Nat)
    (hHalf : (cb.control.refresh now cb.openDuration).state = .halfOpen)
    (hHalf' : (inner.toControl.refresh now cb.openDuration).state = .halfOpen) :
    recordSuccess { cb with inner } .probe now = cb.recordSuccess .probe now := by
  have hState : ((cb.inner.refresh now cb.openDuration).rotate now).state = .halfOpen := by
    rw [Inner.toControl_rotate, Inner.toControl_refresh]
    exact hHalf
  have hState' : ((inner.refresh now cb.openDuration).rotate now).state = .halfOpen := by
    rw [Inner.toControl_rotate, Inner.toControl_refresh]
    exact hHalf'
  simp only [recordSuccess, hState, hState', and_self, if_true]
  rfl

/-- One call neither tells the two apart nor drives them apart. -/
theorem Shadows.serve (h : Shadows clock cb ahead) (hClock : clock ≤ e.now) :
    (ahead.serve e).1 = (cb.serve e).1 ∧ Shadows clock (cb.serve e).2 (ahead.serve e).2 := by
  obtain ⟨inner, rfl, rfl | ⟨hState, hUpTo⟩⟩ := h
  · exact ⟨rfl, _, rfl, .inl rfl⟩
  obtain ⟨hAnswer, hNext⟩ := cb.serve_control e
  obtain ⟨hAnswer', hNext'⟩ := serve_control { cb with inner } e
  obtain ⟨hSame, hKept⟩ := hUpTo.serve hState (cb.trips e.now) (trips { cb with inner } e.now) hClock
  refine ⟨hAnswer'.trans (hSame.trans hAnswer.symm), ?_⟩
  obtain ⟨next, hEq⟩ := cb.serve_settings cb.inner e
  obtain ⟨next', hEq'⟩ := cb.serve_settings inner e
  by_cases hClosed : (cb.serve e).2.control.state = .closed
  · have hCloses := Control.serve_closes hState (hNext ▸ hClosed)
    have hHalf' := hCloses.2
    rw [← hUpTo.refresh hClock] at hHalf'
    have hForgotten : (CircuitBreaker.serve { cb with inner } e).2 = (cb.serve e).2 := by
      simp only [CircuitBreaker.serve, hCloses.1]
      exact recordSuccess_probe_eq cb inner e.now hCloses.2 hHalf'
    rw [hForgotten]
    exact ⟨_, rfl, .inl rfl⟩
  · have hBoth : Control.UpToRefresh clock cb.openDuration (cb.serve e).2.control
        (CircuitBreaker.serve { cb with inner } e).2.control := by
      rw [hNext, hNext']
      exact hKept
    rw [hEq'] at hBoth ⊢
    rw [show cb.serve e = CircuitBreaker.serve { cb with inner := cb.inner } e from rfl, hEq]
      at hBoth hClosed ⊢
    exact ⟨next', rfl, .inr ⟨hClosed, hBoth⟩⟩

/-- Nothing later tells the shadow from the breaker. -/
theorem Shadows.replay (h : Shadows clock cb ahead) (hLater : ∀ e ∈ after, clock ≤ e.now) :
    (Semantics.replay CircuitBreaker.serve ahead after).1 =
      (Semantics.replay CircuitBreaker.serve cb after).1 := by
  refine (replay_simulation (R := fun ahead cb (after : List Event) =>
    Shadows clock cb ahead ∧ ∀ e ∈ after, clock ≤ e.now) ?_ ahead cb after ⟨h, hLater⟩).1
  rintro ahead cb e after ⟨hShadows, hLater⟩
  obtain ⟨hAnswer, hNext⟩ := hShadows.serve (hLater e (List.mem_cons_self ..))
  exact ⟨hAnswer, hNext, fun e he => hLater e (List.mem_cons_of_mem _ he)⟩

end CircuitBreaker

end InferenceRouter
