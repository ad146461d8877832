import InferenceRouter.CircuitBreaker.FailingBackend

/-! A breaker whose callers read the clock in any order: its probe is accounted for,
and a circuit that is not closed carries the instant it opened at. -/
namespace InferenceRouter

namespace Control

/-- A circuit that is not closed carries the instant it opened at. -/
def Stamped (c : Control) : Prop := c.state ≠ .closed → ∃ opened, c.openedAt = some opened

theorem Stamped.refresh {c : Control} (h : c.Stamped) (now d : Nat) : (c.refresh now d).Stamped := by
  intro hState
  rw [refresh_openedAt]
  exact h ((refresh_state_closed_iff ..).not.mp hState)

theorem Stamped.serve {c : Control} (h : c.Stamped) (d : Nat) (trips : Bool) (e : Event) :
    (c.serve d trips e).2.Stamped := by
  have hFresh := h.refresh e.now d
  simp only [Control.serve]
  cases e.call with
  | state | isRoutable => exact hFresh
  | tryBegin =>
      dsimp only
      split
      · exact hFresh
      · split <;> exact hFresh
  | recordSuccess adm =>
      dsimp only
      split
      · exact fun hClosed => absurd rfl hClosed
      · exact hFresh
  | recordFailure adm =>
      dsimp only
      split
      · exact fun _ => ⟨e.now, rfl⟩
      · split
        · exact fun _ => ⟨e.now, rfl⟩
        · exact hFresh
  | abandon adm =>
      dsimp only
      split <;> exact h

/-- A circuit that opens does so at the instant of the call. -/
theorem serve_openedAt (c : Control) (d : Nat) (trips : Bool) (e : Event) :
    (c.serve d trips e).2.openedAt = none ∨ (c.serve d trips e).2.openedAt = some e.now ∨
      (c.serve d trips e).2.openedAt = c.openedAt := by
  simp only [Control.serve]
  cases e.call with
  | state | isRoutable => exact .inr (.inr (c.refresh_openedAt ..))
  | tryBegin =>
      dsimp only
      split
      · exact .inr (.inr (c.refresh_openedAt ..))
      · split <;> exact .inr (.inr (c.refresh_openedAt ..))
  | recordSuccess adm =>
      dsimp only
      split
      · exact .inl rfl
      · exact .inr (.inr (c.refresh_openedAt ..))
  | recordFailure adm =>
      dsimp only
      split
      · exact .inr (.inl rfl)
      · split
        · exact .inr (.inl rfl)
        · exact .inr (.inr (c.refresh_openedAt ..))
  | abandon adm =>
      dsimp only
      split <;> exact .inr (.inr rfl)

end Control

namespace CircuitBreaker

/-- What holds of a breaker at any time, in whatever order its callers read the clock. -/
structure Accountable (cb : CircuitBreaker) (d tokens : Nat) : Prop where
  openDuration : cb.openDuration = d
  coherent : cb.control.Coherent tokens
  stamped : cb.control.Stamped

variable {cb : CircuitBreaker} {d tokens : Nat}

theorem Accountable.serve (h : cb.Accountable d tokens) (e : Event) (hSpent : e.spent ≤ tokens) :
    (cb.serve e).2.Accountable d (tokens - e.spent + (cb.serve e).1.issued) := by
  obtain ⟨hAnswer, hControl⟩ := cb.serve_control e
  refine ⟨(cb.serve_openDuration e).trans h.openDuration, ?_, ?_⟩
  · rw [hAnswer, hControl]
    exact h.coherent.serve _ _ e hSpent
  · rw [hControl]
    exact h.stamped.serve _ _ e

/-- With no probe out, it takes nothing but time for the backend to be offered. -/
theorem Accountable.isRoutable (h : cb.Accountable d 0) {now : Nat}
    (hDue : ∀ opened, cb.control.openedAt = some opened → opened + d ≤ now) :
    (cb.isRoutable now).1 = true := by
  obtain ⟨clock, hDated⟩ : ∃ clock, cb.control.Dated d clock := by
    by_cases hClosed : cb.control.state = .closed
    · exact ⟨0, fun hNot => absurd hClosed hNot, fun hHalf => by simp [hClosed] at hHalf⟩
    · obtain ⟨opened, hOpened⟩ := h.stamped hClosed
      refine ⟨opened + d, fun _ => ⟨opened, hOpened, Nat.le_add_right ..⟩, fun _ other hOther => ?_⟩
      rw [Option.some.inj (hOther.symm.trans hOpened)]
  obtain ⟨hRoutable, -⟩ := Control.admits_of_no_token (cb.trips now) h.coherent hDated now hDue
  rw [← h.openDuration] at hRoutable
  exact Answer.routable.inj ((cb.serve_control ⟨now, .isRoutable⟩).1.trans hRoutable)

/-- The delivery of a verdict, or any other call that claims nothing. -/
theorem Accountable.deliver (h : cb.Accountable d tokens) (now : Nat) {call : Call} (hCall : call ≠ .tryBegin)
    {left : Nat} (hTokens : left + (if call.returns .probe then 1 else 0) = tokens) :
    (cb.serve ⟨now, call⟩).2.Accountable d left := by
  have hIssued : (cb.serve ⟨now, call⟩).1.issued = 0 := by
    cases call with
    | tryBegin => exact absurd rfl hCall
    | _ => rfl
  have hSpent : (Event.mk now call).spent = if call.returns .probe then 1 else 0 := rfl
  have hNext := h.serve ⟨now, call⟩ (by omega)
  have hLeft : tokens - (Event.mk now call).spent + (cb.serve ⟨now, call⟩).1.issued = left := by omega
  rwa [hLeft] at hNext

end CircuitBreaker

end InferenceRouter
