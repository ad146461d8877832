import InferenceRouter.CircuitBreaker.Control
import InferenceRouter.Semantics.Run

/-! A breaker and its callers. Callers may deliver any number of `Normal`
verdicts, but each `Probe` verdict or abandon uses up a token that an earlier
`tryBegin` issued. Control and the outstanding tokens then stay in step. -/
namespace InferenceRouter

open Semantics

/-- Tokens a call uses up: a verdict, or none, for a request admitted as a probe. -/
def Event.spent (e : Event) : Nat := if e.call.returns .probe then 1 else 0

/-- Tokens an answer issues. -/
def Answer.issued (answer : Answer) : Nat := if answer = .admission (some .probe) then 1 else 0

namespace Control

/-- The probe flag is up exactly while one token is out, and only in `HalfOpen`. -/
structure Coherent (c : Control) (tokens : Nat) : Prop where
  tokens_eq : tokens = if c.probeInFlight then 1 else 0
  halfOpen : c.probeInFlight = true → c.state = .halfOpen

namespace Coherent

variable {c : Control} {tokens : Nat}

theorem le_one (h : Coherent c tokens) : tokens ≤ 1 := by
  rw [h.tokens_eq]
  split <;> omega

theorem eq_one_iff (h : Coherent c tokens) : tokens = 1 ↔ c.probeInFlight = true := by
  rw [h.tokens_eq]
  split <;> simp_all

theorem eq_zero_iff (h : Coherent c tokens) : tokens = 0 ↔ c.probeInFlight = false := by
  rw [h.tokens_eq]
  split <;> simp_all

theorem of_token (h : Coherent c tokens) (hToken : 0 < tokens) :
    c.state = .halfOpen ∧ c.probeInFlight = true := by
  have hFlag : c.probeInFlight = true := by
    rw [← h.eq_one_iff]
    have hLe := h.le_one
    omega
  exact ⟨h.halfOpen hFlag, hFlag⟩

theorem refresh (h : Coherent c tokens) (now d : Nat) : Coherent (c.refresh now d) tokens := by
  rcases c.refresh_cases now d with hSame | ⟨hOpen, hHalf⟩
  · rwa [hSame]
  · rw [hHalf]
    exact ⟨h.tokens_eq, fun _ => rfl⟩

/-- While a token is out nothing is refreshed: `HalfOpen` has no deadline. -/
theorem refresh_of_token (h : Coherent c tokens) (hToken : 0 < tokens) (now d : Nat) :
    c.refresh now d = c :=
  refresh_of_ne_open (by simp [(h.of_token hToken).1]) now d

theorem of_closed (h : Coherent c tokens) (hClosed : c.state = .closed) :
    c.probeInFlight = false := by
  cases hFlag : c.probeInFlight with
  | false => rfl
  | true => simp [h.halfOpen hFlag] at hClosed

/-- One call of a caller that owns the token it uses up. -/
theorem serve (h : Coherent c tokens) (d : Nat) (trips : Bool) (e : Event)
    (hSpent : e.spent ≤ tokens) :
    Coherent (c.serve d trips e).2 (tokens - e.spent + (c.serve d trips e).1.issued) := by
  obtain ⟨now, call⟩ := e
  have hFresh := h.refresh now d
  have hOne := h.le_one
  cases call with
  | state | isRoutable => exact hFresh
  | tryBegin =>
      simp only [Control.serve, Event.spent, Call.returns, Answer.issued]
      split
      · simpa using hFresh
      · split
        · rename_i hClaim
          have hNone := hFresh.eq_zero_iff.mpr hClaim.2
          exact ⟨by simp [hNone], fun _ => hClaim.1⟩
        · simpa using hFresh
  | recordSuccess adm =>
      cases adm with
      | normal => simpa [Control.serve, Event.spent, Call.returns, Answer.issued] using hFresh
      | probe =>
          have hToken := h.of_token hSpent
          simp only [Control.serve, h.refresh_of_token hSpent, hToken.1, and_self, if_true]
          exact ⟨by simp [Event.spent, Call.returns, Answer.issued]; omega, by simp⟩
  | recordFailure adm =>
      cases adm with
      | normal =>
          simp only [Control.serve, Event.spent, Call.returns, Answer.issued]
          by_cases hTrip : (c.refresh now d).state = .closed ∧ trips = true
          · have hFlag := hFresh.of_closed hTrip.1
            have hNone := hFresh.eq_zero_iff.mpr hFlag
            simp only [refresh_probeInFlight] at hFlag
            constructor <;> simp [hTrip, hFlag, hNone]
          · simpa [hTrip] using hFresh
      | probe =>
          have hToken := h.of_token hSpent
          simp only [Control.serve, h.refresh_of_token hSpent, hToken.1, and_self, if_true]
          exact ⟨by simp [Event.spent, Call.returns, Answer.issued]; omega, by simp⟩
  | abandon adm =>
      cases adm with
      | normal => simpa [Control.serve, Event.spent, Call.returns, Answer.issued] using h
      | probe =>
          have hToken := h.of_token hSpent
          simp only [Control.serve, hToken.1, and_self, if_true]
          exact ⟨by simp [Event.spent, Call.returns, Answer.issued]; omega, by simp⟩

end Coherent

/-- Every circuit that is not closed carries the instant it opened at, and a
half-open one was open for the whole open period. -/
structure Dated (c : Control) (d clock : Nat) : Prop where
  opened : c.state ≠ .closed → ∃ opened, c.openedAt = some opened ∧ opened ≤ clock
  due : c.state = .halfOpen → ∀ opened, c.openedAt = some opened → opened + d ≤ clock

namespace Dated

variable {c : Control} {d clock now : Nat}

theorem mono (h : Dated c d clock) (hClock : clock ≤ now) : Dated c d now where
  opened hState := by
    obtain ⟨opened, hOpened, hLe⟩ := h.opened hState
    exact ⟨opened, hOpened, hLe.trans hClock⟩
  due hState opened hOpened := (h.due hState opened hOpened).trans hClock

theorem refresh (h : Dated c d clock) (hClock : clock ≤ now) : Dated (c.refresh now d) d now := by
  by_cases hOpen : c.state = .open
  · obtain ⟨opened, hOpened, hLe⟩ := h.opened (by simp [hOpen])
    by_cases hDue : opened + d ≤ now
    · rw [refresh_of_le hOpen hOpened hDue]
      refine ⟨fun _ => ⟨opened, hOpened, hLe.trans hClock⟩, fun _ other hOther => ?_⟩
      rw [Option.some.inj (hOther.symm.trans hOpened)]
      exact hDue
    · rw [refresh_of_lt hOpened (hLe.trans hClock) (by omega)]
      exact h.mono hClock
  · rw [refresh_of_ne_open hOpen]
    exact h.mono hClock

/-- Every path that opens the circuit sets the opening instant. -/
theorem serve (h : Dated c d clock) (trips : Bool) (e : Event) (hClock : clock ≤ e.now) :
    Dated (c.serve d trips e).2 d e.now := by
  have hFresh := h.refresh hClock
  have hOpened : ∀ flag, Dated ⟨.open, some e.now, flag⟩ d e.now :=
    fun flag => ⟨fun _ => ⟨e.now, rfl, Nat.le_refl _⟩, by simp⟩
  simp only [Control.serve]
  cases hCall : e.call with
  | state | isRoutable => exact hFresh
  | tryBegin =>
      dsimp only
      split
      · exact hFresh
      · split
        · exact ⟨hFresh.opened, hFresh.due⟩
        · exact hFresh
  | recordSuccess adm =>
      dsimp only
      split
      · exact ⟨by simp, by simp⟩
      · exact hFresh
  | recordFailure adm =>
      dsimp only
      split
      · exact hOpened false
      · split
        · exact hOpened _
        · exact hFresh
  | abandon adm =>
      dsimp only
      split
      · exact ⟨(h.mono hClock).opened, (h.mono hClock).due⟩
      · exact h.mono hClock

end Dated

end Control

/-- A breaker, the latest clock reading of its calls, and the number of probe
tokens issued and not used up. -/
structure Session where
  breaker : CircuitBreaker
  clock : Nat
  tokens : Nat

namespace Session

/-- A fresh breaker with no callers. -/
def start (now : Nat) (threshold : ℚ) (minRequests windowSecs openDurationSecs : Nat) : Session where
  breaker := .new now threshold minRequests windowSecs openDurationSecs
  clock := now
  tokens := 0

def control (self : Session) : Control := self.breaker.control

/-- Serve one call and settle its tokens. -/
def serve (self : Session) (e : Event) : Answer × Session :=
  let (answer, breaker) := self.breaker.serve e
  (answer, { breaker, clock := e.now, tokens := self.tokens - e.spent + answer.issued })

/-- Calls come with increasing clock readings and own the tokens they use up. -/
def Admits (self : Session) (e : Event) : Prop := self.clock ≤ e.now ∧ e.spent ≤ self.tokens

/-- An admitted call and its answer. -/
def Step (s : Session) (label : Event × Answer) (t : Session) : Prop :=
  s.Admits label.1 ∧ s.serve label.1 = (label.2, t)

/-- What holds of a session at any time. -/
structure Valid (s : Session) (d : Nat) : Prop where
  openDuration : s.breaker.openDuration = d
  coherent : s.control.Coherent s.tokens
  dated : s.control.Dated d s.clock

theorem valid_start (now : Nat) (threshold : ℚ) (minRequests windowSecs openDurationSecs : Nat) :
    (start now threshold minRequests windowSecs openDurationSecs).Valid (fromSecs openDurationSecs) where
  openDuration := rfl
  coherent := ⟨rfl, by simp [start, control, CircuitBreaker.control, CircuitBreaker.new]⟩
  dated := ⟨by simp [start, control, CircuitBreaker.control, CircuitBreaker.new],
    by simp [start, control, CircuitBreaker.control, CircuitBreaker.new]⟩

variable {s t u : Session} {d : Nat} {label : Event × Answer} {labels : List (Event × Answer)}

namespace Step

/-- A step as control sees it. -/
theorem control_eq (step : Step s label t) :
    ∃ trips, s.control.serve s.breaker.openDuration trips label.1 = (label.2, t.control) := by
  obtain ⟨_, hServe⟩ := step
  obtain ⟨hAnswer, hControl⟩ := s.breaker.serve_control label.1
  refine ⟨s.breaker.trips label.1.now, ?_⟩
  simp only [Session.serve, Prod.mk.injEq] at hServe
  obtain ⟨hLabel, rfl⟩ := hServe
  rw [← hLabel, hAnswer]
  exact Prod.ext rfl hControl.symm

theorem tokens_eq (step : Step s label t) :
    t.tokens = s.tokens - label.1.spent + label.2.issued := by
  obtain ⟨_, hServe⟩ := step
  simp only [Session.serve, Prod.mk.injEq] at hServe
  obtain ⟨hLabel, rfl⟩ := hServe
  rw [← hLabel]

theorem clock_eq (step : Step s label t) : t.clock = label.1.now := by
  obtain ⟨_, hServe⟩ := step
  simp only [Session.serve, Prod.mk.injEq] at hServe
  rw [← hServe.2]

theorem clock_le (step : Step s label t) : s.clock ≤ t.clock := by
  rw [step.clock_eq]
  exact step.1.1

theorem openDuration_eq (step : Step s label t) :
    t.breaker.openDuration = s.breaker.openDuration := by
  obtain ⟨_, hServe⟩ := step
  simp only [Session.serve, Prod.mk.injEq] at hServe
  rw [← hServe.2]
  exact s.breaker.serve_openDuration label.1

theorem valid (step : Step s label t) (h : s.Valid d) : t.Valid d := by
  obtain ⟨trips, hControl⟩ := step.control_eq
  rw [h.openDuration] at hControl
  have hCoherent := h.coherent.serve d trips label.1 step.1.2
  have hDated := h.dated.serve trips label.1 step.1.1
  rw [hControl] at hCoherent hDated
  exact {
    openDuration := step.openDuration_eq.trans h.openDuration
    coherent := step.tokens_eq ▸ hCoherent
    dated := step.clock_eq ▸ hDated }

end Step

theorem valid_of_run (run : Run Step s labels t) (h : s.Valid d) : t.Valid d :=
  run.invariant (fun s => s.Valid d) (fun _ _ _ hValid step => step.valid hValid) h

/-- No call of a run read the clock later than its last one. -/
theorem now_le_of_run (run : Run Step s labels t) :
    s.clock ≤ t.clock ∧ ∀ label ∈ labels, label.1.now ≤ t.clock := by
  induction run with
  | nil => exact ⟨Nat.le_refl _, by simp⟩
  | cons first _ ih =>
      refine ⟨first.clock_le.trans ih.1, ?_⟩
      intro label hm
      rcases List.mem_cons.mp hm with rfl | hm
      · exact first.clock_eq ▸ ih.1
      · exact ih.2 label hm

end Session

end InferenceRouter
