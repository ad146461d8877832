import InferenceRouter.CircuitBreaker.Basic

/-! The breaker as a machine that serves one call at a time under its lock, and
the small control machine it refines. Control keeps the state, the opening
instant and the probe flag; of the window it only asks whether a counted
failure trips. Most guarantees about admission are about control alone. -/
namespace InferenceRouter

/-- The public methods of `CircuitBreaker`. -/
inductive Call where
  | state
  | isRoutable
  | tryBegin
  | recordSuccess (adm : Admission)
  | recordFailure (adm : Admission)
  | abandon (adm : Admission)
  deriving DecidableEq, Repr

/-- What a call returns to its caller. -/
inductive Answer where
  | state (state : CircuitState)
  | routable (answer : Bool)
  | admission (admission : Option Admission)
  | unit
  deriving DecidableEq, Repr

/-- A call together with the clock reading it took before the lock. -/
structure Event where
  now : Nat
  call : Call
  deriving DecidableEq, Repr

namespace Call

/-- A verdict, or a missing one, delivered for a request admitted as `adm`. -/
def returns (adm : Admission) : Call → Bool
  | .recordSuccess a | .recordFailure a | .abandon a => a = adm
  | _ => false

def isRecord : Call → Bool
  | .recordSuccess _ | .recordFailure _ => true
  | _ => false

end Call

/-- Serve one call at its clock reading. -/
def CircuitBreaker.serve (self : CircuitBreaker) (e : Event) : Answer × CircuitBreaker :=
  match e.call with
  | .state => let (answer, next) := self.state e.now; (.state answer, next)
  | .isRoutable => let (answer, next) := self.isRoutable e.now; (.routable answer, next)
  | .tryBegin => let (answer, next) := self.tryBegin e.now; (.admission answer, next)
  | .recordSuccess adm => (.unit, self.recordSuccess adm e.now)
  | .recordFailure adm => (.unit, self.recordFailure adm e.now)
  | .abandon adm => (.unit, self.abandon adm)

namespace Control

def refresh (self : Control) (now : Nat) (openDuration : Nat) : Control :=
  if self.state = .open then
    match self.openedAt with
    | some opened =>
        if openDuration ≤ saturatingDurationSince now opened then
          { self with state := .halfOpen }
        else self
    | none => self
  else self

/-- Serve one call on control. `trips` is the verdict of the window, should the
call be a failure counted while the circuit is closed. -/
def serve (openDuration : Nat) (trips : Bool) (self : Control) (e : Event) : Answer × Control :=
  let fresh := self.refresh e.now openDuration
  match e.call with
  | .state => (.state fresh.state, fresh)
  | .isRoutable =>
      (.routable (fresh.state = .closed ∨ fresh.state = .halfOpen ∧ fresh.probeInFlight = false), fresh)
  | .tryBegin =>
      if fresh.state = .closed then (.admission (some .normal), fresh)
      else if fresh.state = .halfOpen ∧ fresh.probeInFlight = false then
        (.admission (some .probe), { fresh with probeInFlight := true })
      else (.admission none, fresh)
  | .recordSuccess adm =>
      (.unit, if fresh.state = .halfOpen ∧ adm = .probe then ⟨.closed, none, false⟩ else fresh)
  | .recordFailure adm =>
      (.unit,
        if fresh.state = .halfOpen ∧ adm = .probe then ⟨.open, some e.now, false⟩
        else if fresh.state = .closed ∧ trips then ⟨.open, some e.now, fresh.probeInFlight⟩
        else fresh)
  | .abandon adm =>
      (.unit, if self.state = .halfOpen ∧ adm = .probe then { self with probeInFlight := false }
        else self)

theorem refresh_of_ne_open {c : Control} (h : c.state ≠ .open) (now : Nat) (d : Nat) :
    c.refresh now d = c := if_neg h

/-- Before the open period is over nothing is refreshed. -/
theorem refresh_of_lt {c : Control} {opened now d : Nat} (hOpened : c.openedAt = some opened)
    (hPast : opened ≤ now) (hEarly : now < opened + d) : c.refresh now d = c := by
  have hNotDue : ¬d ≤ now - opened := by omega
  simp [refresh, hOpened, saturatingDurationSince, hNotDue]

theorem refresh_of_le {c : Control} {opened now d : Nat} (hOpen : c.state = .open)
    (hOpened : c.openedAt = some opened) (h : opened + d ≤ now) :
    c.refresh now d = { c with state := .halfOpen } := by
  have hDue : d ≤ now - opened := Nat.le_sub_of_add_le' h
  simp [refresh, hOpen, hOpened, saturatingDurationSince, hDue]

/-- Refreshing either does nothing or turns `Open` into `HalfOpen`. -/
theorem refresh_cases (c : Control) (now : Nat) (d : Nat) :
    c.refresh now d = c ∨ c.state = .open ∧ c.refresh now d = { c with state := .halfOpen } := by
  unfold refresh
  split
  · rename_i hOpen
    split
    · split
      · exact .inr ⟨hOpen, rfl⟩
      · exact .inl rfl
    · exact .inl rfl
  · exact .inl rfl

@[simp] theorem refresh_probeInFlight (c : Control) (now : Nat) (d : Nat) :
    (c.refresh now d).probeInFlight = c.probeInFlight := by
  rcases c.refresh_cases now d with h | ⟨_, h⟩ <;> rw [h]

theorem refresh_state_closed_iff (c : Control) (now : Nat) (d : Nat) :
    (c.refresh now d).state = .closed ↔ c.state = .closed := by
  rcases c.refresh_cases now d with h | ⟨hOpen, h⟩
  · rw [h]
  · simp [h, hOpen]

/-- Only the success of a probe closes the circuit, and only from `HalfOpen`. -/
theorem serve_closes {c : Control} {d : Nat} {trips : Bool} {e : Event} (h : c.state ≠ .closed)
    (hNext : (c.serve d trips e).2.state = .closed) :
    e.call = .recordSuccess .probe ∧ (c.refresh e.now d).state = .halfOpen := by
  have hFresh : (c.refresh e.now d).state ≠ .closed := by
    rwa [Ne, refresh_state_closed_iff]
  simp only [serve] at hNext
  cases hCall : e.call with
  | state | isRoutable => exact absurd (by simpa [hCall] using hNext) hFresh
  | tryBegin =>
      simp only [hCall, hFresh, if_false] at hNext
      split at hNext <;> exact absurd hNext hFresh
  | recordSuccess adm =>
      simp only [hCall] at hNext
      split at hNext
      · rename_i hProbe
        exact ⟨by rw [hProbe.2], hProbe.1⟩
      · exact absurd hNext hFresh
  | recordFailure adm =>
      simp only [hCall, hFresh, false_and, if_false] at hNext
      split at hNext
      · cases hNext
      · exact absurd hNext hFresh
  | abandon adm =>
      simp only [hCall] at hNext
      split at hNext <;> exact absurd hNext h

end Control

namespace Inner

variable {n : Nat} [NeZero n]

@[simp] theorem toControl_rotate (self : Inner n) (now : Nat) :
    (self.rotate now).toControl = self.toControl := by
  simp only [rotate]
  split <;> rfl

omit [NeZero n] in
@[simp] theorem toControl_countSuccess (self : Inner n) :
    self.countSuccess.toControl = self.toControl := rfl

omit [NeZero n] in
@[simp] theorem toControl_countFailure (self : Inner n) :
    self.countFailure.toControl = self.toControl := rfl

@[simp] theorem toControl_clear (self : Inner n) (now : Nat) :
    (self.clear now).toControl = self.toControl := rfl

omit [NeZero n] in
theorem toControl_refresh (self : Inner n) (now : Nat) (d : Nat) :
    (self.refresh now d).toControl = self.toControl.refresh now d := by
  unfold refresh Control.refresh
  split
  · split <;> rename_i hOpened <;> simp only [hOpened]
    split <;> rfl
  · rfl

omit [NeZero n] in
/-- Refreshing touches the state and nothing else. -/
theorem refresh_eq (self : Inner n) (now : Nat) (d : Nat) :
    self.refresh now d = { self with toControl := self.toControl.refresh now d } := by
  rw [← toControl_refresh]
  unfold refresh
  split
  · split
    · split <;> rfl
    · rfl
  · rfl

end Inner

namespace CircuitBreaker

/-- The control part of a breaker. -/
def control (self : CircuitBreaker) : Control := self.inner.toControl

@[simp] theorem control_mk (self : CircuitBreaker) (inner : Inner self.window) :
    control { self with inner } = inner.toControl := rfl

/-- The window, rotated to `now` and with one more failure, reaches the threshold. -/
def trips (self : CircuitBreaker) (now : Nat) : Bool :=
  self.overThreshold ((self.inner.refresh now self.openDuration).rotate now).countFailure

/-- The settings outlive every call. -/
theorem serve_openDuration (self : CircuitBreaker) (e : Event) :
    (self.serve e).2.openDuration = self.openDuration := by
  obtain ⟨now, call⟩ := e
  cases call with
  | abandon adm =>
      simp only [serve, abandon]
      split <;> rfl
  | _ => rfl

/-- The breaker refines control: same answer, and the control of the breaker
afterwards is the one that control alone computes. -/
theorem serve_control (self : CircuitBreaker) (e : Event) :
    let abstractly := Control.serve self.openDuration (self.trips e.now) self.control e
    (self.serve e).1 = abstractly.1 ∧ (self.serve e).2.control = abstractly.2 := by
  obtain ⟨now, call⟩ := e
  have hFresh : self.control.refresh now self.openDuration =
      (self.inner.refresh now self.openDuration).toControl := (Inner.toControl_refresh ..).symm
  cases call with
  | state => simp [serve, state, Control.serve, hFresh]
  | isRoutable =>
      simp only [serve, isRoutable, Control.serve, hFresh, control_mk]
      cases h : (self.inner.refresh now self.openDuration).state <;> simp
  | tryBegin =>
      simp only [serve, tryBegin, Control.serve, hFresh, control_mk]
      cases h : (self.inner.refresh now self.openDuration).state <;>
        cases hp : (self.inner.refresh now self.openDuration).probeInFlight <;> simp
  | recordSuccess adm =>
      simp only [serve, recordSuccess, Control.serve, hFresh, control_mk,
        Inner.toControl_countSuccess, Inner.toControl_rotate, true_and]
      split <;> simp
  | recordFailure adm =>
      simp only [serve, recordFailure, Control.serve, hFresh, control_mk, trips,
        Inner.toControl_countFailure, Inner.toControl_rotate, true_and]
      by_cases hProbe : (self.inner.refresh now self.openDuration).state = .halfOpen ∧ adm = .probe
      · simp [hProbe]
      · simp only [hProbe, if_false]
        cases h : (self.inner.refresh now self.openDuration).state <;> simp
        split <;> simp
  | abandon adm =>
      cases adm with
      | normal => simp [serve, abandon, Control.serve]
      | probe =>
          by_cases h : self.inner.state = .halfOpen <;>
            simp [serve, abandon, Control.serve, control, h]

/-- A breaker is offered at an instant exactly if it would admit then. -/
theorem tryBegin_isSome (self : CircuitBreaker) (now : Nat) :
    (self.tryBegin now).1.isSome = (self.isRoutable now).1 := by
  simp only [tryBegin, isRoutable]
  cases (self.inner.refresh now self.openDuration).state with
  | closed | «open» => rfl
  | halfOpen => cases h : (self.inner.refresh now self.openDuration).probeInFlight <;> simp

theorem tryBegin_eq_probe_iff (self : CircuitBreaker) (now : Nat) :
    (self.tryBegin now).1 = some .probe ↔
      (self.state now).1 = .halfOpen ∧ self.control.probeInFlight = false := by
  have hFlag : (self.inner.refresh now self.openDuration).probeInFlight =
      self.control.probeInFlight := by
    rw [Inner.toControl_refresh, Control.refresh_probeInFlight]
    rfl
  simp only [tryBegin, state, ← hFlag]
  cases (self.inner.refresh now self.openDuration).state with
  | closed | «open» => simp
  | halfOpen => cases h : (self.inner.refresh now self.openDuration).probeInFlight <;> simp

theorem isRoutable_probeInFlight (self : CircuitBreaker) (now : Nat) :
    (self.isRoutable now).2.control.probeInFlight = self.control.probeInFlight := by
  simp only [isRoutable, control_mk, Inner.toControl_refresh, Control.refresh_probeInFlight]
  rfl

/-- The probe flag goes up with the claim of a probe only. -/
theorem tryBegin_raises_probe {self : CircuitBreaker} {now : Nat}
    (hBefore : self.control.probeInFlight = false)
    (hAfter : (self.tryBegin now).2.control.probeInFlight = true) :
    (self.tryBegin now).1 = some .probe := by
  have hFlag : (self.inner.refresh now self.openDuration).probeInFlight = false := by
    rw [Inner.toControl_refresh, Control.refresh_probeInFlight]
    exact hBefore
  simp only [tryBegin] at hAfter ⊢
  cases hState : (self.inner.refresh now self.openDuration).state with
  | closed | «open» => simp [hState, hFlag] at hAfter
  | halfOpen => simp [hFlag]

/-- A closed circuit admits at any instant. -/
theorem tryBegin_of_closed {self : CircuitBreaker} (h : self.control.state = .closed) (now : Nat) :
    (self.tryBegin now).1 = some .normal := by
  have hClosed : self.inner.state = .closed := h
  simp [tryBegin, Inner.refresh, hClosed]

/-- A breaker once offered admits, until some call or verdict changes it. -/
theorem tryBegin_of_isRoutable {self : CircuitBreaker} {now : Nat} (h : (self.isRoutable now).1 = true)
    (later : Nat) : ((self.isRoutable now).2.tryBegin later).1.isSome := by
  rw [tryBegin_isSome]
  have hSettled : (self.inner.refresh now self.openDuration).refresh later self.openDuration =
      self.inner.refresh now self.openDuration := by
    refine if_neg fun hOpen => ?_
    simp [isRoutable, hOpen] at h
  simpa only [isRoutable, hSettled] using h

/-- Only the two record calls touch the window. -/
theorem serve_eq_of_not_record (self : CircuitBreaker) {e : Event} (h : e.call.isRecord = false) :
    (self.serve e).2 =
      { self with inner := { self.inner with toControl := (self.serve e).2.control } } := by
  obtain ⟨now, call⟩ := e
  cases call with
  | recordSuccess adm | recordFailure adm => cases h
  | state | isRoutable => simp only [serve, state, isRoutable, control_mk, Inner.refresh_eq]
  | tryBegin =>
      simp only [serve, tryBegin, control_mk, Inner.refresh_eq]
      split <;> (try split) <;> rfl
  | abandon adm =>
      cases adm with
      | normal => rfl
      | probe =>
          simp only [serve, abandon]
          split <;> (try split) <;> rfl

end CircuitBreaker

/-- The window has a say in a failure only. -/
theorem Control.serve_eq_of_not_record (c : Control) (d : Nat) (trips trips' : Bool) {e : Event}
    (h : e.call.isRecord = false) : c.serve d trips e = c.serve d trips' e := by
  obtain ⟨now, call⟩ := e
  cases call with
  | recordSuccess adm | recordFailure adm => cases h
  | _ => rfl

end InferenceRouter
