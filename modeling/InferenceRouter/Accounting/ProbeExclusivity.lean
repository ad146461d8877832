import InferenceRouter.Accounting.Basic
import InferenceRouter.CircuitBreaker.Session
import InferenceRouter.Semantics.Population

/-! One backend under any number of concurrent requests. The probe flag of its
breaker is up exactly while one guard that was admitted as the probe is alive,
so the flag is neither leaked nor shared, whatever becomes of the guards. -/
namespace InferenceRouter

open Semantics

/-- What an effect does to the breaker of its backend. -/
def Effect.onBreaker (now : Nat) (cb : CircuitBreaker) : Effect → CircuitBreaker
  | .breaker _ call => (cb.serve ⟨now, call⟩).2
  | _ => cb

/-- A guard, with the number of the half-open episode its request was admitted in. -/
structure LiveGuard where
  guard : RequestAccounting
  episode : Nat

namespace LiveGuard

/-- The probe tokens a guard holds. -/
def tokens (self : LiveGuard) : Nat := if self.guard.admission = .probe then 1 else 0

end LiveGuard

/-- A breaker, the guards alive on its backend, and the number of half-open
episodes that have begun. -/
structure GuardedBackend where
  id : BackendId
  breaker : CircuitBreaker
  guards : List LiveGuard
  episode : Nat

/-- One step of some request, or of an observer. Requests are told apart by the
position of their guard; an action on a guard that is gone does nothing. Every
action carries the clock reading of its breaker call. -/
inductive GuardAction where
  /-- `try_begin`, and `RequestAccounting::start` if it admits. -/
  | begin (strategyName : String) (ewmaAlpha : ℚ) (startedAt : Nat)
  | headers (i : Nat) (status : StatusCode)
  | finish (i : Nat) (outcome : Outcome) (clock : DropClock)
  | drop (i : Nat) (clock : DropClock)
  | state
  | isRoutable

namespace GuardedBackend

def start (id : BackendId) (breaker : CircuitBreaker) : GuardedBackend where
  id := id
  breaker := breaker
  guards := []
  episode := 0

/-- The guards' probe tokens. -/
def tokens (self : GuardedBackend) : Nat := sumOver LiveGuard.tokens self.guards

/-- The number of live guards that were admitted as the probe. -/
def liveProbes (self : GuardedBackend) : Nat :=
  self.guards.countP fun live => live.guard.admission = .probe

/-- A half-open episode begins when the state becomes `HalfOpen`. -/
def nextEpisode (self : GuardedBackend) (breaker : CircuitBreaker) : Nat :=
  if self.breaker.control.state ≠ .halfOpen ∧ breaker.control.state = .halfOpen then self.episode + 1
  else self.episode

/-- Go on with another breaker state and other guards. -/
def settle (self : GuardedBackend) (breaker : CircuitBreaker) (guards : List LiveGuard) :
    GuardedBackend :=
  { self with breaker, guards, episode := self.nextEpisode breaker }

def act (self : GuardedBackend) (now : Nat) : GuardAction → GuardedBackend
  | .begin strategyName ewmaAlpha startedAt =>
      let (answer, breaker) := self.breaker.tryBegin now
      match answer with
      | some adm =>
          let (effects, guard) := RequestAccounting.start self.id strategyName ewmaAlpha adm startedAt
          self.settle (effects.foldl (Effect.onBreaker now) breaker)
            (⟨guard, self.nextEpisode breaker⟩ :: self.guards)
      | none => self.settle breaker self.guards
  | .headers i status =>
      match self.guards[i]? with
      | some live =>
          let (effects, guard) := live.guard.resolveProbeOnHeaders status
          self.settle (effects.foldl (Effect.onBreaker now) self.breaker)
            (self.guards.set i { live with guard })
      | none => self
  | .finish i outcome clock =>
      match self.guards[i]? with
      | some live =>
          self.settle ((live.guard.finish outcome clock).foldl (Effect.onBreaker now) self.breaker)
            (self.guards.eraseIdx i)
      | none => self
  | .drop i clock =>
      match self.guards[i]? with
      | some live =>
          self.settle ((live.guard.drop clock).foldl (Effect.onBreaker now) self.breaker)
            (self.guards.eraseIdx i)
      | none => self
  | .state => self.settle (self.breaker.state now).2 self.guards
  | .isRoutable => self.settle (self.breaker.isRoutable now).2 self.guards

/-- Any interleaving, with any clock readings. -/
def run (self : GuardedBackend) (actions : List (Nat × GuardAction)) : GuardedBackend :=
  actions.foldl (fun self action => self.act action.1 action.2) self

end GuardedBackend

/-- The breaker gets the verdict of a dropped guard and nothing else. -/
theorem RequestAccounting.drop_onBreaker (self : RequestAccounting) (clock : DropClock) (now : Nat)
    (cb : CircuitBreaker) :
    (self.drop clock).foldl (Effect.onBreaker now) cb = (cb.serve ⟨now, self.verdict⟩).2 := by
  rw [RequestAccounting.drop_eq]
  cases self.sample clock <;> simp [Effect.onBreaker]

/-- A verdict uses up the token of its guard. -/
theorem RequestAccounting.verdict_spent (self : RequestAccounting) (now : Nat) :
    (Event.mk now self.verdict).spent = if self.admission = .probe then 1 else 0 := by
  rcases self.verdict_cases with h | h | h <;> simp [Event.spent, h, Call.returns]

theorem RequestAccounting.verdict_issued (self : RequestAccounting) (cb : CircuitBreaker)
    (now : Nat) : (cb.serve ⟨now, self.verdict⟩).1.issued = 0 := by
  rcases self.verdict_cases with h | h | h <;> rw [h] <;> rfl

namespace GuardedBackend

variable {s : GuardedBackend} {now : Nat} {action : GuardAction}

/-- Flag and tokens agree, and every probe guard is of the episode that lasts. -/
structure Exclusive (s : GuardedBackend) : Prop where
  coherent : s.breaker.control.Coherent s.tokens
  episode : ∀ live ∈ s.guards, live.guard.admission = .probe → live.episode = s.episode

/-- While a probe guard is alive, the episode lasts. -/
theorem Exclusive.nextEpisode_eq (h : Exclusive s) {live : LiveGuard} (hLive : live ∈ s.guards)
    (hProbe : live.guard.admission = .probe) (breaker : CircuitBreaker) :
    s.nextEpisode breaker = s.episode := by
  have hToken : 0 < s.tokens := by
    have hLe := le_sumOver LiveGuard.tokens hLive
    simp only [LiveGuard.tokens, hProbe, if_true] at hLe
    exact hLe
  simp [nextEpisode, (h.coherent.of_token hToken).1]

/-- One breaker call by the owner of the token it uses up. The guards that are
left are old ones, or were admitted by this call. -/
theorem Exclusive.settle (h : Exclusive s) (e : Event) (guards : List LiveGuard)
    (hSpent : e.spent ≤ s.tokens)
    (hTokens : sumOver LiveGuard.tokens guards = s.tokens - e.spent + (s.breaker.serve e).1.issued)
    (hGuards : ∀ live ∈ guards, live.guard.admission = .probe →
      live ∈ s.guards ∨ live.episode = s.nextEpisode (s.breaker.serve e).2) :
    Exclusive (s.settle (s.breaker.serve e).2 guards) where
  coherent := by
    obtain ⟨hAnswer, hControl⟩ := s.breaker.serve_control e
    have hNext := h.coherent.serve s.breaker.openDuration (s.breaker.trips e.now) e hSpent
    rw [← hAnswer, ← hControl, ← hTokens] at hNext
    exact hNext
  episode := by
    intro live hLive hProbe
    rcases hGuards live hLive hProbe with hOld | hNew
    · exact (h.episode live hOld hProbe).trans (h.nextEpisode_eq hOld hProbe _).symm
    · exact hNew

theorem Exclusive.observe (h : Exclusive s) (e : Event) (hSpent : e.spent = 0)
    (hIssued : (s.breaker.serve e).1.issued = 0) :
    Exclusive (s.settle (s.breaker.serve e).2 s.guards) :=
  h.settle e s.guards (by omega) (by rw [hSpent, hIssued]; rfl) fun _ hLive _ => .inl hLive

/-- The end of a guard, however it ends. -/
theorem Exclusive.remove (h : Exclusive s) {i : Nat} {live : LiveGuard} (hLive : s.guards[i]? = some live)
    (last : RequestAccounting) (hLast : last.admission = live.guard.admission) :
    Exclusive (s.settle (s.breaker.serve ⟨now, last.verdict⟩).2 (s.guards.eraseIdx i)) := by
  have hErase := sumOver_eraseIdx LiveGuard.tokens hLive
  have hSpent : (Event.mk now last.verdict).spent = live.tokens := by
    rw [last.verdict_spent, hLast, LiveGuard.tokens]
  refine h.settle _ _ ?_ ?_ fun _ hMem _ => .inl (List.mem_of_mem_eraseIdx hMem)
  · rw [hSpent, tokens]
    omega
  · rw [hSpent, last.verdict_issued, tokens]
    omega

theorem Exclusive.headers (h : Exclusive s) (i : Nat) (status : StatusCode) :
    Exclusive (s.act now (.headers i status)) := by
  simp only [act]
  split
  · rename_i live hLive
    by_cases hResolved : live.guard.admission = .probe ∧ status.isSuccess = true
    · simp only [RequestAccounting.resolveProbeOnHeaders, hResolved, and_self, if_true,
        List.foldl_cons, List.foldl_nil, Effect.onBreaker]
      have hSet := sumOver_set LiveGuard.tokens hLive
        { live with guard := { live.guard with admission := .normal } }
      simp only [LiveGuard.tokens, hResolved.1, if_true, reduceCtorEq, if_false] at hSet
      have hToken : s.tokens = sumOver LiveGuard.tokens s.guards := rfl
      refine h.settle ⟨now, .recordSuccess .probe⟩ _ ?_ ?_ ?_
      · simp only [Event.spent, Call.returns, decide_true, if_true, hToken]
        omega
      · simp only [Event.spent, Call.returns, decide_true, if_true, CircuitBreaker.serve, Answer.issued,
          reduceCtorEq, if_false, hToken]
        omega
      · intro other hMem hProbe
        rcases List.mem_or_eq_of_mem_set hMem with hOld | rfl
        · exact .inl hOld
        · cases hProbe
    · simp only [RequestAccounting.resolveProbeOnHeaders, hResolved, if_false, List.foldl_nil]
      obtain ⟨hIndex, rfl⟩ := List.getElem?_eq_some_iff.mp hLive
      rw [List.set_getElem_self hIndex]
      exact ⟨h.coherent, fun live hMem hProbe =>
        (h.episode live hMem hProbe).trans (h.nextEpisode_eq hMem hProbe _).symm⟩
  · exact h

theorem Exclusive.begin (h : Exclusive s) (strategyName : String) (ewmaAlpha : ℚ) (startedAt : Nat) :
    Exclusive (s.act now (.begin strategyName ewmaAlpha startedAt)) := by
  simp only [act]
  cases hAnswer : (s.breaker.tryBegin now).1 with
  | none =>
      exact h.observe ⟨now, .tryBegin⟩ rfl (by simp [CircuitBreaker.serve, hAnswer, Answer.issued])
  | some adm =>
      refine h.settle ⟨now, .tryBegin⟩ _ (Nat.zero_le _) ?_ ?_
      · rw [sumOver_cons]
        simp only [LiveGuard.tokens, RequestAccounting.start, CircuitBreaker.serve, Answer.issued,
          hAnswer, tokens, Answer.admission.injEq, Option.some.injEq]
        exact Nat.add_comm _ _
      · intro live hMem _
        rcases List.mem_cons.mp hMem with rfl | hOld
        · exact .inr rfl
        · exact .inl hOld

/-- Every action of every request keeps the probe exclusive. -/
theorem Exclusive.act (h : Exclusive s) (now : Nat) (action : GuardAction) :
    Exclusive (s.act now action) := by
  cases action with
  | begin strategyName ewmaAlpha startedAt => exact h.begin strategyName ewmaAlpha startedAt
  | headers i status => exact h.headers i status
  | finish i outcome clock =>
      simp only [GuardedBackend.act]
      split
      · rename_i live hLive
        rw [RequestAccounting.finish, RequestAccounting.drop_onBreaker]
        exact h.remove hLive _ rfl
      · exact h
  | drop i clock =>
      simp only [GuardedBackend.act]
      split
      · rename_i live hLive
        rw [RequestAccounting.drop_onBreaker]
        exact h.remove hLive _ rfl
      · exact h
  | state => exact h.observe ⟨now, .state⟩ rfl rfl
  | isRoutable => exact h.observe ⟨now, .isRoutable⟩ rfl rfl

theorem tokens_eq (s : GuardedBackend) : s.tokens = s.liveProbes := by
  unfold tokens liveProbes
  induction s.guards with
  | nil => rfl
  | cons live rest ih =>
      rw [sumOver_cons, ih, List.countP_cons, LiveGuard.tokens]
      simp [Nat.add_comm]

theorem Exclusive.start (id : BackendId) (now : Nat) (threshold : ℚ)
    (minRequests windowSecs openDurationSecs : Nat) :
    Exclusive (start id (.new now threshold minRequests windowSecs openDurationSecs)) where
  coherent := ⟨rfl, fun hFlag => absurd hFlag (by simp [GuardedBackend.start, CircuitBreaker.control,
    CircuitBreaker.new])⟩
  episode := by simp [GuardedBackend.start]

theorem Exclusive.run (h : Exclusive s) (actions : List (Nat × GuardAction)) :
    Exclusive (s.run actions) := by
  induction actions generalizing s with
  | nil => exact h
  | cons action actions ih => exact ih (h.act action.1 action.2)

/-- At most one probe is out, exactly while the flag is up, and only in the
half-open episode that issued it. With none out, a half-open breaker grants one. -/
theorem probe_exclusive (id : BackendId) (now : Nat) (threshold : ℚ)
    (minRequests windowSecs openDurationSecs : Nat) (actions : List (Nat × GuardAction)) :
    let s := (start id (.new now threshold minRequests windowSecs openDurationSecs)).run actions
    s.liveProbes ≤ 1 ∧
    (s.liveProbes = 1 ↔ s.breaker.inner.probeInFlight = true) ∧
    (s.liveProbes = 1 → s.breaker.inner.state = .halfOpen) ∧
    (∀ live ∈ s.guards, live.guard.admission = .probe →
      live.episode = s.episode ∧ s.breaker.inner.state = .halfOpen) ∧
    (∀ now, (s.breaker.tryBegin now).1 = some .probe → s.liveProbes = 0) ∧
    (s.liveProbes = 0 → ∀ now, (s.breaker.state now).1 = .halfOpen →
      (s.breaker.tryBegin now).1 = some .probe) := by
  intro s
  have hExclusive : Exclusive s :=
    (Exclusive.start id now threshold minRequests windowSecs openDurationSecs).run actions
  have hCoherent := s.tokens_eq ▸ hExclusive.coherent
  have hHalfOpen (hOne : s.liveProbes = 1) : s.breaker.inner.state = .halfOpen :=
    (hCoherent.of_token (by omega)).1
  refine ⟨hCoherent.le_one, hCoherent.eq_one_iff, hHalfOpen, ?_, ?_, ?_⟩
  · intro live hLive hProbe
    refine ⟨hExclusive.episode live hLive hProbe, hHalfOpen ?_⟩
    have hPos : 0 < s.liveProbes := List.countP_pos_iff.mpr ⟨live, hLive, by simpa using hProbe⟩
    have hLe := hCoherent.le_one
    omega
  · intro now hProbe
    exact hCoherent.eq_zero_iff.mpr ((s.breaker.tryBegin_eq_probe_iff now).mp hProbe).2
  · intro hNone now hHalf
    exact (s.breaker.tryBegin_eq_probe_iff now).mpr ⟨hHalf, hCoherent.eq_zero_iff.mp hNone⟩

/-- A transport error trips the circuit, the probe that follows is answered 200
and resolves on the headers, and its guard lives on as a normal one. -/
example :
    let breaker := CircuitBreaker.new 0 (1 / 2) 1 10 30
    let tripped := (start 0 breaker).run
      [(0, .begin "round_robin" (1 / 10) 0), (0, .finish 0 .transportError ⟨0, 0⟩)]
    let probing := tripped.act 30000000000 (.begin "round_robin" (1 / 10) 30000000000)
    let resolved := probing.act 31000000000 (.headers 0 ⟨200, by decide⟩)
    (tripped.liveProbes, probing.liveProbes, resolved.liveProbes) = (0, 1, 0) ∧
      resolved.guards.length = 1 ∧ resolved.breaker.inner.state = .closed := by
  decide +kernel

end GuardedBackend

end InferenceRouter
