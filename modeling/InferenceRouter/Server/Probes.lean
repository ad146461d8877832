import InferenceRouter.Accounting.ProbeExclusivity
import InferenceRouter.Server.Reaction
import InferenceRouter.Server.SelectBackend

/-! Where a probe is while requests run: with a selection that has claimed it, in
a guard, or in a verdict that is still to be delivered. It is handed from one to
the next, and no reaction of a request makes one or loses one. -/
namespace InferenceRouter

open Semantics Program

/-- The probe of backend `b` in what a selection has come to. -/
def grantOn (b : BackendId) : Option (BackendId × Admission) → Nat
  | some (backend, adm) => if backend = b ∧ adm = .probe then 1 else 0
  | none => 0

namespace SelectionOp

/-- The probe of backend `b` that an answer gives away. -/
def grants (b : BackendId) : (op : SelectionOp) → op.Answer → Nat
  | .tryBegin backend, answer => if backend = b ∧ answer = some .probe then 1 else 0
  | _, _ => 0

end SelectionOp

namespace Selection

/-- The probe of backend `b` that a selection holds. -/
abbrev probesOn (b : BackendId) (self : Selection (Option (BackendId × Admission))) : Nat :=
  held (grantOn b) self

/-- A selection holds a probe exactly if its last operation claimed it. -/
abbrev Accounts (b : BackendId) (self : Selection (Option (BackendId × Admission))) : Prop :=
  Keeps (grantOn b) (SelectionOp.grants b) self

end Selection

theorem accounts_tryCandidates (b : BackendId) (incoming : IncomingRequest) (candidates : List BackendId) :
    Selection.probesOn b (tryCandidates incoming candidates) = 0 ∧
      Selection.Accounts b (tryCandidates incoming candidates) := by
  induction hLength : candidates.length using Nat.strong_induction_on generalizing candidates with
  | _ n ih =>
      subst hLength
      rw [tryCandidates]
      split
      · exact ⟨rfl, trivial⟩
      · refine ⟨rfl, fun choice => ?_⟩
        cases choice with
        | none => exact ⟨rfl, trivial⟩
        | some id =>
            show held _ (if _ : id ∈ candidates then _ else _) = _ ∧
              Keeps _ _ (if _ : id ∈ candidates then _ else _)
            split
            · rename_i hMem
              refine ⟨rfl, fun answer => ?_⟩
              cases answer with
              | none =>
                  obtain ⟨hHeld, hKeeps⟩ := ih _ (length_without_lt hMem) _ rfl
                  exact ⟨hHeld.trans (by simp [SelectionOp.grants]), hKeeps⟩
              | some adm =>
                  have hGrant : grantOn b (some (id, adm)) = SelectionOp.grants b (.tryBegin id) (some adm) := by
                    simp [grantOn, SelectionOp.grants]
                  exact ⟨hGrant, trivial⟩
            · exact ⟨rfl, trivial⟩

/-- A selection that has not begun holds nothing. -/
theorem accounts_selectBackend (b : BackendId) (pool : BackendPool) (incoming : IncomingRequest) :
    Selection.probesOn b (selectBackend pool incoming) = 0 ∧ Selection.Accounts b (selectBackend pool incoming) := by
  have hExamines : pool.routable.Asks fun op => ∀ answer, op.grants b answer = 0 := by
    have hRoutable (backend : BackendId) :
        (Backend.isRoutable backend).Asks fun op => ∀ answer, op.grants b answer = 0 := by
      refine ⟨fun _ => rfl, fun healthy => ?_⟩
      cases healthy with
      | false => trivial
      | true => exact ⟨fun _ => rfl, fun _ => trivial⟩
    have hLimit (backend : BackendId) :
        (pool.isUnderLimit backend).Asks fun op => ∀ answer, op.grants b answer = 0 :=
      ⟨fun _ => rfl, fun _ => trivial⟩
    exact (asks_filter hRoutable _).bind fun _ => (asks_filter hLimit _).bind fun _ => trivial
  exact hExamines.keeps_bind fun candidates => accounts_tryCandidates b incoming candidates

namespace Effect

/-- The delivery of a verdict, or of a missing one, for the probe of backend `b`. -/
def spendsProbe (b : BackendId) : Effect → Bool
  | .breaker backend call => decide (backend = b) && call.returns .probe
  | _ => false

/-- A breaker call that claims an admission. Only selections make one. -/
def isClaim : Effect → Bool
  | .breaker _ .tryBegin => true
  | _ => false

end Effect

namespace RequestAccounting

open Effect

variable (self : RequestAccounting) (b : BackendId)

/-- The probe of backend `b` that a guard holds. -/
def probesOn : Nat := if self.backend = b ∧ self.admission = .probe then 1 else 0

/-- A guard hands its probe to the verdict that its drop delivers. -/
theorem countP_drop_spendsProbe (clock : DropClock) :
    (self.drop clock).countP (spendsProbe b) = self.probesOn b := by
  have hVerdict : self.verdict.returns .probe = decide (self.admission = .probe) := by
    rcases self.verdict_cases with h | h | h <;> rw [h] <;> rfl
  rw [drop_eq]
  cases self.sample clock <;> simp [spendsProbe, hVerdict, probesOn, List.countP_cons]

theorem isClaim_of_mem_drop {clock : DropClock} {effect : Effect} (h : effect ∈ self.drop clock) :
    effect.isClaim = false := by
  have hVerdict : (Effect.breaker self.backend self.verdict).isClaim = false := by
    rcases self.verdict_cases with h | h | h <;> rw [h] <;> rfl
  rw [drop_eq] at h
  simp only [List.mem_append, List.mem_cons, List.mem_map, List.not_mem_nil, or_false] at h
  rcases h with (rfl | ⟨_, -, rfl⟩) | rfl | rfl | rfl | rfl
  all_goals first | rfl | exact hVerdict

/-- A probe that resolves on its headers is delivered there and then. -/
theorem resolve_probesOn (status : StatusCode) :
    (self.resolveProbeOnHeaders status).2.probesOn b +
      (self.resolveProbeOnHeaders status).1.countP (spendsProbe b) = self.probesOn b := by
  simp only [resolveProbeOnHeaders]
  split
  · rename_i hProbe
    by_cases hBackend : self.backend = b <;> simp [probesOn, spendsProbe, Call.returns, hProbe.1, hBackend]
  · rfl

theorem isClaim_of_mem_resolve {status : StatusCode} {effect : Effect}
    (h : effect ∈ (self.resolveProbeOnHeaders status).1) : effect.isClaim = false := by
  rw [resolveProbeOnHeaders] at h
  split at h
  · rw [List.mem_singleton.mp h]
    rfl
  · cases h

end RequestAccounting

namespace Phase

open Effect

/-- The probe of backend `b` that the guard of a phase holds. -/
def probesOn (b : BackendId) (phase : Phase) : Nat := phase.accounting.elim 0 (RequestAccounting.probesOn · b)

end Phase

/-- The probe of backend `b` that a handler is given. -/
def RequestEvent.probesOn (b : BackendId) : RequestEvent → Nat
  | .selected choice _ => grantOn b choice
  | _ => 0

namespace Phase

open Effect

/-- What a reaction takes over is what it hands on. -/
structure HandsOn (phase : Phase) (event : RequestEvent) (effects : List Effect) (next : Phase) : Prop where
  probes : ∀ b, next.probesOn b + effects.countP (spendsProbe b) = phase.probesOn b + event.probesOn b
  claimless : ∀ effect ∈ effects, effect.isClaim = false

theorem Over.probesOn_eq_zero {phase : Phase} (h : phase.Over) (b : BackendId) : phase.probesOn b = 0 := by
  rw [probesOn, h.accounting_eq_none]
  rfl

theorem probesOn_of_accounting {phase : Phase} {acc : RequestAccounting} (h : phase.accounting = some acc)
    (b : BackendId) : phase.probesOn b = acc.probesOn b := by
  rw [probesOn, h]
  rfl

variable {app : AppState} {phase next : Phase} {event : RequestEvent} {acc acc' : RequestAccounting}
  {effects : List Effect}

/-- The guard is dropped, after calls for a part of what it held. -/
theorem handsOn_of_drop (h : phase.accounting = some acc) (hOver : next.Over) (clock : DropClock)
    (hEvent : ∀ b, event.probesOn b = 0) (hClaimless : ∀ effect ∈ effects, effect.isClaim = false)
    (hProbes : ∀ b, acc'.probesOn b + effects.countP (spendsProbe b) = acc.probesOn b) :
    HandsOn phase event (effects ++ acc'.drop clock) next where
  probes b := by
    rw [hOver.probesOn_eq_zero, probesOn_of_accounting h, hEvent, List.countP_append,
      acc'.countP_drop_spendsProbe, ← hProbes b]
    omega
  claimless effect hMem := by
    rcases List.mem_append.mp hMem with hFirst | hDrop
    · exact hClaimless effect hFirst
    · exact acc'.isClaim_of_mem_drop hDrop

theorem handsOn_of_finish (h : phase.accounting = some acc) (hOver : next.Over) (outcome : Outcome) (clock : DropClock)
    (hEvent : ∀ b, event.probesOn b = 0) : HandsOn phase event (acc.finish outcome clock) next := by
  have hKept : ∀ b, ({ acc with outcome } : RequestAccounting).probesOn b + [].countP (spendsProbe b) =
      acc.probesOn b := fun _ => rfl
  exact handsOn_of_drop h hOver clock hEvent (List.forall_mem_nil _) hKept

/-- A reaction is the one that the event leads to. -/
theorem Step.handsOn_of_react {effects' : List Effect} {next' : Phase} (step : Step app phase (event, effects) next)
    (hReact : phase.react app event = some (effects', next')) (h : HandsOn phase event effects' next') :
    HandsOn phase event effects next := by
  have hSame : some (effects, next) = some (effects', next') := step.symm.trans hReact
  cases hSame
  exact h

/-- The answer of the backend moves the guard into the body or drops it. -/
theorem handsOn_answered {upstream : Upstream} {clock : DropClock}
    (step : Step app (.forwarding acc) (.answered upstream clock, effects) next) :
    HandsOn (.forwarding acc) (.answered upstream clock) effects next := by
  have hAlive : (Phase.forwarding acc).accounting = some acc := rfl
  cases hForward : forwardRequest upstream with
  | error err =>
      simp only [Step, react, hForward, finishForwardError, Option.some.injEq, Prod.mk.injEq] at step
      obtain ⟨rfl, rfl⟩ := step
      cases err with
      | connect => exact handsOn_of_finish hAlive (over_error _) .transportError clock fun _ => rfl
      | body headersAt =>
          exact handsOn_of_drop hAlive (over_error _) clock (fun _ => rfl) (List.forall_mem_nil _) fun _ => rfl
  | ok forwarded =>
      let arrived := acc.markHeadersReceivedAt forwarded.headersAt
      have hResolve (b : BackendId) := arrived.resolve_probesOn b forwarded.status
      have hClaimless : ∀ effect ∈ (arrived.resolveProbeOnHeaders forwarded.status).1, effect.isClaim = false :=
        fun effect hMem => arrived.isClaim_of_mem_resolve hMem
      simp only [Step, react, hForward, intoResponse, Option.some.injEq, Prod.mk.injEq] at step
      obtain ⟨rfl, rfl⟩ := step
      cases hBody : forwarded.body with
      | full bytes => exact handsOn_of_drop hAlive (over_full _ _ _) clock (fun _ => rfl) hClaimless hResolve
      | stream => exact ⟨hResolve, hClaimless⟩

/-- No reaction makes a probe or loses one. -/
theorem Step.handsOn (step : Step app phase (event, effects) next) : HandsOn phase event effects next := by
  cases phase with
  | arrived =>
      cases event with
      | acquire acquired =>
          cases acquired with
          | true => exact step.handsOn_of_react rfl ⟨fun _ => rfl, List.forall_mem_nil _⟩
          | false => exact step.handsOn_of_react rfl ⟨fun _ => rfl, by simp [isClaim]⟩
      | _ => simp [Step, react] at step
  | readingBody =>
      cases event with
      | bodyRead failure =>
          cases failure with
          | none => exact step.handsOn_of_react rfl ⟨fun _ => rfl, List.forall_mem_nil _⟩
          | some err => exact step.handsOn_of_react rfl ⟨fun _ => rfl, by simp [isClaim]⟩
      | dropped clock => exact step.handsOn_of_react rfl ⟨fun _ => rfl, by simp [isClaim]⟩
      | _ => simp [Step, react] at step
  | selecting =>
      cases event with
      | selected choice startedAt =>
          cases choice with
          | none => exact step.handsOn_of_react rfl ⟨fun _ => rfl, by simp [isClaim]⟩
          | some choice => exact step.handsOn_of_react rfl ⟨fun b => (Nat.zero_add _).symm, by simp [isClaim]⟩
      | _ => simp [Step, react] at step
  | forwarding acc =>
      cases event with
      | answered upstream clock => exact handsOn_answered step
      | dropped clock =>
          exact step.handsOn_of_react rfl (handsOn_of_finish rfl over_gone acc.outcome clock fun _ => rfl)
      | _ => simp [Step, react] at step
  | replied result =>
      cases result with
      | error status => cases event <;> simp [Step, react] at step
      | ok response =>
          cases hAlive : (Phase.replied (.ok response)).accounting with
          | none =>
              have hOver : (Phase.replied (.ok response)).Over := hAlive
              obtain ⟨rfl, hNext, hEvent⟩ := step.of_over hOver
              refine ⟨fun b => ?_, List.forall_mem_nil _⟩
              rw [hNext.probesOn_eq_zero, hOver.probesOn_eq_zero]
              rcases hEvent with ⟨_, _, rfl⟩ | ⟨_, rfl⟩ <;> rfl
          | some acc =>
              cases hBody : response.body with
              | full bytes => simp [accounting, hBody] at hAlive
              | stream body =>
                  have hBodyAlive : body.accounting = some acc := by
                    simpa [accounting, hBody] using hAlive
                  obtain ⟨hEvent, hNext⟩ := step.of_streaming hBody hBodyAlive
                  have hNone : ∀ b, event.probesOn b = 0 := by
                    rcases hEvent with ⟨_, _, rfl⟩ | ⟨_, rfl⟩ <;> exact fun _ => rfl
                  rcases hNext with ⟨rfl, response', body', rfl, hBody', hAlive'⟩ | ⟨outcome, clock, rfl, hOver⟩
                  · refine ⟨fun b => ?_, List.forall_mem_nil _⟩
                    have hKept : (Phase.replied (.ok response')).accounting = some acc := by
                      simp [accounting, hBody', hAlive']
                    rw [probesOn_of_accounting hAlive, probesOn_of_accounting hKept, hNone]
                    rfl
                  · exact handsOn_of_finish hAlive hOver outcome clock hNone
  | gone => cases event <;> simp [Step, react] at step

end Phase

/-- The probe of backend `b` that a request holds, one about to be delivered included. -/
def Request.probesOn (b : BackendId) (self : Request) : Nat :=
  self.phase.probesOn b + self.pending.countP (Effect.spendsProbe b)

theorem Request.Ended.probesOn_eq_zero {request : Request} (h : request.Ended) (b : BackendId) :
    request.probesOn b = 0 := by
  rw [Request.probesOn, h.1.probesOn_eq_zero, h.2]
  rfl

namespace RouterAction

/-- The clock reading of the effect that an action does. -/
def now : RouterAction → Nat
  | .react _ _ now | .perform _ now => now
  | _ => 0

def isEnvironment : RouterAction → Bool
  | .environment _ => true
  | _ => false

/-- The probe of backend `b` that an action gives to a handler. -/
def probesOn (b : BackendId) : RouterAction → Nat
  | .react _ event _ => event.probesOn b
  | _ => 0

end RouterAction

namespace Router

variable {app : AppState} {s : Router} {b : BackendId}

/-- The probes of backend `b` that its requests hold. -/
def probesOn (b : BackendId) (self : Router) : Nat := sumOver (Request.probesOn b) self.requests

/-- No request is about to claim an admission. -/
def Claimless (self : Router) : Prop :=
  ∀ request ∈ self.requests, ∀ effect ∈ request.pending, effect.isClaim = false

theorem commit_backends (s : Router) (i : Nat) (phase : Phase) (effects : List Effect) (now : Nat) :
    (s.commit i phase effects now).2.backends =
      (s.commit i phase effects now).1.elim s.backends fun effect => (s.execute now effect).backends := by
  cases effects with
  | nil => rfl
  | cons effect rest => cases effect <;> rfl

/-- Of what backends are, requests change no more than their effects do. -/
theorem act_backends (app : AppState) (s : Router) {action : RouterAction} (h : action.isEnvironment = false) :
    (s.act app action).2.backends =
      (s.act app action).1.elim s.backends fun effect => (s.execute action.now effect).backends := by
  cases action with
  | arrive => rfl
  | environment => cases h
  | acquire i =>
      simp only [act]
      split
      · split <;> rfl
      · rfl
  | perform i now =>
      simp only [act]
      split
      · exact s.commit_backends ..
      · rfl
  | react i event now =>
      cases event with
      | acquire => rfl
      | _ =>
          simp only [act]
          split
          · split
            · exact s.commit_backends ..
            · rfl
          · rfl

/-- An update of one backend leaves alone what it does of that one, and all others. -/
theorem updateBackend_field {α : Type} (field : Backend → α) (s : Router) (backend : BackendId)
    (f : Backend → Backend) (hField : ∀ x, field (f x) = field x) (b : BackendId) :
    field ((s.updateBackend backend f).backends b) = field (s.backends b) := by
  by_cases hSame : b = backend
  · subst hSame
    exact (congrArg field (Function.update_self ..)).trans (hField _)
  · exact congrArg field (Function.update_of_ne hSame ..)

/-- No effect changes what a backend is called, and only a breaker call its breaker. -/
theorem execute_field {α : Type} {field : Backend → α} (s : Router) (now : Nat) {effect : Effect} {b : BackendId}
    (hConnections : ∀ x n, field { x with activeConnections := n } = field x)
    (hLatency : ∀ x n, field { x with ewmaLatencyUs := n } = field x)
    (hCall : ∀ call, effect = .breaker b call → ∀ x breaker, field { x with breaker } = field x) :
    field ((s.execute now effect).backends b) = field (s.backends b) := by
  cases effect with
  | recordRequestStart backend => exact s.updateBackend_field field backend _ (fun x => hConnections x _) b
  | recordRequestEnd backend => exact s.updateBackend_field field backend _ (fun x => hConnections x _) b
  | updateEwmaLatency backend latency alpha =>
      exact s.updateBackend_field field backend (fun x => x.updateEwmaLatency latency alpha)
        (fun x => hLatency x _) b
  | breaker backend call =>
      by_cases hSame : b = backend
      · subst hSame
        exact s.updateBackend_field field b (fun x => { x with breaker := (x.breaker.serve ⟨now, call⟩).2 })
          (fun x => hCall call rfl x _) b
      · exact congrArg field (Function.update_of_ne hSame ..)
  | _ => rfl

theorem execute_id (s : Router) (now : Nat) (effect : Effect) (b : BackendId) :
    ((s.execute now effect).backends b).id = (s.backends b).id :=
  s.execute_field now (fun _ _ => rfl) (fun _ _ => rfl) fun _ _ _ _ => rfl

/-- What an effect does to the breaker of backend `b`. -/
theorem execute_breaker (s : Router) (now : Nat) (effect : Effect) (b : BackendId) :
    ((s.execute now effect).backends b).breaker = (s.backends b).breaker ∧ effect.spendsProbe b = false ∨
      ∃ call, effect = .breaker b call ∧
        ((s.execute now effect).backends b).breaker = ((s.backends b).breaker.serve ⟨now, call⟩).2 := by
  by_cases hCall : ∃ call, effect = .breaker b call
  · obtain ⟨call, rfl⟩ := hCall
    exact .inr ⟨call, rfl, by simp only [execute, updateBackend, Function.update_self]⟩
  · have hNone : ∀ call, effect ≠ .breaker b call := fun call hEq => hCall ⟨call, hEq⟩
    refine .inl ⟨s.execute_field now (fun _ _ => rfl) (fun _ _ => rfl) fun call hEq => absurd hEq (hNone call), ?_⟩
    cases effect with
    | breaker backend call =>
        have hOther : backend ≠ b := fun hSame => hNone call (by rw [hSame])
        simp [Effect.spendsProbe, hOther]
    | _ => rfl

theorem act_id (app : AppState) (s : Router) {action : RouterAction} (h : action.isEnvironment = false)
    (b : BackendId) : ((s.act app action).2.backends b).id = (s.backends b).id := by
  rw [act_backends app s h]
  cases (s.act app action).1 with
  | none => rfl
  | some effect => exact s.execute_id action.now effect b

/-- Going on with some effects hands on what the request had and was given. -/
theorem commit_probes {i : Nat} {request : Request} {next : Phase} {effects : List Effect} {granted : Nat}
    (hRequest : s.requests[i]? = some request)
    (hHandsOn : next.probesOn b + effects.countP (Effect.spendsProbe b) = request.probesOn b + granted) (now : Nat) :
    (s.commit i next effects now).2.probesOn b +
        (s.commit i next effects now).1.toList.countP (Effect.spendsProbe b) =
      s.probesOn b + granted := by
  obtain ⟨left, hEffects, hRequests⟩ := s.commit_cases i next effects now
  have hSum := sumOver_set (Request.probesOn b) hRequest ⟨next, left⟩
  rw [probesOn, probesOn, hRequests]
  rw [hEffects, List.countP_append] at hHandsOn
  simp only [Request.probesOn] at hSum hHandsOn ⊢
  omega

theorem act_react {i : Nat} {phase next : Phase} {event : RequestEvent} {effects : List Effect} {now : Nat}
    (hRequest : s.requests[i]? = some ⟨phase, []⟩) (hReact : phase.react app event = some (effects, next))
    (hEvent : ∀ acquired, event ≠ .acquire acquired) :
    s.act app (.react i event now) = s.commit i next effects now := by
  cases event with
  | acquire acquired => exact absurd rfl (hEvent acquired)
  | _ => simp only [act, hRequest, hReact]

/-- A step that gives no request anything makes no probe and loses none. -/
theorem act_probes (app : AppState) (s : Router) {action : RouterAction} (h : action.probesOn b = 0) :
    (s.act app action).2.probesOn b + (s.act app action).1.toList.countP (Effect.spendsProbe b) = s.probesOn b := by
  have hTransition := s.act_transition app action
  generalize (s.act app action).1 = effect at hTransition ⊢
  generalize (s.act app action).2 = t at hTransition ⊢
  cases hTransition with
  | idle hRequests => rw [probesOn, hRequests]; rfl
  | arrived _ hRequests =>
      rw [probesOn, hRequests, sumOver_append]
      rfl
  | @performed t i request _ left hRequest hPending hRequests =>
      have hSum := sumOver_set (Request.probesOn b) hRequest ⟨request.phase, left⟩
      rw [probesOn, probesOn, hRequests]
      simp only [Request.probesOn, hPending, List.countP_append] at hSum ⊢
      omega
  | @reacted t i phase next event _ left hAction hRequest step hRequests =>
      have hNone : event.probesOn b = 0 := by
        rcases hAction with ⟨_, rfl⟩ | ⟨_, rfl⟩
        · rfl
        · exact h
      have hHandsOn := step.handsOn.probes b
      have hSum := sumOver_set (Request.probesOn b) hRequest ⟨next, left⟩
      rw [probesOn, probesOn, hRequests]
      rw [hNone, List.countP_append] at hHandsOn
      simp only [Request.probesOn, List.countP_nil] at hSum ⊢
      omega

/-- Requests never claim an admission by themselves. -/
theorem Claimless.act (h : s.Claimless) (app : AppState) (action : RouterAction) :
    (s.act app action).2.Claimless ∧ ∀ effect ∈ (s.act app action).1, effect.isClaim = false := by
  have hTransition := s.act_transition app action
  generalize (s.act app action).1 = effect at hTransition ⊢
  generalize (s.act app action).2 = t at hTransition ⊢
  have hSet {i : Nat} {request : Request} {left : List Effect} (hRequests : t.requests = s.requests.set i request)
      (hPending : request.pending = left) (hAll : ∀ e ∈ effect.toList ++ left, e.isClaim = false) :
      t.Claimless ∧ ∀ e ∈ effect, e.isClaim = false := by
    refine ⟨fun r hMem e hPend => ?_, fun e hMem => ?_⟩
    · rw [hRequests] at hMem
      rcases List.mem_or_eq_of_mem_set hMem with hOld | rfl
      · exact h r hOld e hPend
      · exact hAll e (List.mem_append_right _ (hPending ▸ hPend))
    · exact hAll e (List.mem_append_left _ (Option.mem_toList.mpr hMem))
  cases hTransition with
  | idle hRequests =>
      refine ⟨fun r hMem => ?_, nofun⟩
      rw [hRequests] at hMem
      exact h r hMem
  | arrived _ hRequests =>
      refine ⟨fun r hMem => ?_, nofun⟩
      rw [hRequests] at hMem
      rcases List.mem_append.mp hMem with hOld | hNew
      · exact h r hOld
      · rw [List.mem_singleton.mp hNew]
        exact List.forall_mem_nil _
  | performed hRequest hPending hRequests =>
      refine hSet hRequests rfl fun e hMem => ?_
      exact h _ (List.mem_of_getElem? hRequest) e (hPending ▸ hMem)
  | reacted _ _ step hRequests => exact hSet hRequests rfl step.handsOn.claimless

/-- Request `i` is in its selection. -/
def Selecting (self : Router) (i : Nat) : Prop :=
  ∃ request, self.requests[i]? = some request ∧ request.phase = .selecting

/-- A selection lasts until the handler takes its answer. -/
theorem Selecting.act {i : Nat} (h : s.Selecting i) (app : AppState) {action : RouterAction}
    (hAction : ∀ choice startedAt now, action ≠ .react i (.selected choice startedAt) now) :
    (s.act app action).2.Selecting i := by
  obtain ⟨request, hRequest, hPhase⟩ := h
  have hTransition := s.act_transition app action
  generalize (s.act app action).1 = effect at hTransition
  generalize (s.act app action).2 = t at hTransition ⊢
  have hBound : i < s.requests.length := (List.getElem?_eq_some_iff.mp hRequest).1
  cases hTransition with
  | idle hRequests => exact ⟨request, hRequests ▸ hRequest, hPhase⟩
  | arrived _ hRequests =>
      refine ⟨request, ?_, hPhase⟩
      rw [hRequests, List.getElem?_append_left hBound, hRequest]
  | @performed t j other _ left hOther _ hRequests =>
      rw [Selecting, hRequests]
      by_cases hSame : j = i
      · subst hSame
        obtain rfl : other = request := Option.some.inj (hOther.symm.trans hRequest)
        exact ⟨_, List.getElem?_set_self hBound, hPhase⟩
      · exact ⟨request, (List.getElem?_set_ne hSame).trans hRequest, hPhase⟩
  | @reacted t j phase next event _ left hReacts hOther step hRequests =>
      have hNe : j ≠ i := by
        rintro rfl
        obtain rfl : request = ⟨phase, []⟩ := Option.some.inj (hRequest.symm.trans hOther)
        obtain rfl : phase = .selecting := hPhase
        cases event with
        | selected choice startedAt =>
            rcases hReacts with ⟨_, hAcquire⟩ | ⟨now, hReact⟩
            · cases hAcquire
            · exact hAction choice startedAt now hReact
        | _ => simp [Phase.Step, Phase.react] at step
      rw [Selecting, hRequests]
      exact ⟨request, (List.getElem?_set_ne hNe).trans hRequest, hPhase⟩

end Router

end InferenceRouter
