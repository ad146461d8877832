import InferenceRouter.Server.AccountedOnce
import InferenceRouter.Server.Conservation

/-! What a step of a request, and a step of the router, can do. Every fact about
the metrics is derived from these two lists of cases. -/
namespace InferenceRouter

open Semantics

def Effect.isBreakerCall (self : Effect) : Bool := self.breakerCall.isSome

namespace Phase

/-- What the metrics can see of a reaction: nothing, a rejection, the start of a
guard, breaker calls, or the drop of a guard after breaker calls. -/
inductive Reaction (app : AppState) : Phase → RequestEvent → List Effect → Phase → Prop where
  | acquired : Reaction app .arrived (.acquire true) [] .readingBody
  | refused (status : StatusCode) :
      Reaction app .arrived (.acquire false) [.incRejected "backpressure"] (.replied (.error status))
  | read : Reaction app .readingBody (.bodyRead none) [] .selecting
  | unreadable (err : BodyError) (status : StatusCode) :
      Reaction app .readingBody (.bodyRead (some err))
        [.incRejected (bodyErrorStatus err).2, .releasePermit] (.replied (.error status))
  | lost (clock : DropClock) : Reaction app .readingBody (.dropped clock) [.releasePermit] .gone
  | unroutable (startedAt : Nat) (status : StatusCode) :
      Reaction app .selecting (.selected none startedAt)
        [.incRejected "no_routable_backend", .releasePermit] (.replied (.error status))
  | started {backend : BackendId} {adm : Admission} {startedAt : Nat} {acc : RequestAccounting}
      (hBackend : acc.backend = backend) (hStrategy : acc.strategyName = app.strategyName) :
      Reaction app .selecting (.selected (some (backend, adm)) startedAt)
        [.recordRequestStart backend] (.forwarding acc)
  | kept {phase next : Phase} {acc acc' : RequestAccounting} {event : RequestEvent}
      {effects : List Effect} (hAlive : phase.accounting = some acc)
      (hNext : next.accounting = some acc') (hBackend : acc'.backend = acc.backend)
      (hStrategy : acc'.strategyName = acc.strategyName)
      (hCalls : ∀ e ∈ effects, e.isBreakerCall = true) : Reaction app phase event effects next
  | finished {phase next : Phase} {acc : RequestAccounting} {event : RequestEvent}
      (calls : List Effect) (acc' : RequestAccounting) (clock : DropClock) (hAlive : phase.accounting = some acc)
      (hOver : next.Over) (hBackend : acc'.backend = acc.backend)
      (hStrategy : acc'.strategyName = acc.strategyName)
      (hCalls : ∀ e ∈ calls, e.isBreakerCall = true) :
      Reaction app phase event (calls ++ acc'.drop clock) next
  | idle {phase next : Phase} {event : RequestEvent} (hOver : phase.Over) (hNext : next.Over) :
      Reaction app phase event [] next

end Phase

/-- Resolving a probe makes breaker calls only, and keeps the labels. -/
theorem RequestAccounting.resolve_calls (self : RequestAccounting) (status : StatusCode) :
    (∀ e ∈ (self.resolveProbeOnHeaders status).1, e.isBreakerCall = true) ∧
      (self.resolveProbeOnHeaders status).2.backend = self.backend ∧
      (self.resolveProbeOnHeaders status).2.strategyName = self.strategyName := by
  simp only [resolveProbeOnHeaders]
  split
  · exact ⟨by simp [Effect.isBreakerCall, Effect.breakerCall], rfl, rfl⟩
  · exact ⟨by simp, rfl, rfl⟩

namespace Phase

variable {app : AppState} {phase next : Phase} {event : RequestEvent} {effects : List Effect}

/-- The answer of the backend keeps the guard in the body or drops it. -/
theorem reaction_answered {acc : RequestAccounting} {upstream : Upstream} {clock : DropClock}
    (step : Step app (.forwarding acc) (.answered upstream clock, effects) next) :
    Reaction app (.forwarding acc) (.answered upstream clock) effects next := by
  have hAlive : (Phase.forwarding acc).accounting = some acc := rfl
  cases hForward : forwardRequest upstream with
  | error err =>
      simp only [Step, react, hForward, finishForwardError, Option.some.injEq, Prod.mk.injEq] at step
      obtain ⟨rfl, rfl⟩ := step
      cases err with
      | connect =>
          exact .finished [] { acc with outcome := .transportError } clock hAlive (over_error _) rfl rfl
            (List.forall_mem_nil _)
      | body headersAt =>
          exact .finished [] { acc.markHeadersReceivedAt headersAt with outcome := .streamError } clock
            hAlive (over_error _) rfl rfl (List.forall_mem_nil _)
  | ok forwarded =>
      obtain ⟨hCalls, hBackend, hStrategy⟩ :=
        (acc.markHeadersReceivedAt forwarded.headersAt).resolve_calls forwarded.status
      simp only [Step, react, hForward, intoResponse, Option.some.injEq, Prod.mk.injEq] at step
      obtain ⟨rfl, rfl⟩ := step
      cases hBody : forwarded.body with
      | full bytes =>
          exact .finished _ { ((acc.markHeadersReceivedAt forwarded.headersAt).resolveProbeOnHeaders
            forwarded.status).2 with outcome := .completed forwarded.status } clock hAlive
            (over_full _ _ _) hBackend hStrategy hCalls
      | stream => exact .kept hAlive rfl hBackend hStrategy hCalls

/-- Every step is one of these reactions. -/
theorem Step.reaction (step : Step app phase (event, effects) next) :
    Reaction app phase event effects next := by
  cases phase with
  | arrived =>
      cases event with
      | acquire acquired =>
          cases acquired with
          | true =>
              simp only [Step, react, Option.some.injEq, Prod.mk.injEq] at step
              obtain ⟨rfl, rfl⟩ := step
              exact .acquired
          | false =>
              simp only [Step, react, Option.some.injEq, Prod.mk.injEq] at step
              obtain ⟨rfl, rfl⟩ := step
              exact .refused _
      | _ => simp [Step, react] at step
  | readingBody =>
      cases event with
      | bodyRead failure =>
          cases failure with
          | none =>
              simp only [Step, react, Option.some.injEq, Prod.mk.injEq] at step
              obtain ⟨rfl, rfl⟩ := step
              exact .read
          | some err =>
              simp only [Step, react, Option.some.injEq, Prod.mk.injEq] at step
              obtain ⟨rfl, rfl⟩ := step
              exact .unreadable err _
      | dropped clock =>
          simp only [Step, react, Option.some.injEq, Prod.mk.injEq] at step
          obtain ⟨rfl, rfl⟩ := step
          exact .lost clock
      | _ => simp [Step, react] at step
  | selecting =>
      cases event with
      | selected choice startedAt =>
          cases choice with
          | none =>
              simp only [Step, react, Option.some.injEq, Prod.mk.injEq] at step
              obtain ⟨rfl, rfl⟩ := step
              exact .unroutable startedAt _
          | some choice =>
              simp only [Step, react, RequestAccounting.start, Option.some.injEq, Prod.mk.injEq] at step
              obtain ⟨rfl, rfl⟩ := step
              exact .started rfl rfl
      | _ => simp [Step, react] at step
  | forwarding acc =>
      cases event with
      | answered upstream clock => exact reaction_answered step
      | dropped clock =>
          simp only [Step, react, Option.some.injEq, Prod.mk.injEq] at step
          obtain ⟨rfl, rfl⟩ := step
          exact .finished [] acc clock rfl over_gone rfl rfl (List.forall_mem_nil _)
      | _ => simp [Step, react] at step
  | replied result =>
      cases result with
      | error status => cases event <;> simp [Step, react] at step
      | ok response =>
          cases hAlive : (Phase.replied (.ok response)).accounting with
          | none =>
              obtain ⟨rfl, hNext, _⟩ := step.of_over hAlive
              exact .idle hAlive hNext
          | some acc =>
              cases hBody : response.body with
              | full bytes => simp [accounting, hBody] at hAlive
              | stream body =>
                  have hBodyAlive : body.accounting = some acc := by
                    simpa [accounting, hBody] using hAlive
                  obtain ⟨_, hNext⟩ := step.of_streaming hBody hBodyAlive
                  rcases hNext with ⟨rfl, response', body', rfl, hBody', hAlive'⟩ | ⟨outcome, clock, rfl, hOver⟩
                  · refine .kept hAlive ?_ rfl rfl (List.forall_mem_nil _)
                    simp [accounting, hBody', hAlive']
                  · exact .finished [] { acc with outcome } clock hAlive hOver rfl rfl
                      (List.forall_mem_nil _)
  | gone => cases event <;> simp [Step, react] at step

end Phase

/-- A request whose future is dropped while its body is read is never counted. -/
def Phase.loses : Phase → RequestEvent → Nat
  | .readingBody, .dropped _ => 1
  | _, _ => 0

theorem Phase.loses_of_react_eq_none {app : AppState} {phase : Phase} {event : RequestEvent}
    (h : phase.react app event = none) : phase.loses event = 0 := by
  cases phase with
  | readingBody =>
      cases event with
      | dropped clock => cases h
      | _ => rfl
  | _ => rfl

def RouterAction.isArrival : RouterAction → Bool
  | .arrive => true
  | _ => false

namespace Router

/-- The requests that go uncounted by an action. -/
def loses (self : Router) : RouterAction → Nat
  | .react i event _ =>
      match self.requests[i]? with
      | some ⟨phase, []⟩ => phase.loses event
      | _ => 0
  | _ => 0

/-- What an action does to the requests, and the effect it does. -/
inductive Transition (app : AppState) (s : Router) (action : RouterAction) :
    Option Effect → Router → Prop where
  | idle {s' : Router} (hRequests : s'.requests = s.requests) (hLoses : s.loses action = 0) :
      Transition app s action none s'
  | arrived {s' : Router} (hAction : action = .arrive)
      (hRequests : s'.requests = s.requests ++ [⟨.arrived, []⟩])
      (hLoses : s.loses action = 0) : Transition app s action none s'
  | performed {s' : Router} {i : Nat} {request : Request} {effect : Option Effect} {left : List Effect}
      (hRequest : s.requests[i]? = some request) (hPending : request.pending = effect.toList ++ left)
      (hRequests : s'.requests = s.requests.set i ⟨request.phase, left⟩)
      (hLoses : s.loses action = 0) : Transition app s action effect s'
  | reacted {s' : Router} {i : Nat} {phase next : Phase} {event : RequestEvent}
      {effect : Option Effect} {left : List Effect}
      (hAction : (∃ acquired, event = .acquire acquired) ∨ ∃ now, action = .react i event now)
      (hRequest : s.requests[i]? = some ⟨phase, []⟩)
      (step : Phase.Step app phase (event, effect.toList ++ left) next)
      (hRequests : s'.requests = s.requests.set i ⟨next, left⟩)
      (hLoses : s.loses action = phase.loses event) : Transition app s action effect s'

/-- Going on with some effects does the first of them. -/
theorem commit_cases (s : Router) (i : Nat) (phase : Phase) (effects : List Effect) (now : Nat) :
    ∃ left, effects = (s.commit i phase effects now).1.toList ++ left ∧
      (s.commit i phase effects now).2.requests = s.requests.set i ⟨phase, left⟩ := by
  cases effects with
  | nil => exact ⟨[], rfl, rfl⟩
  | cons effect rest => exact ⟨rest, rfl, execute_requests _ now effect⟩

/-- Every action is one of these transitions. -/
theorem act_transition (app : AppState) (s : Router) (action : RouterAction) :
    Transition app s action (s.act app action).1 (s.act app action).2 := by
  cases action with
  | arrive => exact .arrived rfl rfl rfl
  | environment backends => exact .idle rfl rfl
  | acquire i =>
      simp only [act]
      split
      · rename_i hRequest
        split
        · rename_i effects phase hReact
          have hStep : Phase.Step app .arrived
              (.acquire s.backpressure.tryAcquire.1.isSome, (none : Option Effect).toList ++ effects) phase :=
            hReact
          exact .reacted (.inl ⟨_, rfl⟩) hRequest hStep rfl rfl
        · exact .idle rfl rfl
      · exact .idle rfl rfl
  | perform i now =>
      simp only [act]
      split
      · rename_i phase effects hRequest
        obtain ⟨left, hEffects, hRequests⟩ := s.commit_cases i phase effects now
        exact .performed hRequest hEffects hRequests rfl
      · exact .idle rfl rfl
  | react i event now =>
      cases event with
      | acquire acquired =>
          refine .idle rfl ?_
          simp only [loses]
          split
          · rename_i phase _
            cases phase <;> rfl
          · rfl
      | _ =>
          simp only [act]
          split
          · rename_i phase hRequest
            have hLoses (event : RequestEvent) : s.loses (.react i event now) = phase.loses event := by
              simp only [loses, hRequest]
            split
            · rename_i effects next hReact
              obtain ⟨left, hEffects, hRequests⟩ := s.commit_cases i next effects now
              rw [hEffects] at hReact
              exact .reacted (.inr ⟨now, rfl⟩) hRequest hReact hRequests (hLoses _)
            · rename_i hReact
              exact .idle rfl ((hLoses _).trans (Phase.loses_of_react_eq_none hReact))
          · rename_i hRequest
            refine .idle rfl ?_
            simp only [loses]

theorem length_requests_act (app : AppState) (s : Router) (action : RouterAction) :
    (s.act app action).2.requests.length =
      s.requests.length + if action.isArrival then 1 else 0 := by
  have hKept (hArrival : action.isArrival = false) :
      (s.act app action).2.requests.length = s.requests.length := by
    have hTransition := s.act_transition app action
    generalize (s.act app action).1 = effect at hTransition
    generalize (s.act app action).2 = next at hTransition ⊢
    cases hTransition with
    | idle hRequests => rw [hRequests]
    | arrived hAction => simp [hAction, RouterAction.isArrival] at hArrival
    | performed _ _ hRequests => rw [hRequests, List.length_set]
    | reacted _ _ _ hRequests => rw [hRequests, List.length_set]
  cases action with
  | arrive => simp [act, RouterAction.isArrival]
  | _ => exact hKept rfl

/-- A request keeps its position for ever, so there are as many as arrived. -/
theorem length_requests_replay (app : AppState) (s : Router) (actions : List RouterAction) :
    (replay (Router.act app) s actions).2.requests.length =
      s.requests.length + actions.countP RouterAction.isArrival := by
  induction actions generalizing s with
  | nil => rfl
  | cons action actions ih =>
      rw [replay, ih, length_requests_act, List.countP_cons]
      omega

end Router

end InferenceRouter
