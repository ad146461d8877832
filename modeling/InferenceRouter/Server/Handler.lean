import InferenceRouter.Accounting.Stream
import InferenceRouter.Proxy

/-! One run of `proxy_handler` and the response body it leaves behind, as a
machine that reacts to its environment: the answers of shared objects, the
network, and the drop of the future or of the body. A reaction is the effects it
has on shared objects, in program order, and the next phase. -/
namespace InferenceRouter

/-- What a handler reads of the `AppState`, besides the shared objects. -/
structure AppState where
  strategyName : String
  ewmaAlpha : ℚ
  url : BackendId → String

/-- Why the request body could not be read. -/
inductive BodyError where
  | tooLarge
  | unreadable
  deriving DecidableEq

def bodyErrorStatus : BodyError → StatusCode × String
  | .tooLarge => (⟨413, by decide⟩, "body_too_large")
  | .unreadable => (⟨400, by decide⟩, "bad_body")

inductive ResponseBody where
  | full (bytes : List UInt8)
  | stream (body : AccountedStream)

structure Response where
  status : StatusCode
  headers : HeaderMap
  body : ResponseBody

/-- The response for the client. A stream takes the guard along. -/
def intoResponse (forwarded : Forwarded) (backendUrl : String) (accounting : RequestAccounting)
    (clock : DropClock) : List Effect × Response :=
  let status := forwarded.status
  let (resolved, accounting) := accounting.resolveProbeOnHeaders status
  let headers := forwarded.headers ++ [("x-router-backend", backendUrl.toUTF8.toList)]
  match forwarded.body with
  | .full bytes =>
      (resolved ++ accounting.finish (.completed status) clock, { status, headers, body := .full bytes })
  | .stream => (resolved, { status, headers, body := .stream (.new status accounting) })

/-- The verdict for a failed forward, and the client's status. -/
def finishForwardError (accounting : RequestAccounting) (err : ForwardError) (clock : DropClock) :
    List Effect × StatusCode :=
  match err with
  | .connect => (accounting.finish .transportError clock, err.status)
  | .body headersAt =>
      ((accounting.markHeadersReceivedAt headersAt).finish .streamError clock, err.status)

/-- Where a request is. Every phase but the last two is a point where the
handler waits for its environment. -/
inductive Phase where
  | arrived
  | readingBody
  | selecting
  | forwarding (accounting : RequestAccounting)
  /-- The handler has returned; of a response the body may still be running. -/
  | replied (result : Except StatusCode Response)
  /-- The future, or the body of the response, was dropped. -/
  | gone

/-- What the environment does next. -/
inductive RequestEvent where
  /-- The answer of `try_acquire`. -/
  | acquire (acquired : Bool)
  | bodyRead (failure : Option BodyError)
  /-- The answer of `select_backend`, and the clock reading of the guard's start. -/
  | selected (choice : Option (BackendId × Admission)) (startedAt : Nat)
  | answered (upstream : Upstream) (clock : DropClock)
  | polled (inner : StreamPoll) (clock : DropClock)
  /-- The future is dropped at an await point, or the body at any time. -/
  | dropped (clock : DropClock)

/-- The reaction of a request, or none where the event cannot happen. -/
def Phase.react (app : AppState) : Phase → RequestEvent → Option (List Effect × Phase)
  | .arrived, .acquire true => some ([], .readingBody)
  | .arrived, .acquire false =>
      some ([.incRejected "backpressure"], .replied (.error ⟨429, by decide⟩))
  | .readingBody, .bodyRead none => some ([], .selecting)
  | .readingBody, .bodyRead (some err) =>
      let (status, reason) := bodyErrorStatus err
      some ([.incRejected reason, .releasePermit], .replied (.error status))
  | .readingBody, .dropped _ => some ([.releasePermit], .gone)
  | .selecting, .selected none _ =>
      some ([.incRejected "no_routable_backend", .releasePermit], .replied (.error ⟨503, by decide⟩))
  | .selecting, .selected (some (backend, adm)) startedAt =>
      let (effects, accounting) :=
        RequestAccounting.start backend app.strategyName app.ewmaAlpha adm startedAt
      some (effects, .forwarding accounting)
  | .forwarding accounting, .answered upstream clock =>
      match forwardRequest upstream with
      | .ok forwarded =>
          let accounting := accounting.markHeadersReceivedAt forwarded.headersAt
          let (effects, response) :=
            intoResponse forwarded (app.url accounting.backend) accounting clock
          some (effects, .replied (.ok response))
      | .error err =>
          let (effects, status) := finishForwardError accounting err clock
          some (effects, .replied (.error status))
  | .forwarding accounting, .dropped clock => some (accounting.drop clock, .gone)
  | .replied (.ok response), .polled inner clock =>
      match response.body with
      | .stream body =>
          let (_, effects, body) := body.pollNext inner clock
          some (effects, .replied (.ok { response with body := .stream body }))
      | .full _ => none
  | .replied (.ok response), .dropped clock =>
      match response.body with
      | .stream body => some (body.drop clock, .gone)
      | .full _ => some ([], .gone)
  | _, _ => none

namespace Phase

/-- The guard that a phase keeps alive. -/
def accounting : Phase → Option RequestAccounting
  | .forwarding acc => some acc
  | .replied (.ok response) =>
      match response.body with
      | .stream body => body.accounting
      | .full _ => none
  | _ => none

/-- A request is over once the handler is and no guard is left. -/
def Over : Phase → Prop
  | .replied (.ok response) => (Phase.replied (.ok response)).accounting = none
  | .replied (.error _) | .gone => True
  | _ => False

theorem over_error (status : StatusCode) : (Phase.replied (.error status)).Over := trivial

theorem over_gone : Phase.gone.Over := trivial

theorem over_full (status : StatusCode) (headers : HeaderMap) (bytes : List UInt8) :
    (Phase.replied (.ok ⟨status, headers, .full bytes⟩)).Over := rfl

theorem Over.accounting_eq_none {phase : Phase} (h : phase.Over) : phase.accounting = none := by
  cases phase with
  | replied result =>
      cases result with
      | ok response => exact h
      | error status => rfl
  | gone => rfl
  | _ => exact h.elim

/-- A step of one request, labelled with the event and the effects. -/
def Step (app : AppState) (phase : Phase) (label : RequestEvent × List Effect) (next : Phase) : Prop :=
  phase.react app label.1 = some (label.2, next)

variable {app : AppState} {phase next : Phase} {event : RequestEvent} {effects : List Effect}

/-- After the end only the body is polled or dropped, to no effect. -/
theorem Step.of_over (step : Step app phase (event, effects) next) (hOver : phase.Over) :
    effects = [] ∧ next.Over ∧
      ((∃ inner clock, event = .polled inner clock) ∨ ∃ clock, event = .dropped clock) := by
  cases phase with
  | replied result =>
      cases result with
      | error status => cases event <;> simp [Step, react] at step
      | ok response =>
          simp only [Over, accounting] at hOver
          cases event with
          | polled inner clock =>
              cases hBody : response.body with
              | full bytes => simp [Step, react, hBody] at step
              | stream body =>
                  simp only [hBody] at hOver
                  simp only [Step, react, hBody, AccountedStream.pollNext, hOver, Option.some.injEq,
                    Prod.mk.injEq] at step
                  obtain ⟨rfl, rfl⟩ := step
                  exact ⟨rfl, by simp [Over, accounting, hOver], .inl ⟨inner, clock, rfl⟩⟩
          | dropped clock =>
              cases hBody : response.body with
              | full bytes =>
                  simp only [Step, react, hBody, Option.some.injEq, Prod.mk.injEq] at step
                  obtain ⟨rfl, rfl⟩ := step
                  exact ⟨rfl, over_gone, .inr ⟨clock, rfl⟩⟩
              | stream body =>
                  simp only [hBody] at hOver
                  simp only [Step, react, hBody, AccountedStream.drop, hOver, Option.some.injEq,
                    Prod.mk.injEq] at step
                  obtain ⟨rfl, rfl⟩ := step
                  exact ⟨rfl, over_gone, .inr ⟨clock, rfl⟩⟩
          | _ => simp [Step, react] at step
  | gone => cases event <;> simp [Step, react] at step
  | _ => exact hOver.elim

/-- A body with a guard is polled, which keeps the guard or finishes it, or dropped. -/
theorem Step.of_streaming {response : Response} {body : AccountedStream} {acc : RequestAccounting}
    (step : Step app (.replied (.ok response)) (event, effects) next)
    (hBody : response.body = .stream body) (hAlive : body.accounting = some acc) :
    ((∃ inner clock, event = .polled inner clock) ∨ ∃ clock, event = .dropped clock) ∧
      ((effects = [] ∧ ∃ response' body', next = .replied (.ok response') ∧
          response'.body = .stream body' ∧ body'.accounting = some acc) ∨
        ∃ outcome clock, effects = acc.finish outcome clock ∧ next.Over) := by
  cases event with
  | polled inner clock =>
      simp only [Step, react, hBody, Option.some.injEq, Prod.mk.injEq] at step
      obtain ⟨rfl, rfl⟩ := step
      refine ⟨.inl ⟨inner, clock, rfl⟩, ?_⟩
      rcases AccountedStream.pollNext_cases hAlive inner clock with
        ⟨hNone, hKept, _⟩ | ⟨outcome, _, hFinished, hGone⟩
      · exact .inl ⟨hNone, _, _, rfl, rfl, hKept⟩
      · exact .inr ⟨outcome, clock, hFinished, hGone⟩
  | dropped clock =>
      simp only [Step, react, hBody, Option.some.injEq, Prod.mk.injEq] at step
      obtain ⟨rfl, rfl⟩ := step
      exact ⟨.inr ⟨clock, rfl⟩, .inr ⟨_, clock, AccountedStream.drop_eq hAlive clock, over_gone⟩⟩
  | _ => simp [Step, react] at step

end Phase

end InferenceRouter
