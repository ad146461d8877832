import InferenceRouter.Accounting.StreamContract
import InferenceRouter.Server.Handler

/-! What the client of a request gets. A response is the answer to the request that was
sent to the selected backend, end to end: its status, its headers without those of the
hop, and its body. Everything else is an error of the router, and each has one cause. -/
namespace InferenceRouter

open Semantics

/-- The header that tells the client which backend answered. -/
def ownHeader (backendUrl : String) : String × List UInt8 := ("x-router-backend", backendUrl.toUTF8.toList)

/-- The headers of an answer, as the client gets them: the values of every end-to-end
name, and of the names of the hop only the router's own. -/
structure RelayedHeaders (backendUrl : String) (headers relayed : HeaderMap) : Prop where
  endToEnd : ∀ name, isHopByHop name = false → relayed.values name = headers.values name
  own : relayed.values (ownHeader backendUrl).1 = [(ownHeader backendUrl).2]
  hop : ∀ name, isHopByHop name = true → name ≠ (ownHeader backendUrl).1 → relayed.values name = []

namespace HeaderMap

theorem values_concat (headers : HeaderMap) (header : String × List UInt8) (name : String) :
    values (headers ++ [header]) name = headers.values name ++ if header.1 = name then [header.2] else [] := by
  rw [values, List.filterMap_append, ← values]
  by_cases hName : header.1 = name <;> simp [hName]

theorem values_filterHeaders (headers : HeaderMap) (name : String) :
    (filterHeaders headers).values name = if isHopByHop name then [] else headers.values name := by
  rw [filterHeaders, values, List.filterMap_filter]
  by_cases hHop : isHopByHop name = true
  · rw [if_pos hHop, List.filterMap_eq_nil_iff]
    intro header _
    by_cases hName : header.1 = name <;> simp [hName, hHop]
  · rw [if_neg hHop, values]
    refine List.filterMap_congr fun header _ => ?_
    by_cases hName : header.1 = name <;> simp [hName, hHop]

end HeaderMap

theorem isHopByHop_ownHeader (backendUrl : String) : isHopByHop (ownHeader backendUrl).1 = true :=
  (by decide +kernel : isHopByHop "x-router-backend" = true)

theorem relayedHeaders_filter (backendUrl : String) (headers : HeaderMap) :
    RelayedHeaders backendUrl headers (filterHeaders headers ++ [ownHeader backendUrl]) where
  endToEnd name hName := by
    have hOther : (ownHeader backendUrl).1 ≠ name := by
      rintro rfl
      exact absurd (isHopByHop_ownHeader backendUrl) (by simp [hName])
    rw [HeaderMap.values_concat, HeaderMap.values_filterHeaders, if_neg hOther]
    simp [hName]
  own := by
    rw [HeaderMap.values_concat, HeaderMap.values_filterHeaders, isHopByHop_ownHeader]
    simp
  hop name hName hOther := by
    rw [HeaderMap.values_concat, HeaderMap.values_filterHeaders, if_neg hOther.symm]
    simp [hName]

/-- The content type passes the filter, so it is the backend's that decides. -/
theorem isEventStream_filterHeaders (headers : HeaderMap) :
    isEventStream (filterHeaders headers) = isEventStream headers := by
  have hName : isHopByHop "content-type" = false := by decide +kernel
  rw [isEventStream, isEventStream, HeaderMap.get, HeaderMap.values_filterHeaders, hName]
  rfl

namespace StreamPoll

/-- The answers of a stream to its reader, who is told of its end ever after. -/
def fused : List StreamPoll → List StreamPoll
  | [] => []
  | poll :: rest => poll :: if poll.isLast then rest.map fun _ => .ended else fused rest

theorem fused_concat (polls : List StreamPoll) (poll : StreamPoll) :
    fused (polls ++ [poll]) = fused polls ++ [if polls.any isLast then .ended else poll] := by
  induction polls with
  | nil => simp [fused]
  | cons first rest ih =>
      simp only [List.cons_append, fused, List.any_cons]
      by_cases hLast : first.isLast = true
      · simp [hLast]
      · simp [hLast, ih]

end StreamPoll

/-- The wrapper passes on what it gets for as long as it has its guard. -/
theorem AccountedStream.pollNext_passes (self : AccountedStream) (inner : StreamPoll) (clock : DropClock) :
    (self.pollNext inner clock).1 = (if self.accounting.isSome then inner else .ended) ∧
      (self.pollNext inner clock).2.2.accounting.isSome = (self.accounting.isSome && !inner.isLast) := by
  cases hGuard : self.accounting with
  | none => simp [pollNext, hGuard]
  | some acc => cases inner <;> simp [pollNext, hGuard, StreamPoll.isLast]

namespace Phase

/-- What a poll of the body hands over. -/
def hands : Phase → RequestEvent → List StreamPoll
  | .replied (.ok response), .polled inner clock =>
      match response.body with
      | .stream body => [(body.pollNext inner clock).1]
      | .full _ => []
  | _, _ => []

/-- What the polls among some events hand over. -/
def handed (app : AppState) : Phase → List RequestEvent → List StreamPoll
  | _, [] => []
  | phase, event :: events =>
      phase.hands event ++
        match phase.react app event with
        | some (_, next) => handed app next events
        | none => []

end Phase

/-- The events of a request that was given to a backend. -/
def opening (backend : BackendId) (adm : Admission) (startedAt : Nat) : List RequestEvent :=
  [.acquire true, .bodyRead none, .selected (some (backend, adm)) startedAt]

/-- No headers came, or no body after them. -/
def Upstream.Fails (self : Upstream) : Prop :=
  self = .failed ∨ ∃ status headers headersAt,
    self = .answered status headers headersAt none ∧ isEventStream headers = false

/-- The errors of the router, each after the events that lead to it. -/
inductive Rejected : List RequestEvent → StatusCode → Prop where
  | busy : Rejected [.acquire false] ⟨429, by decide⟩
  | unreadable (err : BodyError) : Rejected [.acquire true, .bodyRead (some err)] (bodyErrorStatus err).1
  | unroutable (startedAt : Nat) :
      Rejected [.acquire true, .bodyRead none, .selected none startedAt] ⟨503, by decide⟩
  | failed (backend : BackendId) (adm : Admission) (startedAt : Nat) {upstream : Upstream} (clock : DropClock)
      (hFails : upstream.Fails) : Rejected (opening backend adm startedAt ++ [.answered upstream clock]) ⟨502, by decide⟩

/-- A response that relays an answer: the events that lead to it, what the polls of its
body have handed over, and the response. -/
inductive Relayed (app : AppState) : List RequestEvent → List StreamPoll → Response → Prop where
  | full (backend : BackendId) (adm : Admission) (startedAt : Nat) {status : StatusCode} {headers : HeaderMap}
      (headersAt : Nat) {bytes : List UInt8} (clock : DropClock) (hPlain : isEventStream headers = false)
      {response : Response} (hStatus : response.status = status)
      (hHeaders : RelayedHeaders (app.url backend) headers response.headers) (hBody : response.body = .full bytes) :
      Relayed app (opening backend adm startedAt ++ [.answered (.answered status headers headersAt (some bytes)) clock])
        [] response
  | stream (backend : BackendId) (adm : Admission) (startedAt : Nat) {status : StatusCode} {headers : HeaderMap}
      (headersAt : Nat) (body : Option (List UInt8)) (clock : DropClock) (hEvents : isEventStream headers = true)
      (polls : List (StreamPoll × DropClock)) {response : Response} (hStatus : response.status = status)
      (hHeaders : RelayedHeaders (app.url backend) headers response.headers) {wrapper : AccountedStream}
      (hBody : response.body = .stream wrapper)
      (hLive : wrapper.accounting.isSome = !(polls.map Prod.fst).any StreamPoll.isLast) :
      Relayed app
        (opening backend adm startedAt ++ .answered (.answered status headers headersAt body) clock ::
          polls.map fun poll => .polled poll.1 poll.2)
        (StreamPoll.fused (polls.map Prod.fst)) response

/-- Where a request is after its events, and what the polls of its body handed over. -/
inductive Course (app : AppState) : List RequestEvent → List StreamPoll → Phase → Prop where
  | arrived : Course app [] [] .arrived
  | readingBody : Course app [.acquire true] [] .readingBody
  | selecting : Course app [.acquire true, .bodyRead none] [] .selecting
  | forwarding (adm : Admission) (startedAt : Nat) (acc : RequestAccounting) :
      Course app (opening acc.backend adm startedAt) [] (.forwarding acc)
  | rejected {events : List RequestEvent} {status : StatusCode} (h : Rejected events status) :
      Course app events [] (.replied (.error status))
  | relayed {events : List RequestEvent} {polls : List StreamPoll} {response : Response}
      (h : Relayed app events polls response) : Course app events polls (.replied (.ok response))
  | gone (events : List RequestEvent) (polls : List StreamPoll) : Course app events polls .gone

namespace Course

open Phase

variable {app : AppState} {events : List RequestEvent} {polls : List StreamPoll} {phase next : Phase}
  {event : RequestEvent} {effects : List Effect}

theorem start (backend : BackendId) (adm : Admission) (startedAt : Nat) :
    Course app (opening backend adm startedAt) []
      (.forwarding (RequestAccounting.start backend app.strategyName app.ewmaAlpha adm startedAt).2) :=
  .forwarding adm startedAt (RequestAccounting.start backend app.strategyName app.ewmaAlpha adm startedAt).2

/-- The answer of the backend, or the drop of the future while waiting for it. -/
theorem step_forwarding {adm : Admission} {startedAt : Nat} {acc : RequestAccounting}
    (step : Step app (.forwarding acc) (event, effects) next) :
    Course app (opening acc.backend adm startedAt ++ [event]) [] next := by
  cases event with
  | answered upstream clock =>
      cases upstream with
      | failed =>
          simp only [Step, react, forwardRequest, Option.some.injEq, Prod.mk.injEq] at step
          obtain ⟨-, rfl⟩ := step
          exact .rejected (.failed _ _ _ _ (.inl rfl))
      | answered status headers headersAt body =>
          cases hEvents : isEventStream headers with
          | true =>
              simp only [Step, react, forwardRequest, isEventStream_filterHeaders, hEvents, if_true, intoResponse,
                Option.some.injEq, Prod.mk.injEq] at step
              obtain ⟨-, rfl⟩ := step
              exact .relayed (.stream acc.backend adm startedAt headersAt body clock hEvents [] rfl
                (relayedHeaders_filter _ _) rfl rfl)
          | false =>
              cases body with
              | none =>
                  simp only [Step, react, forwardRequest, isEventStream_filterHeaders, hEvents, Bool.false_eq_true,
                    if_false, Option.some.injEq, Prod.mk.injEq] at step
                  obtain ⟨-, rfl⟩ := step
                  exact .rejected (.failed _ _ _ _ (.inr ⟨_, _, _, rfl, hEvents⟩))
              | some bytes =>
                  simp only [Step, react, forwardRequest, isEventStream_filterHeaders, hEvents, Bool.false_eq_true,
                    if_false, intoResponse, Option.some.injEq, Prod.mk.injEq] at step
                  obtain ⟨-, rfl⟩ := step
                  exact .relayed (.full acc.backend adm startedAt headersAt clock hEvents rfl
                    (relayedHeaders_filter _ _) rfl)
  | dropped clock =>
      simp only [Step, react, Option.some.injEq, Prod.mk.injEq] at step
      obtain ⟨-, rfl⟩ := step
      exact .gone _ _
  | _ => simp [Step, react] at step

/-- A poll of the body, or its drop. -/
theorem step_relayed {response : Response} (h : Relayed app events polls response)
    (step : Step app (.replied (.ok response)) (event, effects) next) :
    Course app (events ++ [event]) (polls ++ (Phase.replied (.ok response)).hands event) next := by
  cases event with
  | dropped clock =>
      have hGone : next = .gone := by
        simp only [Step, react] at step
        split at step <;> (cases step; rfl)
      rw [hGone]
      exact .gone _ _
  | polled inner clock =>
      cases h with
      | full _ _ _ _ _ _ _ _ hBody => simp [Step, react, hBody] at step
      | stream backend adm startedAt headersAt body clock' hEvents polls hStatus hHeaders hBody hLive =>
          rename_i wrapper
          obtain ⟨hOutput, hGuard⟩ := wrapper.pollNext_passes inner clock
          simp only [Step, react, hBody, Option.some.injEq, Prod.mk.injEq] at step
          obtain ⟨-, rfl⟩ := step
          have hPolls : (polls ++ [(inner, clock)]).map Prod.fst = polls.map Prod.fst ++ [inner] := by simp
          have hHanded : StreamPoll.fused (polls.map Prod.fst) ++ (Phase.replied (.ok response)).hands (.polled inner clock) =
              StreamPoll.fused ((polls ++ [(inner, clock)]).map Prod.fst) := by
            rw [hPolls, StreamPoll.fused_concat, hands, hBody]
            dsimp only
            rw [hOutput, hLive]
            cases (polls.map Prod.fst).any StreamPoll.isLast <;> rfl
          rw [hHanded]
          have hLater : (wrapper.pollNext inner clock).2.2.accounting.isSome =
              !((polls ++ [(inner, clock)]).map Prod.fst).any StreamPoll.isLast := by
            rw [hGuard, hLive, hPolls]
            simp
          have hEvent : (polls.map fun poll => RequestEvent.polled poll.1 poll.2) ++ [.polled inner clock] =
              (polls ++ [(inner, clock)]).map fun poll => .polled poll.1 poll.2 := by simp
          rw [List.append_assoc, List.cons_append, hEvent]
          exact .relayed (.stream backend adm startedAt headersAt body clock' hEvents _ hStatus hHeaders rfl hLater)
  | _ => simp [Step, react] at step

theorem step (h : Course app events polls phase) (step : Step app phase (event, effects) next) :
    Course app (events ++ [event]) (polls ++ phase.hands event) next := by
  cases h with
  | arrived =>
      cases event with
      | acquire acquired =>
          cases acquired with
          | false =>
              simp only [Step, react, Option.some.injEq, Prod.mk.injEq] at step
              obtain ⟨-, rfl⟩ := step
              exact .rejected .busy
          | true =>
              simp only [Step, react, Option.some.injEq, Prod.mk.injEq] at step
              obtain ⟨-, rfl⟩ := step
              exact .readingBody
      | _ => simp [Step, react] at step
  | readingBody =>
      cases event with
      | bodyRead failure =>
          cases failure with
          | none =>
              simp only [Step, react, Option.some.injEq, Prod.mk.injEq] at step
              obtain ⟨-, rfl⟩ := step
              exact .selecting
          | some err =>
              simp only [Step, react, Option.some.injEq, Prod.mk.injEq] at step
              obtain ⟨-, rfl⟩ := step
              exact .rejected (.unreadable err)
      | dropped clock =>
          simp only [Step, react, Option.some.injEq, Prod.mk.injEq] at step
          obtain ⟨-, rfl⟩ := step
          exact .gone _ _
      | _ => simp [Step, react] at step
  | selecting =>
      cases event with
      | selected choice startedAt =>
          cases choice with
          | none =>
              simp only [Step, react, Option.some.injEq, Prod.mk.injEq] at step
              obtain ⟨-, rfl⟩ := step
              exact .rejected (.unroutable startedAt)
          | some choice =>
              simp only [Step, react, Option.some.injEq, Prod.mk.injEq] at step
              obtain ⟨-, rfl⟩ := step
              exact start choice.1 choice.2 startedAt
      | _ => simp [Step, react] at step
  | forwarding adm startedAt acc => exact step_forwarding step
  | rejected h => cases event <;> simp [Step, react] at step
  | relayed h => exact step_relayed h step
  | gone events polls => cases event <;> simp [Step, react] at step

/-- The rest of a run. -/
theorem run (h : Course app events polls phase) {labels : List (RequestEvent × List Effect)} {last : Phase}
    (run : Run (Step app) phase labels last) :
    Course app (events ++ labels.map Prod.fst) (polls ++ handed app phase (labels.map Prod.fst)) last := by
  induction run generalizing events polls with
  | nil => simpa [handed] using h
  | @cons _ _ _ label labels first _ ih =>
      have hRest := ih (h.step first)
      have hReact : _ = some (label.2, _) := first
      simpa [handed, hReact, List.append_assoc] using hRest

theorem of_error {status : StatusCode} (h : Course app events polls (.replied (.error status))) :
    Rejected events status := by
  cases h with
  | rejected h => exact h

theorem of_response {response : Response} (h : Course app events polls (.replied (.ok response))) :
    Relayed app events polls response := by
  cases h with
  | relayed h => exact h

end Course

/-- Faithful relay. Whatever happens to a request and in whatever order, an error that
its client gets has its one cause, and a response is the answer to the request that was
sent to the selected backend: its status, its end-to-end headers with the name of this
backend as the only other one, and its body, whole or poll by poll up to its end. -/
theorem handler_relays (app : AppState) {labels : List (RequestEvent × List Effect)} {last : Phase}
    (run : Run (Phase.Step app) .arrived labels last) :
    let events := labels.map Prod.fst
    (∀ status, last = .replied (.error status) → Rejected events status) ∧
    ∀ response, last = .replied (.ok response) → Relayed app events (Phase.handed app .arrived events) response := by
  intro events
  have hCourse : Course app events (Phase.handed app .arrived events) last := by
    simpa using Course.arrived.run run
  constructor
  · rintro status rfl
    exact hCourse.of_error
  · rintro response rfl
    exact hCourse.of_response

/-- A stream of one chunk whose backend sent a header of its hop and the name of
another backend. The body is polled once more after its end. -/
theorem handler_relays_stream :
    let app : AppState := { strategyName := "round_robin", ewmaAlpha := 1 / 10, url := fun _ => "http://b0" }
    let headers : HeaderMap := [("connection", [99]), ("content-type", "text/event-stream".toList.map fun c => c.toNat.toUInt8),
      ("x-router-backend", [98])]
    let events := opening 0 .normal 0 ++
      [.answered (.answered ⟨200, by decide⟩ headers 1000 none) ⟨1000, 1000⟩, .polled (.chunk [1]) ⟨2000, 2000⟩,
        .polled .ended ⟨3000, 3000⟩, .polled (.chunk [2]) ⟨4000, 4000⟩]
    Phase.handed app .arrived events = [.chunk [1], .ended, .ended] ∧
      ∃ response, Relayed app events [.chunk [1], .ended, .ended] response ∧
        response.headers.map Prod.fst = ["content-type", "x-router-backend"] := by
  intro app headers events
  have hHanded : Phase.handed app .arrived events = [.chunk [1], .ended, .ended] := by decide +kernel
  have hEvents : isEventStream (filterHeaders headers) = true := by decide +kernel
  have hForward : forwardRequest (.answered ⟨200, by decide⟩ headers 1000 none) =
      .ok ⟨⟨200, by decide⟩, filterHeaders headers, .stream, 1000⟩ := by
    rw [forwardRequest, hEvents]
    rfl
  let acc := (RequestAccounting.start 0 "round_robin" (1 / 10) .normal 0).2.markHeadersReceivedAt 1000
  let relayed := filterHeaders headers ++ [("x-router-backend", "http://b0".toUTF8.toList)]
  let streaming (guard : Option RequestAccounting) (doneSeen : Bool) : Phase :=
    .replied (.ok ⟨⟨200, by decide⟩, relayed, .stream ⟨⟨200, by decide⟩, guard, doneSeen⟩⟩)
  have hAnswered : Phase.Step app (.forwarding (RequestAccounting.start 0 "round_robin" (1 / 10) .normal 0).2)
      (.answered (.answered ⟨200, by decide⟩ headers 1000 none) ⟨1000, 1000⟩, []) (streaming (some acc) false) := by
    simp only [Phase.Step, Phase.react, hForward]
    rfl
  have hRun : Run (Phase.Step app) .arrived
      [(.acquire true, []), (.bodyRead none, []), (.selected (some (0, .normal)) 0, [.recordRequestStart 0]),
        (.answered (.answered ⟨200, by decide⟩ headers 1000 none) ⟨1000, 1000⟩, []), (.polled (.chunk [1]) ⟨2000, 2000⟩, []),
        (.polled .ended ⟨3000, 3000⟩, acc.finish (.completed ⟨200, by decide⟩) ⟨3000, 3000⟩),
        (.polled (.chunk [2]) ⟨4000, 4000⟩, [])] (streaming none (containsDone [1])) :=
    .cons rfl (.cons rfl (.cons rfl (.cons hAnswered (.cons rfl (.cons rfl (.cons rfl (.nil _)))))))
  have hRelayed := (handler_relays app hRun).2 _ rfl
  change Relayed app events (Phase.handed app .arrived events) _ at hRelayed
  rw [hHanded] at hRelayed
  exact ⟨hHanded, _, hRelayed, by decide +kernel⟩

end InferenceRouter
