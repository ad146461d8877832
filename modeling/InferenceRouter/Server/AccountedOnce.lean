import InferenceRouter.Server.Handler
import InferenceRouter.Semantics.Run

/-! The effects of one request, from the call of the handler to the end of the
response body, add up to one account. A ledger says for each phase what has been
done so far; every step keeps the ledger, and a request that is over is settled. -/
namespace InferenceRouter

open Semantics

namespace Effect

def isRejection : Effect → Bool
  | .incRejected _ => true
  | _ => false

def isObservation : Effect → Bool
  | .observeDuration _ _ => true
  | _ => false

def isLatencyUpdate : Effect → Bool
  | .updateEwmaLatency _ _ _ => true
  | _ => false

/-- The labels of an increment of `router_requests_total`. -/
def requestLabels : Effect → Option (String × BackendId × String)
  | .incRequests strategy backend status => some (strategy, backend, status)
  | _ => none

def breakerCall : Effect → Option (BackendId × Call)
  | .breaker backend call => some (backend, call)
  | _ => none

end Effect

/-- The backend answered with 2xx headers, and a body was there to pass on. -/
def RequestEvent.headersOk : RequestEvent → Bool
  | .answered upstream _ =>
      match forwardRequest upstream with
      | .ok forwarded => forwarded.status.isSuccess
      | .error _ => false
  | _ => false

/-- The admission of a guard once the headers are known. -/
def Admission.resolved (self : Admission) (headersOk : Bool) : Admission :=
  if self = .probe ∧ headersOk then .normal else self

/-- The label is the number of a status of a given kind. -/
def IsStatusLabel (kind : StatusCode → Bool) (label : String) : Prop :=
  ∃ status, kind status = true ∧ label = (Outcome.completed status).statusLabel

/-- What the effects of a request that was started on `backend` add up to, given
the label it is counted under and the last breaker call. -/
structure Accounted (app : AppState) (backend : BackendId) (adm : Admission) (headersOk : Bool)
    (effects : List Effect) (label : String) (last : Call) : Prop where
  counted : effects.filterMap Effect.requestLabels = [(app.strategyName, backend, label)]
  notRejected : effects.countP Effect.isRejection = 0
  observed : effects.countP Effect.isObservation = 1
  calls : effects.filterMap Effect.breakerCall =
    (if adm = .probe ∧ headersOk then [(backend, .recordSuccess .probe)] else []) ++ [(backend, last)]
  failure : last = .recordFailure (adm.resolved headersOk) ↔
    IsStatusLabel StatusCode.isServerError label ∨ label = "transport_error" ∨ label = "stream_error"
  success : last = .recordSuccess (adm.resolved headersOk) ↔
    IsStatusLabel (fun status => !status.isServerError) label
  abandoned : last = .abandon (adm.resolved headersOk) ↔ label = "client_disconnect"
  sampled : effects.countP Effect.isLatencyUpdate ≤ 1
  sampled_iff : effects.countP Effect.isLatencyUpdate = 1 ↔ IsStatusLabel StatusCode.isSuccess label

namespace Outcome

theorem isStatusLabel_iff (kind : StatusCode → Bool) (outcome : Outcome) :
    IsStatusLabel kind outcome.statusLabel ↔ ∃ status, outcome = .completed status ∧ kind status = true := by
  constructor
  · rintro ⟨status, hKind, hLabel⟩
    exact ⟨status, statusLabel_injective hLabel, hKind⟩
  · rintro ⟨status, rfl, hKind⟩
    exact ⟨status, hKind, rfl⟩

theorem statusLabel_eq_iff {outcome other : Outcome} :
    outcome.statusLabel = other.statusLabel ↔ outcome = other := statusLabel_injective.eq_iff

end Outcome

namespace RequestAccounting

variable (self : RequestAccounting)

theorem verdict_eq_failure_iff : self.verdict = .recordFailure self.admission ↔
    IsStatusLabel StatusCode.isServerError self.outcome.statusLabel ∨
      self.outcome.statusLabel = "transport_error" ∨ self.outcome.statusLabel = "stream_error" := by
  rw [Outcome.isStatusLabel_iff, show "transport_error" = Outcome.transportError.statusLabel from rfl,
    show "stream_error" = Outcome.streamError.statusLabel from rfl, Outcome.statusLabel_eq_iff,
    Outcome.statusLabel_eq_iff]
  cases h : self.outcome with
  | completed status =>
      simp only [verdict, h, Outcome.isBackendFailure]
      split <;> simp_all
  | transportError | streamError | clientDisconnect => simp [verdict, h]

theorem verdict_eq_success_iff : self.verdict = .recordSuccess self.admission ↔
    IsStatusLabel (fun status => !status.isServerError) self.outcome.statusLabel := by
  rw [Outcome.isStatusLabel_iff]
  cases h : self.outcome with
  | completed status =>
      simp only [verdict, h, Outcome.isBackendFailure]
      split <;> simp_all
  | transportError | streamError | clientDisconnect => simp [verdict, h]

theorem verdict_eq_abandon_iff : self.verdict = .abandon self.admission ↔
    self.outcome.statusLabel = "client_disconnect" := by
  rw [show "client_disconnect" = Outcome.clientDisconnect.statusLabel from rfl,
    Outcome.statusLabel_eq_iff]
  cases h : self.outcome with
  | completed status =>
      simp only [verdict, h]
      split <;> simp
  | transportError | streamError | clientDisconnect => simp [verdict, h]

theorem sample_isSome_iff (clock : DropClock) : (self.sample clock).isSome ↔
    IsStatusLabel StatusCode.isSuccess self.outcome.statusLabel := by
  rw [Outcome.isStatusLabel_iff]
  cases h : self.outcome with
  | completed status =>
      simp only [sample, h]
      split <;> simp_all
  | transportError | streamError | clientDisconnect => simp [sample, h]

end RequestAccounting

/-- What is known of a guard alive: its request was selected as it says, and the
probe it may have been is resolved exactly if the headers were a success. -/
structure Started (app : AppState) (events : List RequestEvent) (adm : Admission)
    (acc : RequestAccounting) (resolved : List Effect) : Prop where
  selected : ∀ backend adm' startedAt, .selected (some (backend, adm')) startedAt ∈ events →
    backend = acc.backend ∧ adm' = adm
  strategyName : acc.strategyName = app.strategyName
  admission : acc.admission = adm.resolved (events.any RequestEvent.headersOk)
  resolved : resolved = if adm = .probe ∧ events.any RequestEvent.headersOk then
    [.breaker acc.backend (.recordSuccess .probe)] else []

/-- The account of a request so far. -/
inductive Ledger (app : AppState) : List RequestEvent → List Effect → Phase → Prop where
  | arrived : Ledger app [] [] .arrived
  | readingBody : Ledger app [.acquire true] [] .readingBody
  | selecting : Ledger app [.acquire true, .bodyRead none] [] .selecting
  | forwarding {events : List RequestEvent} {adm : Admission} {acc : RequestAccounting}
      (started : Started app events adm acc []) (hAwaited : events.any RequestEvent.headersOk = false) :
      Ledger app events [.recordRequestStart acc.backend] (.forwarding acc)
  | streaming {events : List RequestEvent} {adm : Admission} {acc : RequestAccounting}
      {resolved : List Effect} {response : Response} {body : AccountedStream}
      (started : Started app events adm acc resolved) (hBody : response.body = .stream body)
      (hAlive : body.accounting = some acc) :
      Ledger app events (.recordRequestStart acc.backend :: resolved) (.replied (.ok response))
  | settled {events : List RequestEvent} {adm : Admission} {acc : RequestAccounting}
      {resolved : List Effect} {clock : DropClock} {phase : Phase}
      (started : Started app events adm acc resolved) (hOver : phase.Over) :
      Ledger app events (.recordRequestStart acc.backend :: (resolved ++ acc.drop clock)) phase
  | rejected {events : List RequestEvent} {effects : List Effect} {status : StatusCode}
      (hUnselected : ∀ choice startedAt, .selected (some choice) startedAt ∉ events)
      (hEffects : ∃ reason rest, effects = .incRejected reason :: rest ∧ (rest = [] ∨ rest = [.releasePermit])) :
      Ledger app events effects (.replied (.error status))
  | unread {clock : DropClock} : Ledger app [.acquire true, .dropped clock] [.releasePermit] .gone

namespace Started

variable {app : AppState} {events : List RequestEvent} {adm : Admission} {acc : RequestAccounting}
  {resolved : List Effect}

/-- An event that neither selects nor brings headers. -/
theorem snoc (h : Started app events adm acc resolved) {event : RequestEvent}
    (hHeaders : event.headersOk = false) (hSelected : ∀ choice startedAt, event ≠ .selected choice startedAt) :
    Started app (events ++ [event]) adm acc resolved := by
  have hAny : (events ++ [event]).any RequestEvent.headersOk = events.any RequestEvent.headersOk := by
    simp [hHeaders]
  refine ⟨?_, h.strategyName, by rw [hAny]; exact h.admission, by rw [hAny]; exact h.resolved⟩
  intro backend adm' startedAt hMem
  rcases List.mem_append.mp hMem with hOld | hNew
  · exact h.selected backend adm' startedAt hOld
  · exact absurd (List.mem_singleton.mp hNew).symm (hSelected _ _)

/-- The ledger reads three fields of the guard. -/
theorem congr (h : Started app events adm acc resolved) {acc' : RequestAccounting}
    (hBackend : acc'.backend = acc.backend) (hStrategy : acc'.strategyName = acc.strategyName)
    (hAdmission : acc'.admission = acc.admission) : Started app events adm acc' resolved where
  selected := hBackend ▸ h.selected
  strategyName := hStrategy.trans h.strategyName
  admission := hAdmission.trans h.admission
  resolved := hBackend ▸ h.resolved

/-- No headers came with this event, or no body. -/
theorem fail (h : Started app events adm acc resolved) (clock : DropClock) {upstream : Upstream}
    {err : ForwardError} (hForward : forwardRequest upstream = .error err) :
    Started app (events ++ [.answered upstream clock]) adm acc resolved :=
  h.snoc (by simp [RequestEvent.headersOk, hForward]) (by simp)

/-- The headers of the backend resolve the probe, or leave it alone. -/
theorem resolve (h : Started app events adm acc []) (hAwaited : events.any RequestEvent.headersOk = false)
    (clock : DropClock) {upstream : Upstream} {forwarded : Forwarded}
    (hForward : forwardRequest upstream = .ok forwarded) :
    Started app (events ++ [.answered upstream clock]) adm
      (acc.resolveProbeOnHeaders forwarded.status).2 (acc.resolveProbeOnHeaders forwarded.status).1 := by
  have hAny : (events ++ [RequestEvent.answered upstream clock]).any RequestEvent.headersOk =
      forwarded.status.isSuccess := by
    simp [hAwaited, RequestEvent.headersOk, hForward]
  have hAdmission : acc.admission = adm := by
    rw [h.admission, hAwaited]
    simp [Admission.resolved]
  have hSelected : ∀ backend adm' startedAt,
      .selected (some (backend, adm')) startedAt ∈ events ++ [.answered upstream clock] →
        backend = acc.backend ∧ adm' = adm := by
    intro backend adm' startedAt hMem
    rcases List.mem_append.mp hMem with hOld | hNew
    · exact h.selected backend adm' startedAt hOld
    · simp at hNew
  simp only [RequestAccounting.resolveProbeOnHeaders, hAdmission]
  split
  · rename_i hProbe
    exact ⟨hSelected, h.strategyName, by rw [hAny]; simp [Admission.resolved, hProbe],
      by rw [hAny]; simp [hProbe]⟩
  · rename_i hKept
    exact ⟨hSelected, h.strategyName, by rw [hAny, Admission.resolved, if_neg hKept]; exact hAdmission,
      by rw [hAny, if_neg hKept]⟩

end Started

namespace Ledger

open Phase

variable {app : AppState} {events : List RequestEvent} {effects new : List Effect}
  {phase next : Phase} {event : RequestEvent}

/-- A guard starts with nothing resolved. -/
theorem start (backend : BackendId) (adm : Admission) (startedAt : Nat) :
    Ledger app [.acquire true, .bodyRead none, .selected (some (backend, adm)) startedAt]
      [.recordRequestStart backend]
      (.forwarding
        (RequestAccounting.start backend app.strategyName app.ewmaAlpha adm startedAt).2) := by
  have hStarted : Started app [.acquire true, .bodyRead none, .selected (some (backend, adm)) startedAt]
      adm (RequestAccounting.start backend app.strategyName app.ewmaAlpha adm startedAt).2 [] := by
    refine ⟨?_, rfl, ?_, ?_⟩
    · simp [RequestAccounting.start, eq_comm]
    · simp [RequestAccounting.start, RequestEvent.headersOk, Admission.resolved]
    · simp [RequestEvent.headersOk]
  exact .forwarding hStarted rfl

/-- The drop of a guard settles the account of its request. -/
theorem finish {adm : Admission} {acc : RequestAccounting} {resolved : List Effect}
    (started : Started app events adm acc resolved) (outcome : Outcome) (clock : DropClock)
    (hOver : next.Over) :
    Ledger app events (.recordRequestStart acc.backend :: (resolved ++ acc.finish outcome clock)) next := by
  have hLast : Started app events adm { acc with outcome } resolved := started.congr rfl rfl rfl
  exact .settled hLast hOver

/-- The answer of the backend, or the drop of the future while waiting for it. -/
theorem step_forwarding {adm : Admission} {acc : RequestAccounting} (started : Started app events adm acc [])
    (hAwaited : events.any RequestEvent.headersOk = false)
    (step : Step app (.forwarding acc) (event, new) next) :
    Ledger app (events ++ [event]) ([.recordRequestStart acc.backend] ++ new) next := by
  cases event with
  | answered upstream clock =>
      cases hForward : forwardRequest upstream with
      | error err =>
          have hFailed := started.fail clock hForward
          simp only [Step, react, hForward, finishForwardError, Option.some.injEq, Prod.mk.injEq] at step
          obtain ⟨rfl, rfl⟩ := step
          cases err with
          | connect => exact finish hFailed .transportError clock (over_error _)
          | body headersAt =>
              have hMarked : Started app _ adm (acc.markHeadersReceivedAt headersAt) [] :=
                hFailed.congr rfl rfl rfl
              exact finish hMarked .streamError clock (over_error _)
      | ok forwarded =>
          have hMarked : Started app events adm (acc.markHeadersReceivedAt forwarded.headersAt) [] :=
            started.congr rfl rfl rfl
          have hResolved := hMarked.resolve hAwaited clock hForward
          have hBackend : ((acc.markHeadersReceivedAt forwarded.headersAt).resolveProbeOnHeaders
              forwarded.status).2.backend = acc.backend := by
            simp only [RequestAccounting.resolveProbeOnHeaders]
            split <;> rfl
          simp only [Step, react, hForward, intoResponse, Option.some.injEq, Prod.mk.injEq] at step
          obtain ⟨rfl, rfl⟩ := step
          rw [← hBackend]
          cases hBody : forwarded.body with
          | full bytes => exact finish hResolved (.completed forwarded.status) clock rfl
          | stream => exact .streaming hResolved rfl rfl
  | dropped clock =>
      simp only [Step, react, Option.some.injEq, Prod.mk.injEq] at step
      obtain ⟨rfl, rfl⟩ := step
      exact .settled (started.snoc rfl (by simp)) over_gone
  | _ => simp [Step, react] at step

/-- A poll of the body, or its drop. -/
theorem step_streaming {adm : Admission} {acc : RequestAccounting} {resolved : List Effect}
    {response : Response} {body : AccountedStream} (started : Started app events adm acc resolved)
    (hBody : response.body = .stream body) (hAlive : body.accounting = some acc)
    (step : Step app (.replied (.ok response)) (event, new) next) :
    Ledger app (events ++ [event]) (.recordRequestStart acc.backend :: resolved ++ new) next := by
  obtain ⟨hEvent, hNext⟩ := step.of_streaming hBody hAlive
  have hStarted : Started app (events ++ [event]) adm acc resolved := by
    rcases hEvent with ⟨inner, clock, rfl⟩ | ⟨clock, rfl⟩
    · exact started.snoc rfl (by simp)
    · exact started.snoc rfl (by simp)
  rcases hNext with ⟨rfl, response', body', rfl, hBody', hAlive'⟩ | ⟨outcome, clock, rfl, hOver⟩
  · rw [List.append_nil]
    exact .streaming hStarted hBody' hAlive'
  · exact finish hStarted outcome clock hOver

/-- Every step keeps the ledger. -/
theorem step (ledger : Ledger app events effects phase) (step : Step app phase (event, new) next) :
    Ledger app (events ++ [event]) (effects ++ new) next := by
  cases ledger with
  | arrived =>
      cases event with
      | acquire acquired =>
          cases acquired with
          | true =>
              simp only [Step, react, Option.some.injEq, Prod.mk.injEq] at step
              obtain ⟨rfl, rfl⟩ := step
              exact .readingBody
          | false =>
              simp only [Step, react, Option.some.injEq, Prod.mk.injEq] at step
              obtain ⟨rfl, rfl⟩ := step
              exact .rejected (by simp) ⟨_, _, rfl, .inl rfl⟩
      | _ => simp [Step, react] at step
  | readingBody =>
      cases event with
      | bodyRead failure =>
          cases failure with
          | none =>
              simp only [Step, react, Option.some.injEq, Prod.mk.injEq] at step
              obtain ⟨rfl, rfl⟩ := step
              exact .selecting
          | some err =>
              simp only [Step, react, Option.some.injEq, Prod.mk.injEq] at step
              obtain ⟨rfl, rfl⟩ := step
              exact .rejected (by simp) ⟨_, _, rfl, .inr rfl⟩
      | dropped clock =>
          simp only [Step, react, Option.some.injEq, Prod.mk.injEq] at step
          obtain ⟨rfl, rfl⟩ := step
          exact .unread
      | _ => simp [Step, react] at step
  | selecting =>
      cases event with
      | selected choice startedAt =>
          cases choice with
          | none =>
              simp only [Step, react, Option.some.injEq, Prod.mk.injEq] at step
              obtain ⟨rfl, rfl⟩ := step
              exact .rejected (by simp) ⟨_, _, rfl, .inr rfl⟩
          | some choice =>
              obtain ⟨backend, adm⟩ := choice
              simp only [Step, react, RequestAccounting.start, Option.some.injEq, Prod.mk.injEq] at step
              obtain ⟨rfl, rfl⟩ := step
              exact start backend adm startedAt
      | _ => simp [Step, react] at step
  | forwarding started hAwaited => exact step_forwarding started hAwaited step
  | streaming started hBody hAlive => exact step_streaming started hBody hAlive step
  | settled started hOver =>
      obtain ⟨rfl, hNext, ⟨inner, clock, rfl⟩ | ⟨clock, rfl⟩⟩ := step.of_over hOver
      · rw [List.append_nil]
        exact .settled (started.snoc rfl (by simp)) hNext
      · rw [List.append_nil]
        exact .settled (started.snoc rfl (by simp)) hNext
  | rejected => cases event <;> simp [Step, react] at step
  | unread => cases event <;> simp [Step, react] at step

/-- Whole runs of one request. -/
theorem run {labels : List (RequestEvent × List Effect)} {last : Phase}
    (ledger : Ledger app events effects phase) (run : Run (Step app) phase labels last) :
    Ledger app (events ++ labels.map Prod.fst) (effects ++ labels.flatMap Prod.snd) last := by
  induction run generalizing events effects with
  | nil => simpa using ledger
  | cons first _ ih => simpa using ih (ledger.step first)

end Ledger

/-- The account of a started request, part by part: the start counts nothing, the
resolution at most a breaker call, and the drop one of everything. -/
theorem Started.accounted {app : AppState} {events : List RequestEvent} {adm : Admission}
    {acc : RequestAccounting} {resolved : List Effect} (started : Started app events adm acc resolved)
    (clock : DropClock) :
    Accounted app acc.backend adm (events.any RequestEvent.headersOk)
      (.recordRequestStart acc.backend :: (resolved ++ acc.drop clock))
      acc.outcome.statusLabel acc.verdict := by
  have hSampled : (Effect.recordRequestStart acc.backend :: (resolved ++ acc.drop clock)).countP
      Effect.isLatencyUpdate = (acc.sample clock).toList.length := by
    rw [started.resolved, acc.drop_eq]
    split <;> cases acc.sample clock <;> rfl
  have hAtMostOne : (acc.sample clock).toList.length ≤ 1 := by
    cases acc.sample clock <;> simp
  constructor
  · rw [started.resolved, acc.drop_eq, ← started.strategyName]
    split <;> cases acc.sample clock <;> rfl
  · rw [started.resolved, acc.drop_eq]
    split <;> cases acc.sample clock <;> rfl
  · rw [started.resolved, acc.drop_eq]
    split <;> cases acc.sample clock <;> rfl
  · rw [started.resolved, acc.drop_eq]
    split <;> cases acc.sample clock <;> rfl
  · rw [← started.admission, acc.verdict_eq_failure_iff]
  · rw [← started.admission, acc.verdict_eq_success_iff]
  · rw [← started.admission, acc.verdict_eq_abandon_iff]
  · rw [hSampled]
    exact hAtMostOne
  · rw [hSampled, ← acc.sample_isSome_iff clock]
    cases acc.sample clock <;> simp

/-- The increments of `router_requests_total`. -/
def Effect.isRequestCount (self : Effect) : Bool := self.requestLabels.isSome

theorem Accounted.counted_once {app : AppState} {backend : BackendId} {adm : Admission}
    {headersOk : Bool} {effects : List Effect} {label : String} {last : Call}
    (h : Accounted app backend adm headersOk effects label last) :
    effects.countP Effect.isRequestCount = 1 := by
  have hLength := congrArg List.length h.counted
  rwa [List.length_filterMap_eq_countP] at hLength

/-- The ledger of a request that is over is its account. -/
theorem Ledger.account {app : AppState} {events : List RequestEvent} {effects : List Effect}
    {phase : Phase} (ledger : Ledger app events effects phase) (hOver : phase.Over) :
    ((¬∃ clock, events = [.acquire true, .dropped clock]) →
      effects.countP Effect.isRejection + effects.countP Effect.isRequestCount = 1) ∧
    (∀ backend adm startedAt, .selected (some (backend, adm)) startedAt ∈ events →
      ∃ label last, Accounted app backend adm (events.any RequestEvent.headersOk) effects label last) := by
  cases ledger with
  | arrived | readingBody | selecting | forwarding => exact hOver.elim
  | streaming started hBody hAlive =>
      simp only [Phase.Over, Phase.accounting, hBody, hAlive] at hOver
      cases hOver
  | settled started _ =>
      have hAccount := started.accounted ‹DropClock›
      refine ⟨fun _ => ?_, fun backend adm startedAt hSelected => ?_⟩
      · rw [hAccount.notRejected, hAccount.counted_once]
      · obtain ⟨rfl, rfl⟩ := started.selected backend adm startedAt hSelected
        exact ⟨_, _, hAccount⟩
  | rejected hUnselected hEffects =>
      refine ⟨fun _ => ?_, fun _ _ _ hSelected => absurd hSelected (hUnselected _ _)⟩
      obtain ⟨reason, rest, rfl, rfl | rfl⟩ := hEffects <;> rfl
  | unread => exact ⟨fun hRead => absurd ⟨_, rfl⟩ hRead, by simp⟩

/-- However a request ends, it is counted once: as rejected or as a request,
except if its future is dropped while the request body is read. A request that was
selected for a backend gets the account of that backend and its admission. -/
theorem accounted_once (app : AppState) {labels : List (RequestEvent × List Effect)} {last : Phase}
    (run : Run (Phase.Step app) .arrived labels last) (hOver : last.Over) :
    let events := labels.map Prod.fst
    let effects := labels.flatMap Prod.snd
    ((¬∃ clock, events = [.acquire true, .dropped clock]) →
      effects.countP Effect.isRejection + effects.countP Effect.isRequestCount = 1) ∧
    (∀ backend adm startedAt, .selected (some (backend, adm)) startedAt ∈ events →
      ∃ label last, Accounted app backend adm (events.any RequestEvent.headersOk) effects label last) := by
  intro events effects
  have hLedger : Ledger app events effects last := by
    simpa using Ledger.arrived.run run
  exact hLedger.account hOver

/-- The account of a request whose backend could not be reached. -/
theorem accounted_once_connect_failure :
    let app : AppState := { strategyName := "round_robin", ewmaAlpha := 1 / 10, url := fun _ => "http://b0" }
    let effects : List Effect :=
      [.recordRequestStart 0, .recordRequestEnd 0, .breaker 0 (.recordFailure .normal),
        .observeDuration 0 4, .incRequests "round_robin" 0 "transport_error", .releasePermit]
    effects.countP Effect.isRejection + effects.countP Effect.isRequestCount = 1 ∧
      ∃ label last, Accounted app 0 .normal false effects label last := by
  intro app effects
  have hRun : Run (Phase.Step app) .arrived
      [(.acquire true, []), (.bodyRead none, []),
        (.selected (some (0, .normal)) 5, [.recordRequestStart 0]),
        (.answered .failed ⟨9, 9⟩, effects.tail)] (.replied (.error ⟨502, by decide⟩)) :=
    .cons rfl (.cons rfl (.cons rfl (.cons rfl (.nil _))))
  obtain ⟨hOnce, hAccount⟩ := accounted_once app hRun (Phase.over_error _)
  exact ⟨hOnce (by simp), hAccount 0 .normal 5 (by simp)⟩

end InferenceRouter
