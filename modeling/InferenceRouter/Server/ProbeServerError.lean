import InferenceRouter.Accounting.ProbeExclusivity
import InferenceRouter.Accounting.StreamContract
import InferenceRouter.Server.Handler

/-! The life of one probe whose backend answers with a server error, among any
other requests on that backend. The circuit opens again when the guard is
dropped, unless it is dropped because the client went away. -/
namespace InferenceRouter

open Semantics

namespace Control

/-- While the probe is out, only its verdict, or the lack of one, does anything. -/
theorem serve_of_probe_out {c : Control} (hHalf : c.state = .halfOpen) (hFlag : c.probeInFlight = true)
    {e : Event} (hSpent : e.spent = 0) (d : Nat) (trips : Bool) : (c.serve d trips e).2 = c := by
  have hFresh : c.refresh e.now d = c := refresh_of_ne_open (by simp [hHalf]) _ _
  simp only [serve, hFresh]
  cases hCall : e.call with
  | state | isRoutable => rfl
  | tryBegin => simp [hHalf, hFlag]
  | recordSuccess adm | recordFailure adm | abandon adm =>
      cases adm with
      | normal => simp [hHalf]
      | probe => simp [Event.spent, hCall, Call.returns] at hSpent

end Control

namespace CircuitBreaker

variable {cb : CircuitBreaker}

theorem control_serve_of_probe_out (hHalf : cb.control.state = .halfOpen)
    (hFlag : cb.control.probeInFlight = true) {e : Event} (hSpent : e.spent = 0) :
    (cb.serve e).2.control = cb.control := by
  rw [(cb.serve_control e).2, Control.serve_of_probe_out hHalf hFlag hSpent]

theorem tryBegin_of_probe_out (hHalf : cb.control.state = .halfOpen)
    (hFlag : cb.control.probeInFlight = true) (now : Nat) : (cb.tryBegin now).1 = none := by
  have hState : cb.inner.state = .halfOpen := hHalf
  have hOut : cb.inner.probeInFlight = true := hFlag
  simp [tryBegin, Inner.refresh, hState, hOut]

/-- The failure of the probe opens the circuit at that moment. -/
theorem control_probe_failure (hHalf : cb.control.state = .halfOpen) (now : Nat) :
    (cb.serve ⟨now, .recordFailure .probe⟩).2.control = ⟨.open, some now, false⟩ := by
  have hFresh : cb.control.refresh now cb.openDuration = cb.control :=
    Control.refresh_of_ne_open (by simp [hHalf]) _ _
  simp [(cb.serve_control _).2, Control.serve, hFresh, hHalf]

/-- A probe that is handed back leaves the circuit half-open. -/
theorem control_probe_abandon (hHalf : cb.control.state = .halfOpen) (now : Nat) :
    (cb.serve ⟨now, .abandon .probe⟩).2.control = { cb.control with probeInFlight := false } := by
  simp [(cb.serve_control _).2, Control.serve, hHalf]

end CircuitBreaker

/-- The response headers have a status from 500 to 599. -/
def Upstream.isServerError : Upstream → Bool
  | .failed => false
  | .answered status _ _ _ => status.isServerError

/-- The chunk that a poll of the body forwards. -/
def RequestEvent.chunk : RequestEvent → Option (List UInt8)
  | .polled inner _ => inner.bytes
  | _ => none

/-- The last of the chunks carries the end marker. -/
def doneSent (chunks : List (List UInt8)) : Bool := chunks.getLast?.any containsDone

/-- The client goes away, and the last chunk sent to it, if there is one, did not
carry the end marker. -/
def RequestEvent.leaves (self : RequestEvent) (sent : List (List UInt8)) : Bool :=
  match self with
  | .dropped _ => !doneSent sent
  | _ => false

/-- A backend that has given out its probe, with the guards of its other
requests, and the request that is the probe. -/
structure ProbedBackend where
  backend : GuardedBackend
  phase : Phase

/-- A step of another request or of an observer, or one of the probe. -/
inductive ProbeAction where
  | other (action : GuardAction)
  | own (event : RequestEvent)

/-- The chunks that the client of the probe has been sent. -/
def sentBy (labels : List (Nat × ProbeAction)) : List (List UInt8) :=
  labels.filterMap fun label =>
    match label.2 with
    | .other _ => none
    | .own event => event.chunk

theorem sentBy_other (labels : List (Nat × ProbeAction)) (now : Nat) (action : GuardAction) :
    sentBy (labels ++ [(now, .other action)]) = sentBy labels := by
  simp [sentBy]

theorem sentBy_own (labels : List (Nat × ProbeAction)) (now : Nat) (event : RequestEvent) :
    sentBy (labels ++ [(now, .own event)]) = sentBy labels ++ event.chunk.toList := by
  cases hChunk : event.chunk <;> simp [sentBy, hChunk]

namespace ProbedBackend

/-- Every step carries the clock reading of its breaker calls. -/
inductive Step (app : AppState) : ProbedBackend → Nat × ProbeAction → ProbedBackend → Prop where
  | other (s : ProbedBackend) (now : Nat) (action : GuardAction) :
      Step app s (now, .other action) { s with backend := s.backend.act now action }
  | own {s : ProbedBackend} {event : RequestEvent} {effects : List Effect} {next : Phase} (now : Nat)
      (reacts : s.phase.react app event = some (effects, next)) :
      Step app s (now, .own event)
        { backend := s.backend.settle (effects.foldl (Effect.onBreaker now) s.backend.breaker)
            s.backend.guards
          phase := next }

/-- The probe is admitted on `backend`, and its guard starts. -/
def admitProbe (backend : GuardedBackend) (begunAt : Nat) (app : AppState) (startedAt : Nat) :
    ProbedBackend where
  backend := backend.settle (backend.breaker.tryBegin begunAt).2 backend.guards
  phase := .forwarding
    (RequestAccounting.start backend.id app.strategyName app.ewmaAlpha .probe startedAt).2

end ProbedBackend

/-- The phase of a probe before its guard is dropped, on a server error, with
the chunks that have been sent. -/
structure Phase.Probing (phase : Phase) (acc : RequestAccounting) (sent : List (List UInt8)) : Prop where
  admission : acc.admission = .probe
  outcome : acc.outcome = .clientDisconnect
  shape : (phase = .forwarding acc ∧ sent = []) ∨ ∃ response body, phase = .replied (.ok response) ∧
    response.body = .stream body ∧ body.accounting = some acc ∧ body.status.isServerError = true ∧
      body.doneSeen = doneSent sent

namespace Phase.Probing

variable {app : AppState} {phase next : Phase} {acc : RequestAccounting} {sent : List (List UInt8)}
  {event : RequestEvent} {effects : List Effect}

theorem accounting_eq (h : Probing phase acc sent) : phase.accounting = some acc := by
  rcases h.shape with ⟨rfl, _⟩ | ⟨response, body, rfl, hBody, hAcc, _⟩
  · rfl
  · simp [accounting, hBody, hAcc]

/-- A server error does not resolve the probe. -/
theorem resolve_eq (acc : RequestAccounting) {status : StatusCode} (h : status.isServerError = true) :
    acc.resolveProbeOnHeaders status = ([], acc) := by
  have hNotSuccess : status.isSuccess = false := by
    simp only [StatusCode.isServerError, StatusCode.isSuccess, decide_eq_true_eq, decide_eq_false_iff_not] at *
    omega
  simp [RequestAccounting.resolveProbeOnHeaders, hNotSuccess]

/-- What a step of the probe does: nothing, with the guard kept, or the drop of
the guard with a verdict that depends on whether the client went away. -/
def Reacts (sent : List (List UInt8)) (event : RequestEvent) (effects : List Effect) (next : Phase) : Prop :=
  (effects = [] ∧ ∃ acc, Probing next acc (sent ++ event.chunk.toList)) ∨
    (next.Over ∧ ∃ (acc : RequestAccounting) (outcome : Outcome) (clock : DropClock),
      effects = acc.finish outcome clock ∧ acc.admission = .probe ∧
        if event.leaves sent = true then outcome = .clientDisconnect
        else outcome.isBackendFailure = true)

theorem drop_eq_finish (h : acc.outcome = .clientDisconnect) (clock : DropClock) :
    acc.drop clock = acc.finish .clientDisconnect clock := by
  rw [RequestAccounting.finish, ← h]

/-- The answer of the backend: a stream keeps the guard, a buffered body or the
failure to read it does not. -/
theorem reacts_answered (hAdmission : acc.admission = .probe) (hOutcome : acc.outcome = .clientDisconnect)
    {upstream : Upstream} {clock : DropClock} (hServer : upstream.isServerError = true)
    (hReact : (Phase.forwarding acc).react app (.answered upstream clock) = some (effects, next)) :
    Reacts [] (.answered upstream clock) effects next := by
  cases upstream with
  | failed => cases hServer
  | answered status headers headersAt body =>
      simp only [Upstream.isServerError] at hServer
      by_cases hStream : isEventStream (filterHeaders headers) = true
      · simp only [react, forwardRequest, hStream, if_true, intoResponse, resolve_eq _ hServer,
          Option.some.injEq, Prod.mk.injEq] at hReact
        obtain ⟨rfl, rfl⟩ := hReact
        exact .inl ⟨rfl, acc.markHeadersReceivedAt headersAt, hAdmission, hOutcome,
          .inr ⟨_, _, rfl, rfl, rfl, hServer, rfl⟩⟩
      · cases body with
        | some bytes =>
            simp only [react, forwardRequest, hStream, if_false, intoResponse, resolve_eq _ hServer,
              List.nil_append, Option.some.injEq, Prod.mk.injEq, Bool.false_eq_true] at hReact
            obtain ⟨rfl, rfl⟩ := hReact
            exact .inr ⟨over_full .., _, _, _, rfl, hAdmission, hServer⟩
        | none =>
            simp only [react, forwardRequest, hStream, if_false, finishForwardError,
              Option.some.injEq, Prod.mk.injEq, Bool.false_eq_true] at hReact
            obtain ⟨rfl, rfl⟩ := hReact
            exact .inr ⟨over_error _, _, _, _, rfl, hAdmission, rfl⟩

/-- A poll that keeps the guard also keeps track of the end marker. -/
theorem doneSeen_pollNext {body : AccountedStream} (hAlive : body.accounting = some acc)
    (hDone : body.doneSeen = doneSent sent) {inner : StreamPoll} {clock : DropClock}
    (hKept : (body.pollNext inner clock).2.2.accounting = some acc) :
    (body.pollNext inner clock).2.2.doneSeen = doneSent (sent ++ inner.bytes.toList) := by
  cases inner with
  | pending => simp [AccountedStream.pollNext, hAlive, hDone, StreamPoll.bytes]
  | chunk bytes => simp [AccountedStream.pollNext, hAlive, doneSent, StreamPoll.bytes]
  | error message | ended => simp [AccountedStream.pollNext, hAlive] at hKept

/-- One step of a streamed body. -/
theorem reacts_streaming {response : Response} {body : AccountedStream}
    (hAdmission : acc.admission = .probe) (hOutcome : acc.outcome = .clientDisconnect)
    (hBody : response.body = .stream body) (hAlive : body.accounting = some acc)
    (hServer : body.status.isServerError = true) (hDone : body.doneSeen = doneSent sent)
    (hReact : (Phase.replied (.ok response)).react app event = some (effects, next)) :
    Reacts sent event effects next := by
  cases event with
  | polled inner clock =>
      simp only [react, hBody, Option.some.injEq, Prod.mk.injEq] at hReact
      obtain ⟨rfl, rfl⟩ := hReact
      rcases AccountedStream.pollNext_cases hAlive inner clock with
        ⟨hNone, hKept, hStatus⟩ | ⟨outcome, hVerdict, hFinished, hGone⟩
      · exact .inl ⟨hNone, acc, hAdmission, hOutcome,
          .inr ⟨_, _, rfl, rfl, hKept, hStatus ▸ hServer, doneSeen_pollNext hAlive hDone hKept⟩⟩
      · refine .inr ⟨hGone, acc, outcome, clock, hFinished, hAdmission, ?_⟩
        rcases hVerdict with rfl | rfl
        · exact rfl
        · exact hServer
  | dropped clock =>
      simp only [react, hBody, Option.some.injEq, Prod.mk.injEq] at hReact
      obtain ⟨rfl, rfl⟩ := hReact
      refine .inr ⟨over_gone, acc, _, clock, AccountedStream.drop_eq hAlive clock, hAdmission, ?_⟩
      simp only [RequestEvent.leaves, ← hDone, AccountedStream.dropOutcome]
      cases body.doneSeen with
      | true => exact hServer
      | false => exact hOutcome
  | _ => simp [react] at hReact

theorem react (h : Probing phase acc sent)
    (hServer : ∀ upstream clock, event = .answered upstream clock → upstream.isServerError = true)
    (hReact : phase.react app event = some (effects, next)) : Reacts sent event effects next := by
  obtain ⟨hAdmission, hOutcome, ⟨rfl, rfl⟩ | ⟨response, body, rfl, hBody, hAlive, hStatus, hDone⟩⟩ := h
  · cases event with
    | answered upstream clock =>
        exact reacts_answered hAdmission hOutcome (hServer upstream clock rfl) hReact
    | dropped clock =>
        simp only [Phase.react, Option.some.injEq, Prod.mk.injEq] at hReact
        obtain ⟨rfl, rfl⟩ := hReact
        exact .inr ⟨over_gone, acc, _, clock, drop_eq_finish hOutcome clock, hAdmission, rfl⟩
    | _ => simp [Phase.react] at hReact
  · exact reacts_streaming hAdmission hOutcome hBody hAlive hStatus hDone hReact

end Phase.Probing

namespace ProbedBackend

variable {app : AppState} {s t : ProbedBackend} {label : Nat × ProbeAction}

/-- The breaker waits for the probe, and no other request has its token. -/
structure Waiting (backend : GuardedBackend) : Prop where
  halfOpen : backend.breaker.control.state = .halfOpen
  probeOut : backend.breaker.control.probeInFlight = true
  others : ∀ live ∈ backend.guards, live.guard.admission = .normal

/-- An action that spends no token, on guards that have none. -/
theorem Waiting.settle {backend : GuardedBackend} (h : Waiting backend) (e : Event) (hSpent : e.spent = 0)
    (guards : List LiveGuard) (hGuards : ∀ live ∈ guards, live.guard.admission = .normal) :
    Waiting (backend.settle (backend.breaker.serve e).2 guards) := by
  have hControl : (backend.settle (backend.breaker.serve e).2 guards).breaker.control =
      backend.breaker.control := CircuitBreaker.control_serve_of_probe_out h.halfOpen h.probeOut hSpent
  exact ⟨hControl ▸ h.halfOpen, hControl ▸ h.probeOut, hGuards⟩

/-- The other requests can do what they like. -/
theorem Waiting.act {backend : GuardedBackend} (h : Waiting backend) (now : Nat) (action : GuardAction) :
    Waiting (backend.act now action) := by
  have hVerdict (live : LiveGuard) (hLive : live ∈ backend.guards) (last : RequestAccounting)
      (hLast : last.admission = live.guard.admission) : (Event.mk now last.verdict).spent = 0 := by
    rw [last.verdict_spent, hLast, h.others live hLive]
    rfl
  have hErase (i : Nat) : ∀ live ∈ backend.guards.eraseIdx i, live.guard.admission = .normal :=
    fun live hLive => h.others live (List.mem_of_mem_eraseIdx hLive)
  cases action with
  | begin strategyName ewmaAlpha startedAt =>
      simp only [GuardedBackend.act,
        CircuitBreaker.tryBegin_of_probe_out h.halfOpen h.probeOut now]
      exact h.settle ⟨now, .tryBegin⟩ rfl _ h.others
  | headers i status =>
      simp only [GuardedBackend.act]
      split
      · rename_i live hLive
        have hNormal := h.others live (List.mem_of_getElem? hLive)
        simp only [RequestAccounting.resolveProbeOnHeaders, hNormal, reduceCtorEq, false_and, if_false,
          List.foldl_nil]
        obtain ⟨hIndex, rfl⟩ := List.getElem?_eq_some_iff.mp hLive
        rw [List.set_getElem_self hIndex]
        exact ⟨h.halfOpen, h.probeOut, h.others⟩
      · exact h
  | finish i outcome clock =>
      simp only [GuardedBackend.act]
      split
      · rename_i live hLive
        rw [RequestAccounting.finish, RequestAccounting.drop_onBreaker]
        exact h.settle _ (hVerdict live (List.mem_of_getElem? hLive) { live.guard with outcome } rfl) _
          (hErase i)
      · exact h
  | drop i clock =>
      simp only [GuardedBackend.act]
      split
      · rename_i live hLive
        rw [RequestAccounting.drop_onBreaker]
        exact h.settle _ (hVerdict live (List.mem_of_getElem? hLive) _ rfl) _ (hErase i)
      · exact h
  | state => exact h.settle ⟨now, .state⟩ rfl _ h.others
  | isRoutable => exact h.settle ⟨now, .isRoutable⟩ rfl _ h.others

/-- The guard of the probe is gone, or the probe is waited for. -/
def Sound (labels : List (Nat × ProbeAction)) (s : ProbedBackend) : Prop :=
  s.phase.Over ∨ Waiting s.backend ∧ ∃ acc, s.phase.Probing acc (sentBy labels)

/-- An answer of the backend, if the step is one, is a server error. -/
def AnswersError (label : Nat × ProbeAction) : Prop :=
  ∀ upstream clock, label.2 = .own (.answered upstream clock) → upstream.isServerError = true

theorem Step.sound (step : Step app s label t) (hServer : AnswersError label)
    {past : List (Nat × ProbeAction)} (h : s.Sound past) : t.Sound (past ++ [label]) := by
  cases step with
  | other now action =>
      rw [Sound, sentBy_other]
      exact h.imp id fun ⟨hWaiting, hProbing⟩ => ⟨hWaiting.act now action, hProbing⟩
  | own now reacts =>
      rcases h with hOver | ⟨hWaiting, acc, hProbing⟩
      · exact .inl (Phase.Step.of_over reacts hOver).2.1
      · rcases hProbing.react (fun upstream clock hEvent => hServer upstream clock (by rw [hEvent])) reacts with
          ⟨rfl, hNext⟩ | ⟨hOver, _⟩
        · rw [Sound, sentBy_own]
          exact .inr ⟨⟨hWaiting.halfOpen, hWaiting.probeOut, hWaiting.others⟩, hNext⟩
        · exact .inl hOver

/-- The admission of a probe hands out the only token. -/
theorem sound_admitProbe (id : BackendId) (created : Nat) (threshold : ℚ)
    (minRequests windowSecs openDurationSecs : Nat) (history : List (Nat × GuardAction))
    (app : AppState) {begunAt : Nat} (startedAt : Nat) {backend : GuardedBackend}
    (hBackend : backend = (GuardedBackend.start id
      (.new created threshold minRequests windowSecs openDurationSecs)).run history)
    (hProbe : (backend.breaker.tryBegin begunAt).1 = some .probe) :
    (admitProbe backend begunAt app startedAt).Sound [] := by
  have hExclusive : GuardedBackend.Exclusive backend := hBackend ▸
    (GuardedBackend.Exclusive.start id created threshold minRequests windowSecs openDurationSecs).run history
  have hCoherent := hExclusive.coherent.serve backend.breaker.openDuration
    (backend.breaker.trips begunAt) ⟨begunAt, .tryBegin⟩ (Nat.zero_le _)
  obtain ⟨hAnswer, hControl⟩ := backend.breaker.serve_control ⟨begunAt, .tryBegin⟩
  rw [← hAnswer, ← hControl] at hCoherent
  have hIssued : (backend.breaker.serve ⟨begunAt, .tryBegin⟩).1.issued = 1 := by
    simp [CircuitBreaker.serve, hProbe, Answer.issued]
  have hNone : backend.tokens = 0 :=
    hExclusive.coherent.eq_zero_iff.mpr ((backend.breaker.tryBegin_eq_probe_iff begunAt).mp hProbe).2
  obtain ⟨hHalf, hOut⟩ := hCoherent.of_token (by omega)
  refine .inr ⟨⟨hHalf, hOut, fun live hLive => ?_⟩, _, rfl, rfl, .inl ⟨rfl, rfl⟩⟩
  have hToken : live.tokens ≤ backend.tokens := le_sumOver LiveGuard.tokens hLive
  rw [hNone, LiveGuard.tokens] at hToken
  cases hAdmission : live.guard.admission with
  | normal => rfl
  | probe => simp [hAdmission] at hToken

/-- A probe answered with a server error opens the circuit again at the moment
its guard is dropped, if and only if it is not dropped because the client goes
away without the end marker. -/
theorem server_error_reopens_iff (id : BackendId) (created : Nat) (threshold : ℚ)
    (minRequests windowSecs openDurationSecs : Nat) (history : List (Nat × GuardAction))
    (app : AppState) (begunAt startedAt : Nat) (labels : List (Nat × ProbeAction)) (now : Nat)
    (event : RequestEvent) (t u : ProbedBackend) (backend : GuardedBackend)
    (hBackend : backend = (GuardedBackend.start id
      (.new created threshold minRequests windowSecs openDurationSecs)).run history)
    (hProbe : (backend.breaker.tryBegin begunAt).1 = some .probe)
    (run : Run (Step app) (admitProbe backend begunAt app startedAt) labels t)
    (last : Step app t (now, .own event) u)
    (hServer : ∀ label ∈ labels ++ [(now, .own event)], AnswersError label)
    (hAlive : t.phase.accounting ≠ none) (hDropped : u.phase.accounting = none) :
    (u.backend.breaker.control.state = .open ∧ u.backend.breaker.control.openedAt = some now) ↔
      event.leaves (sentBy labels) = false := by
  have hSound : t.Sound labels := run.history Sound
    (fun past s label hLabel next hInv step => step.sound (hServer label (List.mem_append_left _ hLabel)) hInv)
    (sound_admitProbe id created threshold minRequests windowSecs openDurationSecs history app startedAt
      hBackend hProbe)
  rcases hSound with hOver | ⟨hWaiting, acc, hProbing⟩
  · exact absurd (Phase.Over.accounting_eq_none hOver) hAlive
  cases last with
  | own _ reacts =>
      have hLast : AnswersError (now, .own event) := hServer _ (by simp)
      rcases hProbing.react (fun upstream clock hEvent => hLast upstream clock (by rw [hEvent])) reacts with
        ⟨_, acc', hNext⟩ | ⟨_, acc', outcome, clock, rfl, hAdmission, hOutcome⟩
      · exact absurd hDropped (by simp [hNext.accounting_eq])
      simp only [GuardedBackend.settle, RequestAccounting.finish, RequestAccounting.drop_onBreaker]
      cases hLeft : event.leaves (sentBy labels) with
      | true =>
          simp only [hLeft, if_true] at hOutcome
          have hVerdict : RequestAccounting.verdict { acc' with outcome } = .abandon .probe := by
            simp [RequestAccounting.verdict, hOutcome, hAdmission]
          rw [hVerdict, CircuitBreaker.control_probe_abandon hWaiting.halfOpen]
          simp [hWaiting.halfOpen]
      | false =>
          simp only [hLeft, Bool.false_eq_true, if_false] at hOutcome
          have hVerdict : RequestAccounting.verdict { acc' with outcome } = .recordFailure .probe := by
            cases outcome with
            | clientDisconnect => cases hOutcome
            | transportError | streamError => simp [RequestAccounting.verdict, hAdmission]
            | completed status => simp [RequestAccounting.verdict, hOutcome, hAdmission]
          rw [hVerdict, CircuitBreaker.control_probe_failure hWaiting.halfOpen]
          simp

/-- A circuit that a transport error opened at 1 s, for 30 s. -/
def tripped : GuardedBackend :=
  (GuardedBackend.start 0 (.new 0 (1 / 2) 1 10 30)).run
    [(0, .begin "round_robin" (1 / 10) 0), (fromSecs 1, .finish 0 .transportError ⟨0, 0⟩)]

def oneBackend : AppState := ⟨"round_robin", 1 / 10, fun _ => "http://b"⟩

/-- The probe at 31 s is answered 503 with a buffered body. -/
theorem server_error_reopens_iff_buffered :
    ∃ t u, Step oneBackend t
        (fromSecs 32, .own (.answered (.answered ⟨503, by decide⟩ [] 0 (some [])) ⟨0, 0⟩)) u ∧
      ((u.backend.breaker.control.state = .open ∧
          u.backend.breaker.control.openedAt = some (fromSecs 32)) ↔
        RequestEvent.leaves (.answered (.answered ⟨503, by decide⟩ [] 0 (some [])) ⟨0, 0⟩) (sentBy []) =
          false) := by
  have last : Step oneBackend (admitProbe tripped (fromSecs 31) oneBackend (fromSecs 31))
      (fromSecs 32, .own (.answered (.answered ⟨503, by decide⟩ [] 0 (some [])) ⟨0, 0⟩)) _ := .own _ rfl
  refine ⟨_, _, last, ?_⟩
  refine server_error_reopens_iff 0 0 (1 / 2) 1 10 30 _ oneBackend (fromSecs 31) (fromSecs 31) [] _ _ _ _
    tripped rfl (by decide +kernel) (.nil _) last ?_ (by simp [admitProbe, Phase.accounting]) rfl
  rintro label hLabel upstream clock hAnswered
  obtain rfl := List.mem_singleton.mp hLabel
  cases hAnswered
  rfl

/-- The probe at 31 s is answered 503 with an event stream, and its client goes
away after one chunk: the circuit stays half-open and gives out the next probe. -/
theorem server_error_left_halfOpen :
    let headers : HeaderMap := [("content-type", "text/event-stream".toUTF8.toList)]
    (tripped.breaker.tryBegin (fromSecs 31)).1 = some .probe ∧
    ∃ t u, Run (Step oneBackend) (admitProbe tripped (fromSecs 31) oneBackend (fromSecs 31))
        [(fromSecs 32, .own (.answered (.answered ⟨503, by decide⟩ headers 0 none) ⟨0, 0⟩)),
          (fromSecs 33, .own (.polled (.chunk [100, 97, 116, 97]) ⟨0, 0⟩))] t ∧
      Step oneBackend t (fromSecs 34, .own (.dropped ⟨0, 0⟩)) u ∧
      t.phase.accounting ≠ none ∧ u.phase.accounting = none ∧
      u.backend.breaker.control.state = .halfOpen ∧
      (u.backend.breaker.tryBegin (fromSecs 34)).1 = some .probe := by
  intro headers
  have hStream : isEventStream (filterHeaders headers) = true := by decide +kernel
  let acc := (RequestAccounting.start 0 "round_robin" (1 / 10) .probe (fromSecs 31)).2.markHeadersReceivedAt 0
  let reply (body : AccountedStream) : Phase :=
    .replied (.ok ⟨⟨503, by decide⟩,
      filterHeaders headers ++ [("x-router-backend", "http://b".toUTF8.toList)], .stream body⟩)
  let streaming : AccountedStream := .new ⟨503, by decide⟩ acc
  have hAnswered : (admitProbe tripped (fromSecs 31) oneBackend (fromSecs 31)).phase.react oneBackend
      (.answered (.answered ⟨503, by decide⟩ headers 0 none) ⟨0, 0⟩) = some ([], reply streaming) := by
    simp only [admitProbe, Phase.react, forwardRequest, hStream, if_true]
    rfl
  have hPolled : (reply streaming).react oneBackend (.polled (.chunk [100, 97, 116, 97]) ⟨0, 0⟩) =
      some ([], reply { streaming with doneSeen := containsDone [100, 97, 116, 97] }) := rfl
  have hDropped : (reply { streaming with doneSeen := containsDone [100, 97, 116, 97] }).react oneBackend
      (.dropped ⟨0, 0⟩) =
        some (AccountedStream.drop { streaming with doneSeen := containsDone [100, 97, 116, 97] } ⟨0, 0⟩,
          .gone) := rfl
  refine ⟨by decide +kernel, _, _, .cons (.own _ hAnswered) (.cons (.own _ hPolled) (.nil _)),
    .own _ hDropped, Option.some_ne_none acc, rfl, ?_, ?_⟩
  · decide +kernel
  · decide +kernel

end ProbedBackend

end InferenceRouter
