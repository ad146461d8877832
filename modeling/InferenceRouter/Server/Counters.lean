import InferenceRouter.Metrics
import InferenceRouter.Server.Reaction

/-! The counters of `/metrics` over whole runs of the router. An increment is one
effect of one request, done whenever its turn comes, so between two increments
of one request any others may come. -/
namespace InferenceRouter

open Semantics

namespace Effect

/-- An increment of either counter of requests. -/
def isCount (self : Effect) : Bool := self.isRejection || self.isRequestCount

/-- An increment of `router_requests_total` for a URL. -/
def countsFor (url : BackendId → String) (backendUrl : String) : Effect → Bool
  | .incRequests _ backend _ => url backend = backendUrl
  | _ => false

/-- An observation of the request duration for a URL. -/
def observesFor (url : BackendId → String) (backendUrl : String) : Effect → Bool
  | .observeDuration backend _ => url backend = backendUrl
  | _ => false

end Effect

namespace Phase

/-- A request that is still to be counted. -/
def unsettled : Phase → Nat
  | .arrived | .readingBody | .selecting => 1
  | phase => if phase.accounting.isSome then 1 else 0

theorem Over.unsettled_eq_zero {phase : Phase} (h : phase.Over) : phase.unsettled = 0 := by
  have hNone := h.accounting_eq_none
  cases phase with
  | replied | gone => simp [unsettled, hNone]
  | _ => exact h.elim

theorem unsettled_of_accounting {phase : Phase} {acc : RequestAccounting}
    (h : phase.accounting = some acc) : phase.unsettled = 1 := by
  cases phase with
  | forwarding | replied => simp [unsettled, h]
  | _ => cases h

theorem Over.loses_eq_zero {phase : Phase} (h : phase.Over) (event : RequestEvent) :
    phase.loses event = 0 := by
  cases phase with
  | replied | gone => rfl
  | _ => exact h.elim

theorem loses_of_accounting {phase : Phase} {acc : RequestAccounting}
    (h : phase.accounting = some acc) (event : RequestEvent) : phase.loses event = 0 := by
  cases phase with
  | forwarding | replied => rfl
  | _ => cases h

end Phase

namespace Effect

variable (url : BackendId → String) (backendUrl : String)

theorem countP_of_calls {effects : List Effect} (hCalls : ∀ e ∈ effects, e.isBreakerCall = true)
    {kind : Effect → Bool} (hKind : ∀ backend call, kind (.breaker backend call) = false) :
    effects.countP kind = 0 := by
  rw [List.countP_eq_zero]
  intro effect hMem
  have hCall := hCalls effect hMem
  cases effect with
  | breaker backend call => simp [hKind]
  | _ => cases hCall

/-- The duration of a request is observed before the request is counted. -/
def Recorded (effects : List Effect) : Prop :=
  ∀ backendUrl, ∀ rest, rest <:+ effects →
    rest.countP (observesFor url backendUrl) ≤ rest.countP (countsFor url backendUrl)

variable {url}

theorem recorded_nil : Recorded url [] := by
  intro backendUrl rest hRest
  simp [List.suffix_nil.mp hRest]

theorem Recorded.cons {effects : List Effect} (h : Recorded url effects) {first : Effect}
    (hFirst : ∀ backendUrl, (first :: effects).countP (observesFor url backendUrl) ≤
      (first :: effects).countP (countsFor url backendUrl)) : Recorded url (first :: effects) := by
  intro backendUrl rest hRest
  rcases List.suffix_cons_iff.mp hRest with rfl | hOld
  · exact hFirst backendUrl
  · exact h backendUrl rest hOld

theorem Recorded.tail {effects : List Effect} (h : Recorded url effects) : Recorded url effects.tail :=
  fun backendUrl rest hRest => h backendUrl rest (hRest.trans (List.tail_suffix _))

/-- What observes nothing may come before anything. -/
theorem Recorded.append {effects : List Effect} (h : Recorded url effects) (first : List Effect)
    (hFirst : ∀ e ∈ first, ∀ backendUrl, e.observesFor url backendUrl = false) :
    Recorded url (first ++ effects) := by
  induction first with
  | nil => exact h
  | cons effect first ih =>
      have hRest := ih fun e hMem => hFirst e (List.mem_cons_of_mem _ hMem)
      refine hRest.cons fun backendUrl => ?_
      have hOld := hRest backendUrl _ (List.suffix_refl _)
      have hNone := hFirst effect (List.mem_cons_self ..) backendUrl
      rw [List.countP_cons, List.countP_cons, hNone]
      simp only [Bool.false_eq_true, if_false]
      omega

theorem recorded_of_silent {effects : List Effect}
    (h : ∀ e ∈ effects, ∀ backendUrl, e.observesFor url backendUrl = false) : Recorded url effects := by
  simpa using recorded_nil.append effects h

end Effect

namespace RequestAccounting

open Effect

variable (self : RequestAccounting) (clock : DropClock) (url : BackendId → String) (backendUrl : String)

theorem countP_drop_isCount : (self.drop clock).countP isCount = 1 := by
  rw [drop_eq]
  cases self.sample clock <;> rfl

/-- A drop counts its request and observes its duration, under one URL. -/
theorem countP_drop_countsFor : (self.drop clock).countP (countsFor url backendUrl) =
    (self.drop clock).countP (observesFor url backendUrl) := by
  rw [drop_eq]
  cases self.sample clock <;> simp [countsFor, observesFor, List.countP_cons]

theorem recorded_drop : Recorded url (self.drop clock) := by
  have hCounted : Recorded url
      [.incRequests self.strategyName self.backend self.outcome.statusLabel, .releasePermit] := by
    have hReleased : Recorded url [.releasePermit] := recorded_nil.cons fun _ => le_refl _
    exact hReleased.cons fun _ => by simp [countsFor, observesFor, List.countP_cons]
  have hObserved : Recorded url
      [.observeDuration self.backend (saturatingDurationSince clock.elapsedAt self.started),
        .incRequests self.strategyName self.backend self.outcome.statusLabel, .releasePermit] :=
    hCounted.cons fun _ => by simp [countsFor, observesFor, List.countP_cons]
  rw [drop_eq]
  cases self.sample clock with
  | none =>
      exact hObserved.append [.recordRequestEnd self.backend, .breaker self.backend self.verdict]
        (by simp [observesFor])
  | some latency =>
      exact hObserved.append [.recordRequestEnd self.backend,
        .updateEwmaLatency self.backend latency self.ewmaAlpha, .breaker self.backend self.verdict]
        (by simp [observesFor])

end RequestAccounting

namespace Phase.Reaction

open Effect

variable {app : AppState} {phase next : Phase} {event : RequestEvent} {effects : List Effect}

/-- A reaction counts the request, keeps it to be counted, or loses it. -/
theorem counts (h : Reaction app phase event effects next) :
    next.unsettled + effects.countP isCount + phase.loses event = phase.unsettled := by
  cases h with
  | kept hAlive hNext _ _ hCalls =>
      rw [unsettled_of_accounting hNext, unsettled_of_accounting hAlive, loses_of_accounting hAlive,
        countP_of_calls hCalls fun _ _ => rfl]
  | finished _ _ _ hAlive hOver _ _ hCalls =>
      rw [hOver.unsettled_eq_zero, unsettled_of_accounting hAlive, loses_of_accounting hAlive,
        List.countP_append, countP_of_calls hCalls fun _ _ => rfl, RequestAccounting.countP_drop_isCount]
  | idle hOver hNext =>
      rw [hOver.unsettled_eq_zero, hNext.unsettled_eq_zero, hOver.loses_eq_zero]
      rfl
  | _ => rfl

/-- A reaction counts for a URL as often as it observes for it. -/
theorem counts_eq_observes (h : Reaction app phase event effects next) (backendUrl : String) :
    effects.countP (countsFor app.url backendUrl) = effects.countP (observesFor app.url backendUrl) := by
  cases h with
  | kept _ _ _ _ hCalls =>
      rw [countP_of_calls hCalls fun _ _ => rfl, countP_of_calls hCalls fun _ _ => rfl]
  | finished _ _ _ _ _ _ _ hCalls =>
      rw [List.countP_append, List.countP_append, countP_of_calls hCalls fun _ _ => rfl,
        countP_of_calls hCalls fun _ _ => rfl, RequestAccounting.countP_drop_countsFor]
  | _ => rfl

theorem recorded (h : Reaction app phase event effects next) : Recorded app.url effects := by
  have hNone {first : List Effect} (hCalls : ∀ e ∈ first, e.isBreakerCall = true) :
      ∀ e ∈ first, ∀ backendUrl, e.observesFor app.url backendUrl = false := by
    intro effect hMem backendUrl
    have hCall := hCalls effect hMem
    cases effect with
    | breaker => rfl
    | _ => cases hCall
  cases h with
  | kept _ _ _ _ hCalls => exact recorded_of_silent (hNone hCalls)
  | finished calls acc' clock _ _ _ _ hCalls =>
      exact (acc'.recorded_drop clock app.url).append calls (hNone hCalls)
  | _ => exact recorded_of_silent (by simp [observesFor])

end Phase.Reaction

namespace RouterMetrics

open Effect

/-- All increments of `router_requests_total`. -/
def requests (self : RouterMetrics) : Nat := self.requestsTotal.total fun _ count => count

/-- All increments of `router_rejected_requests_total`. -/
def rejections (self : RouterMetrics) : Nat := self.rejectedRequests.total fun _ count => count

/-- The increments of `router_requests_total` for one URL. -/
def requestsFor (self : RouterMetrics) (backendUrl : String) : Nat :=
  self.requestsTotal.total fun labels count => if labels.backend = backendUrl then count else 0

/-- The observations of `router_request_duration_seconds` for one URL. -/
def durationsFor (self : RouterMetrics) (backendUrl : String) : Nat :=
  (self.requestDuration.get ⟨backendUrl⟩).count

variable (url : BackendId → String) (self : RouterMetrics) (effect : Effect) (backendUrl : String)

theorem record_counted : (self.record url effect).requests + (self.record url effect).rejections =
    self.requests + self.rejections + if effect.isCount then 1 else 0 := by
  cases effect with
  | incRequests strategy backend status =>
      have hTotal := self.requestsTotal.total_update ⟨strategy, url backend, status⟩ (· + 1)
        (fun _ count => count) rfl
      simp only [record, incRequests, requests, rejections, isCount, isRejection, isRequestCount,
        requestLabels, Option.isSome_some, Bool.or_true, if_true]
      omega
  | incRejected reason =>
      have hTotal := self.rejectedRequests.total_update ⟨reason⟩ (· + 1) (fun _ count => count) rfl
      simp only [record, incRejected, requests, rejections, isCount, isRejection, Bool.true_or, if_true]
      omega
  | _ => rfl

theorem record_requestsFor : (self.record url effect).requestsFor backendUrl =
    self.requestsFor backendUrl + if effect.countsFor url backendUrl then 1 else 0 := by
  cases effect with
  | incRequests strategy backend status =>
      have hTotal := self.requestsTotal.total_update ⟨strategy, url backend, status⟩ (· + 1)
        (fun labels count => if labels.backend = backendUrl then count else 0) (by simp)
      simp only [record, incRequests, requestsFor, countsFor, decide_eq_true_eq] at hTotal ⊢
      by_cases hUrl : url backend = backendUrl
      · simp only [hUrl, if_true] at hTotal ⊢
        omega
      · simp only [hUrl, if_false, Nat.add_zero] at hTotal ⊢
        exact hTotal
  | _ => rfl

theorem record_durationsFor : (self.record url effect).durationsFor backendUrl =
    self.durationsFor backendUrl + if effect.observesFor url backendUrl then 1 else 0 := by
  cases effect with
  | observeDuration backend elapsed =>
      simp only [record, observeDuration, durationsFor, observesFor, decide_eq_true_eq]
      by_cases hUrl : url backend = backendUrl
      · subst hUrl
        rw [Family.get_update_self, if_pos rfl, Histogram.observe]
      · rw [Family.get_update_of_ne _ _ _ (by simpa using Ne.symm hUrl), if_neg hUrl]
        rfl
  | _ => rfl

end RouterMetrics

/-- The router with its metrics. The last field is not in the source: it counts
the requests whose future was dropped while their body was read. -/
structure MeteredRouter where
  router : Router
  metrics : RouterMetrics
  lost : Nat

namespace MeteredRouter

/-- A step of the router, with what its effect does to the metrics. -/
def act (app : AppState) (self : MeteredRouter) (action : RouterAction) : Option Effect × MeteredRouter :=
  let (effect, router) := self.router.act app action
  (effect,
    { router
      metrics := effect.elim self.metrics (self.metrics.record app.url)
      lost := self.lost + self.router.loses action })

def start (maxInFlight : Nat) (max_lt : maxInFlight < wordSize) (backends : BackendId → Backend) :
    MeteredRouter where
  router := .start maxInFlight max_lt backends
  metrics := .new
  lost := 0

end MeteredRouter

namespace Request

open Effect

/-- The counts that a request still owes, those about to be done included. -/
def uncounted (self : Request) : Nat := self.phase.unsettled + self.pending.countP isCount

def countsDue (url : BackendId → String) (backendUrl : String) (self : Request) : Nat :=
  self.pending.countP (countsFor url backendUrl)

theorem Ended.uncounted_eq_zero {request : Request} (h : request.Ended) : request.uncounted = 0 := by
  simp [uncounted, h.1.unsettled_eq_zero, h.2]

def observationsDue (url : BackendId → String) (backendUrl : String) (self : Request) : Nat :=
  self.pending.countP (observesFor url backendUrl)

end Request

namespace MeteredRouter

open Effect

/-- The counters and what requests still owe add up. -/
structure Counted (app : AppState) (s : MeteredRouter) : Prop where
  total : s.metrics.requests + s.metrics.rejections + sumOver Request.uncounted s.router.requests + s.lost =
    s.router.requests.length
  matched : ∀ backendUrl,
    s.metrics.requestsFor backendUrl + sumOver (Request.countsDue app.url backendUrl) s.router.requests =
      s.metrics.durationsFor backendUrl +
        sumOver (Request.observationsDue app.url backendUrl) s.router.requests
  recorded : ∀ request ∈ s.router.requests, Recorded app.url request.pending

namespace Counted

variable {app : AppState} {s : MeteredRouter}

theorem start (app : AppState) (maxInFlight : Nat) (max_lt : maxInFlight < wordSize)
    (backends : BackendId → Backend) : Counted app (.start maxInFlight max_lt backends) where
  total := rfl
  matched backendUrl := rfl
  recorded := by simp [MeteredRouter.start, Router.start]

/-- A request changes and an effect is done, of which the metrics know. -/
theorem change (h : Counted app s) {i : Nat} {before after : Request} {effect : Option Effect}
    {router : Router} {lost : Nat} (hRequest : s.router.requests[i]? = some before)
    (hRequests : router.requests = s.router.requests.set i after)
    (hCount : after.uncounted + effect.toList.countP isCount + lost = before.uncounted)
    (hMatched : ∀ backendUrl, after.countsDue app.url backendUrl +
        effect.toList.countP (countsFor app.url backendUrl) + before.observationsDue app.url backendUrl =
      after.observationsDue app.url backendUrl +
        effect.toList.countP (observesFor app.url backendUrl) + before.countsDue app.url backendUrl)
    (hRecorded : Recorded app.url after.pending) :
    Counted app ⟨router, effect.elim s.metrics (s.metrics.record app.url), s.lost + lost⟩ := by
  have hTotal := h.total
  have hUncounted := sumOver_set Request.uncounted hRequest after
  refine ⟨?_, fun backendUrl => ?_, fun request hMem => ?_⟩
  · simp only [hRequests, List.length_set]
    cases effect with
    | none =>
        simp only [Option.elim_none, Option.toList_none, List.countP_nil] at hCount ⊢
        omega
    | some effect =>
        have hRecord := s.metrics.record_counted app.url effect
        simp only [Option.elim_some, Option.toList_some, List.countP_singleton] at hCount ⊢
        omega
  · have hOld := h.matched backendUrl
    have hNew := hMatched backendUrl
    have hCounts := sumOver_set (Request.countsDue app.url backendUrl) hRequest after
    have hObservations := sumOver_set (Request.observationsDue app.url backendUrl) hRequest after
    simp only [hRequests]
    cases effect with
    | none =>
        simp only [Option.elim_none, Option.toList_none, List.countP_nil] at hNew ⊢
        omega
    | some effect =>
        have hFor := s.metrics.record_requestsFor app.url effect backendUrl
        have hDurations := s.metrics.record_durationsFor app.url effect backendUrl
        simp only [Option.elim_some, Option.toList_some, List.countP_singleton] at hNew ⊢
        omega
  · simp only [hRequests] at hMem
    rcases List.mem_or_eq_of_mem_set hMem with hOld | rfl
    · exact h.recorded request hOld
    · exact hRecorded

theorem recorded_of_append {first rest : List Effect} (h : Recorded app.url (first ++ rest)) :
    Recorded app.url rest :=
  fun backendUrl suffix hSuffix => h backendUrl suffix (hSuffix.trans (List.suffix_append _ _))

/-- Every step keeps the counters and the debts in balance. -/
theorem act (h : Counted app s) (action : RouterAction) : Counted app (s.act app action).2 := by
  have hTransition := s.router.act_transition app action
  simp only [MeteredRouter.act]
  generalize (s.router.act app action).1 = effect at hTransition ⊢
  generalize (s.router.act app action).2 = router at hTransition ⊢
  cases hTransition with
  | idle hRequests hLoses =>
      refine ⟨?_, ?_, ?_⟩
      · simpa only [hRequests, hLoses, Option.elim_none, Nat.add_zero] using h.total
      · simpa only [hRequests, Option.elim_none] using h.matched
      · simpa only [hRequests] using h.recorded
  | arrived _ hRequests hLoses =>
      have hTotal := h.total
      have hNew : (Request.mk .arrived []).uncounted = 1 := rfl
      refine ⟨?_, fun backendUrl => ?_, fun request hMem => ?_⟩
      · simp only [hRequests, hLoses, sumOver_append, sumOver_cons, sumOver_nil, hNew,
          List.length_append, List.length_singleton, Option.elim_none]
        omega
      · simpa [hRequests, Request.countsDue, Request.observationsDue] using h.matched backendUrl
      · simp only [hRequests] at hMem
        rcases List.mem_append.mp hMem with hOld | hNew
        · exact h.recorded request hOld
        · rw [List.mem_singleton.mp hNew]
          exact recorded_nil
  | @performed _ i request effect left hRequest hPending hRequests hLoses =>
      have hRecorded := h.recorded request (List.mem_of_getElem? hRequest)
      rw [hPending] at hRecorded
      rw [hLoses]
      refine h.change hRequest hRequests ?_ (fun backendUrl => ?_) (recorded_of_append hRecorded)
      · simp only [Request.uncounted, hPending, List.countP_append]
        omega
      · simp only [Request.countsDue, Request.observationsDue, hPending, List.countP_append]
        omega
  | @reacted _ i phase next event effect left _ hRequest step hRequests hLoses =>
      have hReaction := step.reaction
      have hCounts := hReaction.counts
      rw [hLoses]
      refine h.change hRequest hRequests ?_ (fun backendUrl => ?_)
        (recorded_of_append hReaction.recorded)
      · simp only [List.countP_append] at hCounts
        simp only [Request.uncounted, List.countP_nil]
        omega
      · have hMatched := hReaction.counts_eq_observes backendUrl
        simp only [List.countP_append] at hMatched
        simp only [Request.countsDue, Request.observationsDue, List.countP_nil]
        omega

end Counted

/-- The metrics change nothing about the router. -/
theorem replay_router (app : AppState) (s : MeteredRouter) (actions : List RouterAction) :
    (replay (MeteredRouter.act app) s actions).2.router =
      (replay (Router.act app) s.router actions).2 := by
  induction actions generalizing s with
  | nil => rfl
  | cons action actions ih => exact ih (s.act app action).2

/-- Every request that ever arrived is counted once, or still to be counted, or
lost while its body was read. The duration histogram runs ahead of the counter by
what is still due, and at rest nothing is due. -/
theorem requests_counted (app : AppState) (maxInFlight : Nat) (max_lt : maxInFlight < wordSize)
    (backends : BackendId → Backend) (actions : List RouterAction) :
    let s := (replay (MeteredRouter.act app) (start maxInFlight max_lt backends) actions).2
    let arrivals := actions.countP RouterAction.isArrival
    s.router = (replay (Router.act app) (.start maxInFlight max_lt backends) actions).2 ∧
    s.metrics.requests + s.metrics.rejections + sumOver Request.uncounted s.router.requests + s.lost =
      arrivals ∧
    (∀ backendUrl, s.metrics.requestsFor backendUrl ≤ s.metrics.durationsFor backendUrl ∧
      s.metrics.durationsFor backendUrl ≤ s.metrics.requestsFor backendUrl +
        sumOver (Request.countsDue app.url backendUrl) s.router.requests) ∧
    ((∀ request ∈ s.router.requests, request.Ended) →
      s.metrics.requests + s.metrics.rejections + s.lost = arrivals ∧
      ∀ backendUrl, s.metrics.requestsFor backendUrl = s.metrics.durationsFor backendUrl) := by
  intro s arrivals
  have hCounted : Counted app s :=
    replay_invariant (Counted app) (fun s action h => h.act action)
      (Counted.start app maxInFlight max_lt backends) actions
  have hRouter : s.router = (replay (Router.act app) (.start maxInFlight max_lt backends) actions).2 :=
    replay_router app _ actions
  have hLength : s.router.requests.length = arrivals := by
    rw [hRouter, Router.length_requests_replay]
    exact Nat.zero_add _
  have hTotal := hCounted.total
  refine ⟨hRouter, hTotal.trans hLength, fun backendUrl => ?_, fun hEnded => ⟨?_, fun backendUrl => ?_⟩⟩
  · have hMatched := hCounted.matched backendUrl
    have hDue : sumOver (Request.observationsDue app.url backendUrl) s.router.requests ≤
        sumOver (Request.countsDue app.url backendUrl) s.router.requests :=
      sumOver_le_sumOver _ fun request hMem =>
        hCounted.recorded request hMem backendUrl _ (List.suffix_refl _)
    omega
  · have hNone : sumOver Request.uncounted s.router.requests = 0 :=
      (sumOver_eq_zero_iff _).mpr fun request hMem => (hEnded request hMem).uncounted_eq_zero
    omega
  · have hMatched := hCounted.matched backendUrl
    have hCounts : sumOver (Request.countsDue app.url backendUrl) s.router.requests = 0 :=
      (sumOver_eq_zero_iff _).mpr fun request hMem => by simp [Request.countsDue, (hEnded request hMem).2]
    have hObservations : sumOver (Request.observationsDue app.url backendUrl) s.router.requests = 0 :=
      (sumOver_eq_zero_iff _).mpr fun request hMem => by
        simp [Request.observationsDue, (hEnded request hMem).2]
    omega

/-- Three requests to one slot: one is refused, one is lost while its body is
read, and one is still running. -/
theorem requests_counted_three :
    let app : AppState := { strategyName := "round_robin", ewmaAlpha := 1 / 10, url := fun _ => "http://b0" }
    let backends : BackendId → Backend := fun id => .new id "http://b0" 1 (.new 0 (1 / 2) 10 10 30)
    let actions : List RouterAction :=
      [.arrive, .arrive, .arrive, .acquire 0, .acquire 1, .perform 1 0, .react 0 (.dropped ⟨0, 0⟩) 0,
        .acquire 2, .react 2 (.bodyRead none) 0, .react 2 (.selected (some (0, .normal)) 0) 0]
    let s := (replay (MeteredRouter.act app) (start 1 (by decide) backends) actions).2
    s.metrics.requests + s.metrics.rejections + sumOver Request.uncounted s.router.requests + s.lost = 3 ∧
      s.metrics.rejections = 1 ∧ s.lost = 1 ∧ s.metrics.requestsFor "http://b0" ≤ s.metrics.durationsFor "http://b0" := by
  intro app backends actions
  obtain ⟨-, hTotal, hMatched, -⟩ := requests_counted app 1 (by decide) backends actions
  exact ⟨hTotal, by decide +kernel, by decide +kernel, (hMatched "http://b0").1⟩

end MeteredRouter

end InferenceRouter
