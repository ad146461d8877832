import InferenceRouter.Server.Counters

/-! The labels under which requests are counted. They come from the configuration
and from a fixed list of outcomes and reasons, never from what a client sends, so
the number of time series is bounded whatever the traffic. -/
namespace InferenceRouter

open Semantics

/-- The reasons of `router_rejected_requests_total`. -/
def rejectReasons : List String := ["backpressure", "body_too_large", "bad_body", "no_routable_backend"]

/-- The status labels of `router_requests_total`. -/
def statusLabels : List String :=
  ((List.range 900).map fun i => toString (i + 100)) ++
    [Outcome.transportError.statusLabel, Outcome.streamError.statusLabel,
      Outcome.clientDisconnect.statusLabel]

theorem Outcome.statusLabel_mem (outcome : Outcome) : outcome.statusLabel ∈ statusLabels := by
  cases outcome with
  | completed status =>
      obtain ⟨code, hLow, hHigh⟩ := status
      refine List.mem_append_left _ (List.mem_map.mpr ⟨code - 100, ?_, ?_⟩)
      · rw [List.mem_range]
        omega
      · rw [Nat.sub_add_cancel hLow]
        rfl
  | transportError | streamError | clientDisconnect => exact List.mem_append_right _ (by simp)

section Lawful

variable (app : AppState) (pool : Finset BackendId)

/-- An effect whose labels are of the configuration. -/
def Effect.Lawful : Effect → Prop
  | .incRequests strategy backend status =>
      strategy = app.strategyName ∧ backend ∈ pool ∧ ∃ outcome : Outcome, status = outcome.statusLabel
  | .observeDuration backend _ => backend ∈ pool
  | .incRejected reason => reason ∈ rejectReasons
  | _ => True

/-- A guard whose labels are of the configuration. -/
def Phase.Lawful (phase : Phase) : Prop :=
  ∀ acc ∈ phase.accounting, acc.strategyName = app.strategyName ∧ acc.backend ∈ pool

/-- A label set of the configuration. -/
structure RequestLabels.Lawful (labels : RequestLabels) : Prop where
  strategy : labels.strategy = app.strategyName
  backend : ∃ backend ∈ pool, app.url backend = labels.backend
  status : ∃ outcome : Outcome, labels.status = outcome.statusLabel

/-- Only labels of the configuration have been used. -/
structure RouterMetrics.Lawful (metrics : RouterMetrics) : Prop where
  requests : ∀ labels ∈ metrics.requestsTotal, labels.Lawful app pool
  durations : ∀ labels ∈ metrics.requestDuration, ∃ backend ∈ pool, app.url backend = labels.backend
  rejections : ∀ labels ∈ metrics.rejectedRequests, labels.reason ∈ rejectReasons

end Lawful

variable {app : AppState} {pool : Finset BackendId}

theorem Phase.Over.lawful {phase : Phase} (h : phase.Over) : phase.Lawful app pool := by
  simp [Phase.Lawful, h.accounting_eq_none]

theorem Effect.lawful_of_call {effect : Effect} (h : effect.isBreakerCall = true) :
    effect.Lawful app pool := by
  cases effect with
  | breaker => trivial
  | _ => cases h

/-- A guard drops with its own labels. -/
theorem RequestAccounting.lawful_drop {self : RequestAccounting}
    (hStrategy : self.strategyName = app.strategyName) (hBackend : self.backend ∈ pool)
    (clock : DropClock) : ∀ e ∈ self.drop clock, e.Lawful app pool := by
  rw [drop_eq]
  cases self.sample clock <;> simp [Effect.Lawful, hStrategy, hBackend]

/-- Lawful guards react lawfully, if they start in the pool. -/
theorem Phase.Reaction.lawful {phase next : Phase} {event : RequestEvent} {effects : List Effect}
    (h : Reaction app phase event effects next) (hPhase : phase.Lawful app pool)
    (hSelected : ∀ backend adm startedAt, event = .selected (some (backend, adm)) startedAt → backend ∈ pool) :
    next.Lawful app pool ∧ ∀ e ∈ effects, e.Lawful app pool := by
  cases h with
  | acquired | read => exact ⟨by simp [Phase.Lawful, accounting], by simp⟩
  | refused => exact ⟨(over_error _).lawful, by simp [Effect.Lawful, rejectReasons]⟩
  | unreadable err =>
      refine ⟨(over_error _).lawful, ?_⟩
      cases err <;> simp [Effect.Lawful, rejectReasons, bodyErrorStatus]
  | lost => exact ⟨over_gone.lawful, by simp [Effect.Lawful]⟩
  | unroutable => exact ⟨(over_error _).lawful, by simp [Effect.Lawful, rejectReasons]⟩
  | started hBackend hStrategy =>
      refine ⟨?_, by simp [Effect.Lawful]⟩
      simpa [Phase.Lawful, accounting, hStrategy, hBackend] using hSelected _ _ _ rfl
  | kept hAlive hNext hBackend hStrategy hCalls =>
      have hAcc := hPhase _ hAlive
      refine ⟨fun acc hMem => ?_, fun e hMem => Effect.lawful_of_call (hCalls e hMem)⟩
      obtain rfl : _ = acc := Option.mem_unique hNext hMem
      rw [hBackend, hStrategy]
      exact hAcc
  | finished calls acc' clock hAlive hOver hBackend hStrategy hCalls =>
      have hAcc := hPhase _ hAlive
      rw [← hBackend, ← hStrategy] at hAcc
      refine ⟨hOver.lawful, fun e hMem => ?_⟩
      rcases List.mem_append.mp hMem with hCall | hDrop
      · exact Effect.lawful_of_call (hCalls e hCall)
      · exact RequestAccounting.lawful_drop hAcc.1 hAcc.2 clock e hDrop
  | idle _ hNext => exact ⟨hNext.lawful, by simp⟩

/-- A lawful effect creates lawful labels only. -/
theorem RouterMetrics.Lawful.record {metrics : RouterMetrics} (h : metrics.Lawful app pool)
    {effect : Effect} (hEffect : effect.Lawful app pool) : (metrics.record app.url effect).Lawful app pool := by
  cases effect with
  | incRequests strategy backend status =>
      obtain ⟨hStrategy, hBackend, hStatus⟩ := hEffect
      refine ⟨fun labels hMem => ?_, h.durations, h.rejections⟩
      rcases (Family.mem_update ..).mp hMem with rfl | hOld
      · exact ⟨hStrategy, ⟨backend, hBackend, rfl⟩, hStatus⟩
      · exact h.requests labels hOld
  | observeDuration backend elapsed =>
      refine ⟨h.requests, fun labels hMem => ?_, h.rejections⟩
      rcases (Family.mem_update ..).mp hMem with rfl | hOld
      · exact ⟨backend, hEffect, rfl⟩
      · exact h.durations labels hOld
  | incRejected reason =>
      refine ⟨h.requests, h.durations, fun labels hMem => ?_⟩
      rcases (Family.mem_update ..).mp hMem with rfl | hOld
      · exact hEffect
      · exact h.rejections labels hOld
  | _ => exact h

/-- `select_backend` answered with a backend. -/
def RouterAction.Selects (action : RouterAction) (backend : BackendId) : Prop :=
  ∃ i adm startedAt now, action = .react i (.selected (some (backend, adm)) startedAt) now

namespace MeteredRouter

/-- All labels in use, and those that pending effects will use, are lawful. -/
structure Lawful (app : AppState) (pool : Finset BackendId) (s : MeteredRouter) : Prop where
  metrics : s.metrics.Lawful app pool
  phases : ∀ request ∈ s.router.requests, request.phase.Lawful app pool
  pending : ∀ request ∈ s.router.requests, ∀ e ∈ request.pending, e.Lawful app pool

namespace Lawful

variable {s : MeteredRouter}

theorem start (maxInFlight : Nat) (max_lt : maxInFlight < wordSize) (backends : BackendId → Backend) :
    Lawful app pool (.start maxInFlight max_lt backends) where
  metrics := ⟨by simp [MeteredRouter.start, RouterMetrics.new],
    by simp [MeteredRouter.start, RouterMetrics.new], by simp [MeteredRouter.start, RouterMetrics.new]⟩
  phases := by simp [MeteredRouter.start, Router.start]
  pending := by simp [MeteredRouter.start, Router.start]

/-- A request changes and an effect is done, lawfully. -/
theorem change (h : Lawful app pool s) {i : Nat} {after : Request} {effect : Option Effect}
    {router : Router} (lost : Nat) (hRequests : router.requests = s.router.requests.set i after)
    (hPhase : after.phase.Lawful app pool)
    (hEffects : ∀ e ∈ effect.toList ++ after.pending, e.Lawful app pool) :
    Lawful app pool ⟨router, effect.elim s.metrics (s.metrics.record app.url), lost⟩ := by
  refine ⟨?_, fun request hMem => ?_, fun request hMem => ?_⟩
  · cases effect with
    | none => exact h.metrics
    | some effect => exact h.metrics.record (hEffects effect (by simp))
  · simp only [hRequests] at hMem
    rcases List.mem_or_eq_of_mem_set hMem with hOld | rfl
    · exact h.phases request hOld
    · exact hPhase
  · simp only [hRequests] at hMem
    rcases List.mem_or_eq_of_mem_set hMem with hOld | rfl
    · exact h.pending request hOld
    · exact fun e hPending => hEffects e (List.mem_append_right _ hPending)

/-- Every step uses lawful labels, if it selects from the pool. -/
theorem act (h : Lawful app pool s) {action : RouterAction}
    (hSelected : ∀ backend, action.Selects backend → backend ∈ pool) :
    Lawful app pool (s.act app action).2 := by
  have hTransition := s.router.act_transition app action
  simp only [MeteredRouter.act]
  generalize (s.router.act app action).1 = effect at hTransition ⊢
  generalize (s.router.act app action).2 = router at hTransition ⊢
  cases hTransition with
  | idle hRequests =>
      exact ⟨h.metrics, by simpa only [hRequests] using h.phases, by simpa only [hRequests] using h.pending⟩
  | arrived _ hRequests =>
      refine ⟨h.metrics, fun request hMem => ?_, fun request hMem => ?_⟩
      · simp only [hRequests] at hMem
        rcases List.mem_append.mp hMem with hOld | hNew
        · exact h.phases request hOld
        · rw [List.mem_singleton.mp hNew]
          simp [Phase.Lawful, Phase.accounting]
      · simp only [hRequests] at hMem
        rcases List.mem_append.mp hMem with hOld | hNew
        · exact h.pending request hOld
        · rw [List.mem_singleton.mp hNew]
          exact List.forall_mem_nil _
  | @performed _ _ request _ _ hRequest hPending hRequests =>
      have hMem := List.mem_of_getElem? hRequest
      refine h.change _ hRequests (h.phases request hMem) ?_
      rw [← hPending]
      exact h.pending request hMem
  | @reacted _ i phase _ event _ _ hAction hRequest step hRequests =>
      obtain ⟨hNext, hEffects⟩ := step.reaction.lawful (h.phases _ (List.mem_of_getElem? hRequest))
        (fun backend adm startedAt hEvent => by
          rcases hAction with ⟨acquired, hAcquire⟩ | ⟨now, hReact⟩
          · rw [hEvent] at hAcquire
            cases hAcquire
          · exact hSelected backend ⟨i, adm, startedAt, now, by rw [hReact, hEvent]⟩)
      exact h.change _ hRequests hNext hEffects

end Lawful

/-- However many requests arrive and whatever they are, the requests of a pool are
counted under at most 903 label sets a backend, and rejected for four reasons. -/
theorem series_bounded (app : AppState) (maxInFlight : Nat) (max_lt : maxInFlight < wordSize)
    (backends : BackendId → Backend) (actions : List RouterAction) (pool : Finset BackendId)
    (hSelected : ∀ action ∈ actions, ∀ backend, action.Selects backend → backend ∈ pool) :
    let metrics := (replay (MeteredRouter.act app) (start maxInFlight max_lt backends) actions).2.metrics
    metrics.requestsTotal.keys.length ≤ pool.card * 903 ∧
    metrics.requestDuration.keys.length ≤ pool.card ∧
    metrics.rejectedRequests.keys.length ≤ 4 ∧
    ∀ labels ∈ metrics.requestsTotal, labels.strategy = app.strategyName ∧
      (∃ backend ∈ pool, app.url backend = labels.backend) ∧
      ∃ outcome : Outcome, labels.status = outcome.statusLabel := by
  intro metrics
  have hLawful : metrics.Lawful app pool :=
    (replay_invariant_of_mem (Lawful app pool) actions
      (fun s action hMem h => h.act (hSelected action hMem))
      (Lawful.start maxInFlight max_lt backends)).metrics
  refine ⟨?_, ?_, ?_, fun labels hMem => ?_⟩
  · let series : Finset RequestLabels := (pool ×ˢ statusLabels.toFinset).image fun key =>
      ⟨app.strategyName, app.url key.1, key.2⟩
    have hSeries : ∀ labels ∈ metrics.requestsTotal, labels ∈ series := by
      intro labels hMem
      obtain ⟨hStrategy, ⟨backend, hBackend, hUrl⟩, outcome, hStatus⟩ := hLawful.requests labels hMem
      refine Finset.mem_image.mpr ⟨(backend, labels.status), ?_, ?_⟩
      · rw [Finset.mem_product, List.mem_toFinset, hStatus]
        exact ⟨hBackend, outcome.statusLabel_mem⟩
      · cases labels
        simp_all
    calc metrics.requestsTotal.keys.length
        ≤ series.card := metrics.requestsTotal.keys_length_le series hSeries
      _ ≤ (pool ×ˢ statusLabels.toFinset).card := Finset.card_image_le
      _ = pool.card * statusLabels.toFinset.card := Finset.card_product _ _
      _ ≤ pool.card * 903 := Nat.mul_le_mul_left _ (statusLabels.toFinset_card_le.trans_eq (by simp [statusLabels]))
  · have hUrls : ∀ labels ∈ metrics.requestDuration, labels ∈ pool.image fun b => ⟨app.url b⟩ := by
      intro labels hMem
      obtain ⟨backend, hBackend, hUrl⟩ := hLawful.durations labels hMem
      exact Finset.mem_image.mpr ⟨backend, hBackend, by rw [hUrl]⟩
    exact (metrics.requestDuration.keys_length_le _ hUrls).trans Finset.card_image_le
  · have hReasons : ∀ labels ∈ metrics.rejectedRequests,
        labels ∈ (rejectReasons.map RejectLabels.mk).toFinset := by
      intro labels hMem
      rw [List.mem_toFinset]
      exact List.mem_map.mpr ⟨labels.reason, hLawful.rejections labels hMem, rfl⟩
    exact (metrics.rejectedRequests.keys_length_le _ hReasons).trans (List.toFinset_card_le _)
  · obtain ⟨hStrategy, hBackend, hStatus⟩ := hLawful.requests labels hMem
    exact ⟨hStrategy, hBackend, hStatus⟩

/-- A pool of one backend, and a request that it answers with a 404. -/
theorem series_bounded_single :
    let app : AppState := { strategyName := "round_robin", ewmaAlpha := 1 / 10, url := fun _ => "http://b0" }
    let backends : BackendId → Backend := fun id => .new id "http://b0" 1 (.new 0 (1 / 2) 10 10 30)
    let actions : List RouterAction :=
      [.arrive, .acquire 0, .react 0 (.bodyRead none) 0, .react 0 (.selected (some (0, .normal)) 0) 0,
        .react 0 (.answered (.answered ⟨404, by decide⟩ [] 1 (some [])) ⟨2, 2⟩) 2, .perform 0 2,
        .perform 0 2, .perform 0 2]
    let metrics := (replay (MeteredRouter.act app) (start 1 (by decide) backends) actions).2.metrics
    metrics.requestsTotal.keys = [⟨"round_robin", "http://b0", "404"⟩] ∧
      metrics.requestsTotal.keys.length ≤ 1 * 903 ∧ metrics.requestDuration.keys.length ≤ 1 := by
  intro app backends actions metrics
  have hSelected : ∀ action ∈ actions, ∀ backend, action.Selects backend → backend ∈ ({0} : Finset BackendId) := by
    intro action hMem backend ⟨i, adm, startedAt, now, hAction⟩
    subst hAction
    simp [actions] at hMem
    simp [hMem]
  obtain ⟨hRequests, hDurations, -⟩ := series_bounded app 1 (by decide) backends actions {0} hSelected
  exact ⟨by decide +kernel, hRequests, hDurations⟩

end MeteredRouter

end InferenceRouter
