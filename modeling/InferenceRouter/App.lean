import InferenceRouter.CircuitBreaker.Tolerance
import InferenceRouter.Config
import InferenceRouter.Server.Counters
import InferenceRouter.Server.Failover
import InferenceRouter.Server.SelectionAvailable

/-! From a configuration to a router that serves. What was accepted can be built,
and as long as no backend uses up its budget of failures or fails its health
checks, every request is given a backend. -/
namespace InferenceRouter

open Semantics Program

inductive Route where
  | health
  | proxy
  | metrics
  deriving DecidableEq, Repr

/-- The paths that `build_router` registers. `metrics.enabled` is an argument. -/
def MetricsConfig.routes (self : MetricsConfig) (enabled : Bool) : List (String × Route) :=
  [("/health", .health), ("/v1/completions", .proxy), ("/v1/chat/completions", .proxy)] ++
    if enabled then [(self.path, .metrics)] else []

/-- A router that was built, and is not asked for anything yet. -/
structure App (F : Type) where
  routes : List (String × Route)
  pool : BackendPool
  strategy : RoutingStrategy F
  state : AppState
  router : MeteredRouter
  backends_id : ∀ b, (router.router.backends b).id = b

/-- What its selections share, at the clock reading of the first of them. -/
def App.shared {F : Type} (self : App F) (now : Nat) : Shared self.strategy.State where
  clock := now
  backends := self.router.router.backends
  backends_id := self.backends_id
  strategy := self.strategy.start

namespace RouterConfig

/-- The backend with an id. An id outside the pool stands for nothing. -/
def backendAt (self : RouterConfig) (now : Nat) (id : BackendId) : Backend :=
  (self.buildBackends now)[id]?.getD (.new id "" 1 (.fromConfig now self.circuitBreaker))

theorem backendAt_eq (self : RouterConfig) (now : Nat) (id : BackendId) :
    ∃ url weight, self.backendAt now id = .new id url weight (.fromConfig now self.circuitBreaker) ∧
      ∀ backend, self.backends[id]? = some backend → url = backend.normalizedUrl := by
  simp only [backendAt, buildBackends, List.getElem?_map, List.getElem?_zipIdx]
  cases self.backends[id]? with
  | none => exact ⟨"", 1, rfl, by simp⟩
  | some backend =>
      refine ⟨backend.normalizedUrl, backend.weight.toNat, by simp, ?_⟩
      rintro _ ⟨⟩
      rfl

theorem backendAt_id (self : RouterConfig) (now : Nat) (id : BackendId) : (self.backendAt now id).id = id := by
  obtain ⟨url, weight, hEq, -⟩ := self.backendAt_eq now id
  rw [hEq]
  rfl

/-- `build_app`, at the instant `now`. `buildClient` is the builder of the HTTP client,
which may fail; the client is the environment, and the task that is spawned for the
health checks is one of the others. -/
def buildApp {F : Type} [FloatArith F] (self : RouterConfig) (hashKey : Hasher)
    (buildClient : UpstreamConfig → Except String Unit) (metricsEnabled : Bool) (now : Nat) :
    Except String (App F) :=
  match self.buildStrategy hashKey with
  | .error message => .error message
  | .ok strategy =>
      match buildClient self.upstream with
      | .error message => .error message
      | .ok () => .ok {
          routes := self.metrics.routes metricsEnabled
          pool := .enumerate self.backends.length self.backpressure.maxBackendQueueDepth.toNat
          strategy
          state := {
            strategyName := self.routing.strategy
            ewmaAlpha := self.routing.latencyAware.alpha.toRat
            url := fun id => (self.backendAt now id).url }
          router := .start self.backpressure.maxInFlight.toNat self.backpressure.maxInFlight.toNat_lt
            (self.backendAt now)
          backends_id := self.backendAt_id now }

end RouterConfig

namespace RouterConfig

variable {F : Type} [FloatArith F] {config : RouterConfig} {hashKey : Hasher}

theorem exists_buildStrategy (config : RouterConfig) (hashKey : Hasher)
    (hName : config.routing.strategy ∈ strategyNames) :
    ∃ strategy : RoutingStrategy F, config.buildStrategy hashKey = .ok strategy := by
  have hOk := (createStrategy_isOk_iff (F := F) hashKey config.routing.strategy
    config.routing.prefixCache.prefixTokenCount.toNat config.backends.length).mpr hName
  rw [buildStrategy]
  revert hOk
  cases createStrategy (F := F) hashKey config.routing.strategy
    config.routing.prefixCache.prefixTokenCount.toNat config.backends.length with
  | ok strategy => exact fun _ => ⟨strategy, rfl⟩
  | error => exact fun hNot => absurd hNot (by simp [Except.toBool])

end RouterConfig

/-- A backend that any request may be given to. -/
structure Backend.InService (b : Backend) : Prop where
  healthy : b.healthy = true
  closed : b.breaker.control.state = .closed
  threshold : 0 ≤ b.breaker.failureRateThreshold

def Shared.InService {State : Type} (self : Shared State) : Prop := ∀ b, (self.backends b).InService

/-- A step of others that spares the backends: no health check marks one unhealthy,
and a failure leaves its breaker within the budget. -/
def Spares {State : Type} (s : Shared State) (action : Interference State) (t : Shared State) : Prop :=
  t = s.interfere action ∧
    match action with
    | .breaker b e => e.call.isFailure = true → (t.backends b).breaker.WithinBudget
    | .health _ healthy _ _ => healthy = true
    | .counters _ _ | .strategy _ | .clock _ => True

namespace Shared.InService

variable {State : Type} {s t : Shared State}

theorem modify (h : s.InService) {backend : BackendId} {f : Backend → Backend} (hId : ∀ b, (f b).id = b.id)
    (hService : (f (s.backends backend)).InService) : (s.modify backend f hId).InService := by
  intro b
  by_cases hSame : b = backend
  · subst hSame
    simpa only [Shared.modify, Function.update_self] using hService
  · simpa only [Shared.modify, Function.update_of_ne hSame] using h b

/-- A call of a breaker keeps the service up if a failure leaves it within its budget. -/
theorem serve (h : s.InService) (backend : BackendId) (e : Event)
    (hBudget : e.call.isFailure = true → ((s.backends backend).breaker.serve e).2.WithinBudget) :
    (s.setBreaker backend ((s.backends backend).breaker.serve e).2).InService := by
  refine h.modify _ ⟨(h backend).healthy, ?_, ?_⟩
  · exact CircuitBreaker.serve_closed (h backend).closed (h backend).threshold hBudget
  · exact (CircuitBreaker.serve_failureRateThreshold ..).ge.trans' (h backend).threshold

theorem step {action : Interference State} (h : s.InService) (hStep : Spares s action t) : t.InService := by
  obtain ⟨rfl, hSpared⟩ := hStep
  cases action with
  | breaker backend e =>
      refine h.serve backend e fun hFailure => ?_
      simpa only [Shared.interfere, Shared.setBreaker_self] using hSpared hFailure
  | health backend healthy failures successes =>
      rw [Shared.interfere]
      refine h.modify _ ?_
      exact ⟨hSpared, (h backend).closed, (h backend).threshold⟩
  | counters backend counters =>
      rw [Shared.interfere]
      refine h.modify _ ?_
      exact ⟨(h backend).healthy, (h backend).closed, (h backend).threshold⟩
  | strategy state | clock now => exact h

end Shared.InService

variable {F : Type} {strategy : RoutingStrategy F} {s t : Shared strategy.State} {pool : BackendPool}
  {incoming : IncomingRequest} {accesses : List (Access (Shared strategy.State) SelectionOp.Answer)}

theorem Performs.inService {op : SelectionOp} {answer : op.Answer} (h : Performs strategy s op answer t)
    (hService : s.InService) : t.InService := by
  cases op with
  | isHealthy backend => rwa [h.isHealthy.2]
  | queueDepth backend => rwa [h.queueDepth.2]
  | select incoming candidates =>
      intro b
      rw [h.select.2.2]
      exact hService b
  | breakerIsRoutable backend =>
      rw [h.breakerIsRoutable.2]
      exact hService.serve backend ⟨s.clock, .isRoutable⟩ (by simp [Call.isFailure])
  | tryBegin backend =>
      rw [h.tryBegin.2]
      exact hService.serve backend ⟨s.clock, .tryBegin⟩ (by simp [Call.isFailure])

/-- Among steps that spare them, the backends are in service before each access. -/
theorem inService_of_execution {α : Type} {p : Selection α} {a : α}
    (exec : Selection.Execution strategy Spares p s accesses a t) (hService : s.InService) :
    t.InService ∧ ∀ access ∈ accesses, access.before.InService := by
  obtain ⟨hEnd, hAccesses⟩ := exec.related (fun s t => s.InService → t.InService) (fun _ => id)
    (fun _ _ _ hFirst hLater hStart => hLater (hFirst hStart)) (fun _ _ _ hStep hStart => hStart.step hStep)
    fun access hMem => (exec.performs_of_mem hMem).inService
  exact ⟨hEnd hService, fun access hMem => (hAccesses access hMem).1 hService⟩

/-- Of backends in service the examination misses none. -/
theorem snapshot_ne_nil_of_inService {snapshot : List BackendId}
    (exec : Selection.Execution strategy Spares pool.routable s accesses snapshot t)
    (hService : s.InService) (hNonempty : pool.backends ≠ []) : snapshot ≠ [] := by
  obtain ⟨found, depth, hExamination⟩ := examination_of_routable Framing.trivial exec
  obtain ⟨b, hPool⟩ := List.exists_mem_of_ne_nil _ hNonempty
  have hBefore := (inService_of_execution exec hService).2
  obtain ⟨x, answer, y, hFlag, -, hAsked⟩ := hExamination.asked b hPool
  have hHealthy : answer = true := (exec.performs_of_mem hFlag).isHealthy.1.trans (hBefore _ hFlag b).healthy
  obtain ⟨x', y', hRoutable⟩ := hAsked hHealthy
  refine hExamination.snapshot_ne_nil_iff.mpr ⟨b, hPool, ?_⟩
  calc
    found b = ((x'.backends b).breaker.isRoutable x'.clock).1 :=
      (exec.performs_of_mem hRoutable).breakerIsRoutable.1
    _ = ((x'.backends b).breaker.tryBegin x'.clock).1.isSome := (CircuitBreaker.tryBegin_isSome ..).symm
    _ = true := by rw [CircuitBreaker.tryBegin_of_closed (hBefore _ hRoutable b).closed]; rfl

/-- The strategy is asked once, and its pick is admitted. -/
theorem Attempts.first_of_inService {candidates : List BackendId} {numBackends : Nat}
    {result : Option (BackendId × Admission)}
    (h : Attempts strategy Spares incoming candidates s accesses result t)
    (hService : ∀ access ∈ accesses, access.before.InService) (hHonours : strategy.Honours numBackends)
    (hPool : ∀ b ∈ candidates, b < numBackends) (hNonempty : candidates ≠ []) :
    ∃ b ∈ candidates, result = some (b, .normal) ∧ askedBreakers accesses = [b] := by
  cases h with
  | exhausted => exact absurd rfl hNonempty
  | declined _ _ asked =>
      obtain ⟨id, -, hChoice⟩ := asked.select_mem hHonours hNonempty hPool
      cases hChoice
  | outside _ _ asked notMem =>
      obtain ⟨id, hIn, hChoice⟩ := asked.select_mem hHonours hNonempty hPool
      cases hChoice
      exact absurd hIn notMem
  | @admitted _ _ _ _ y _ _ _ id adm _ _ mem _ begun =>
      have hClosed := (hService ⟨y, .tryBegin id, some adm, t⟩ (by simp) id).closed
      have hAnswer := begun.tryBegin.1
      rw [CircuitBreaker.tryBegin_of_closed hClosed] at hAnswer
      cases hAnswer
      exact ⟨id, mem, rfl, rfl⟩
  | @refused _ _ _ _ y y' _ _ _ id _ _ _ _ _ _ begun _ =>
      have hClosed := (hService ⟨y, .tryBegin id, none, y'⟩ (by simp) id).closed
      have hAnswer := begun.tryBegin.1
      rw [CircuitBreaker.tryBegin_of_closed hClosed] at hAnswer
      cases hAnswer

namespace BackendConfig

variable (self : BackendConfig)

theorem normalizedUrl_prefix : self.normalizedUrl.toList <+: self.url.toList := by
  rw [normalizedUrl, String.toList_ofList, ← List.reverse_suffix, List.reverse_reverse]
  exact List.dropWhile_suffix _

/-- A URL and a path make no double slash. -/
theorem normalizedUrl_getLast_ne : self.normalizedUrl.toList.getLast? ≠ some '/' := by
  rw [normalizedUrl, String.toList_ofList, List.getLast?_reverse]
  intro hSlash
  have hNot := List.head?_dropWhile_not (fun c => decide (c = '/')) self.url.toList.reverse
  rw [hSlash] at hNot
  simp at hNot

end BackendConfig

theorem MetricsConfig.path_cases {self : MetricsConfig} {enabled : Bool} {route : String × Route}
    (h : route ∈ self.routes enabled) :
    route.1 ∈ ["/health", "/v1/completions", "/v1/chat/completions"] ∨ route.1 = self.path := by
  cases enabled with
  | false => exact .inl (List.mem_map_of_mem (f := Prod.fst) h)
  | true =>
      rcases List.mem_append.mp h with hFixed | hMetrics
      · exact .inl (List.mem_map_of_mem (f := Prod.fst) hFixed)
      · exact .inr (congrArg Prod.fst (List.mem_singleton.mp hMetrics))

namespace RouterConfig.Accepted

variable {headerValue : String → Bool} {config : RouterConfig}

theorem routes_nodup (h : config.Accepted headerValue) (metricsEnabled : Bool) :
    ((config.metrics.routes metricsEnabled).map Prod.fst).Nodup := by
  have hFixed : ["/health", "/v1/completions", "/v1/chat/completions"].Nodup := by decide
  cases metricsEnabled with
  | false => exact hFixed
  | true =>
      have hPaths : (config.metrics.routes true).map Prod.fst =
          ["/health", "/v1/completions", "/v1/chat/completions"] ++ [config.metrics.path] := rfl
      rw [hPaths, List.nodup_append]
      refine ⟨hFixed, List.nodup_singleton _, ?_⟩
      intro path hMem other hOther
      rw [List.mem_singleton.mp hOther]
      exact fun hSame => h.metricsPath.2 (hSame ▸ hMem)

/-- Registering a path never meets a pattern of the web framework. -/
theorem routes_literal (h : config.Accepted headerValue) (metricsEnabled : Bool) :
    ∀ route ∈ config.metrics.routes metricsEnabled,
      startsWith route.1 "/" = true ∧ ∀ c ∈ route.1.toList, c ∉ [':', '*', '\x7b', '\x7d'] := by
  have hFixed : (["/health", "/v1/completions", "/v1/chat/completions"].all fun path =>
      startsWith path "/" && path.toList.all fun c => decide (c ∉ [':', '*', '\x7b', '\x7d'])) = true := by
    decide
  intro route hMem
  rcases MetricsConfig.path_cases hMem with hPath | hMetrics
  · have hRoute := List.all_eq_true.mp hFixed route.1 hPath
    rw [Bool.and_eq_true, List.all_eq_true] at hRoute
    exact ⟨hRoute.1, fun c hc => of_decide_eq_true (hRoute.2 c hc)⟩
  · rw [hMetrics]
    exact ⟨h.metricsPath.1, h.metricsLiteral⟩

theorem threshold_nonneg (h : config.Accepted headerValue) :
    0 ≤ config.circuitBreaker.failureRateThreshold.toRat := by
  have hRate := h.failureRateThreshold
  cases hValue : config.circuitBreaker.failureRateThreshold with
  | finite q =>
      simp only [hValue, outsideUnit, F64.isFinite, F64.le, Bool.not_true, Bool.false_or,
        Bool.or_eq_false_iff, decide_eq_false_iff_not, not_le] at hRate
      exact hRate.1.le
  | nan | inf | negInf => exact le_refl _

/-- The backends of a router that was just built are in service. -/
theorem inService_start (h : config.Accepted headerValue) (now : Nat) (id : BackendId) :
    ((Router.start config.backpressure.maxInFlight.toNat config.backpressure.maxInFlight.toNat_lt
      (config.backendAt now)).backends id).InService := by
  obtain ⟨url, weight, hEq, -⟩ := config.backendAt_eq now id
  simp only [Router.start, hEq]
  exact ⟨rfl, rfl, h.threshold_nonneg⟩

theorem tryAcquire_start (h : config.Accepted headerValue) (now : Nat) :
    (MeteredRouter.start config.backpressure.maxInFlight.toNat config.backpressure.maxInFlight.toNat_lt
      (config.backendAt now)).router.backpressure.tryAcquire.1 = some ⟨⟩ := by
  have hRoom : 0 < config.backpressure.maxInFlight.toNat := UInt64.le_iff_toNat_le.mp h.maxInFlight
  simp [MeteredRouter.start, Router.start, BackpressureController.new, BackpressureController.tryAcquire, hRoom]

/-- What the URLs of the pool are good for: a path behind them, and the header of
the response. -/
theorem url_backendAt (h : config.Accepted headerValue)
    (hPrefix : ∀ text whole : String, text.toList <+: whole.toList → headerValue whole = true →
      headerValue text = true) (now : Nat) {id : BackendId} (hId : id < config.backends.length) :
    headerValue (config.backendAt now id).url = true ∧ (config.backendAt now id).url.toList.getLast? ≠ some '/' := by
  obtain ⟨url, weight, hEq, hUrl⟩ := config.backendAt_eq now id
  have hFound : config.backends[id]? = some config.backends[id] := List.getElem?_eq_getElem hId
  have hSame : (config.backendAt now id).url = config.backends[id].normalizedUrl := by
    rw [hEq]
    exact hUrl _ hFound
  rw [hSame]
  exact ⟨hPrefix _ _ (BackendConfig.normalizedUrl_prefix _) (h.backends _ (List.getElem_mem hId)).2.2,
    BackendConfig.normalizedUrl_getLast_ne _⟩

end RouterConfig.Accepted

/-- Selections of a built router, at any time of its life among others that spare
its backends: the first pick of the strategy is admitted, and to a closed circuit. -/
theorem selectBackend_of_inService {numBackends : Nat} (hHonours : strategy.Honours numBackends)
    (hPool : ∀ b ∈ pool.backends, b < numBackends) (hNonempty : pool.backends ≠ [])
    (hService : s.InService) {result : Option (BackendId × Admission)}
    (exec : Selection.Execution strategy Spares (selectBackend pool incoming) s accesses result t) :
    ∃ b ∈ pool.backends, result = some (b, .normal) ∧ askedBreakers accesses = [b] := by
  obtain ⟨snapshot, middle, examination, rest, rfl, hExamine, hTry⟩ := exec.of_bind
  obtain ⟨found, depth, hExamination⟩ := examination_of_routable Framing.trivial hExamine
  have hMiddle := (inService_of_execution hExamine hService).1
  have hBefore := (inService_of_execution hTry hMiddle).2
  have hSnapshot : ∀ b ∈ snapshot, b ∈ pool.backends := fun b hMem => (hExamination.of_mem_snapshot hMem).1
  obtain ⟨b, hMem, hResult, hAsked⟩ := (attempts_of_tryCandidates hTry).first_of_inService hBefore hHonours
    (fun b hMem => hPool b (hSnapshot b hMem)) (snapshot_ne_nil_of_inService hExamine hService hNonempty)
  refine ⟨b, hSnapshot b hMem, hResult, ?_⟩
  rw [askedBreakers, List.filterMap_append, ← askedBreakers, ← askedBreakers,
    hExamination.askedBreakers_eq_nil, List.nil_append, hAsked]

/-- An accepted configuration gives a router that serves. It can be built if the
HTTP client can: every path is registered once and is no pattern, every backend URL can be sent as a
header and has no slash at its end, and there is room for a request. And at any
time of its life, as long as no health check marks a backend unhealthy and no
window holds as many failures as `threshold * min_requests`, a selection succeeds
at its first try, whatever the depths of the queues. -/
theorem accepted_config_serves [FloatArith F] (hashKey : Hasher) (headerValue : String → Bool)
    (hPrefix : ∀ text whole : String, text.toList <+: whole.toList → headerValue whole = true →
      headerValue text = true) (config : RouterConfig) (hAccepted : config.validate headerValue = .ok ())
    (buildClient : UpstreamConfig → Except String Unit) (hClient : buildClient config.upstream = .ok ())
    (metricsEnabled : Bool) (now : Nat) :
    ∃ app : App F, config.buildApp hashKey buildClient metricsEnabled now = .ok app ∧
      (app.routes.map Prod.fst).Nodup ∧
      (∀ route ∈ app.routes,
        startsWith route.1 "/" = true ∧ ∀ c ∈ route.1.toList, c ∉ [':', '*', '\x7b', '\x7d']) ∧
      (∀ b ∈ app.pool.backends,
        headerValue (app.state.url b) = true ∧ (app.state.url b).toList.getLast? ≠ some '/') ∧
      app.router.router.backpressure.tryAcquire.1 = some ⟨⟩ ∧
      ∀ labels s, Run Spares (app.shared now) labels s →
        ∀ incoming accesses result t,
          Selection.Execution app.strategy Spares (selectBackend app.pool incoming) s accesses result t →
          ∃ b ∈ app.pool.backends, result = some (b, .normal) ∧ askedBreakers accesses = [b] := by
  have h := RouterConfig.validate_eq_ok_iff.mp hAccepted
  obtain ⟨strategy, hBuilt⟩ := config.exists_buildStrategy (F := F) hashKey h.strategy
  refine ⟨_, (by simp only [RouterConfig.buildApp, hBuilt, hClient]; rfl), h.routes_nodup metricsEnabled, h.routes_literal metricsEnabled,
    fun b hMem => h.url_backendAt hPrefix now (List.mem_range.mp hMem), h.tryAcquire_start now, ?_⟩
  intro labels s run incoming accesses result t exec
  have hService : s.InService := run.invariant Shared.InService (fun _ _ _ hPrior hStep => hPrior.step hStep)
    fun b => h.inService_start now b
  refine selectBackend_of_inService (createStrategy_honours hBuilt) (fun b hMem => List.mem_range.mp hMem)
    ?_ hService exec
  exact fun hEmpty => h.nonempty (List.length_eq_zero_iff.mp (List.range_eq_nil.mp hEmpty))

/-- Blanks, tabs and whatever is visible, `HeaderValue::from_str` by characters. -/
def printable (text : String) : Bool :=
  text.toList.all fun c => (32 ≤ c.toNat && c.toNat ≠ 127) || c = '\t'

theorem printable_of_prefix {text whole : String} (h : text.toList <+: whole.toList) (hWhole : printable whole = true) :
    printable text = true :=
  List.all_eq_true.mpr fun c hc => List.all_eq_true.mp hWhole c (h.subset hc)

/-- The default settings, and a backend that has just failed once. -/
theorem accepted_config_serves_failure :
    ∃ app : App ℚ, (prefixConfig 256).buildApp keySize (fun _ => .ok ()) true 0 = .ok app ∧
      let s := (app.shared 0).interfere (.breaker 0 ⟨0, .recordFailure .normal⟩)
      (s.backends 0).breaker.recentFailures = 1 ∧
        ∀ incoming accesses result t,
          Selection.Execution app.strategy Spares (selectBackend app.pool incoming) s accesses result t →
          result ≠ none := by
  obtain ⟨app, hBuilt, -, -, -, -, hServes⟩ := accepted_config_serves (F := ℚ) keySize printable
    (fun _ _ => printable_of_prefix) (prefixConfig 256) (by decide +kernel) (fun _ => .ok ()) rfl true 0
  refine ⟨app, hBuilt, ?_⟩
  cases hBuilt
  have hOne : (((prefixConfig 256).backendAt 0 0).breaker.recordFailure .normal 0).recentFailures = 1 := by
    decide +kernel
  have hBudget : (((prefixConfig 256).backendAt 0 0).breaker.recordFailure .normal 0).WithinBudget := by
    rw [CircuitBreaker.WithinBudget, hOne]
    decide +kernel
  intro s
  refine ⟨hOne, fun incoming accesses result t exec hNone => ?_⟩
  obtain ⟨b, -, hResult, -⟩ := hServes [.breaker 0 ⟨0, .recordFailure .normal⟩] s
    (.cons ⟨rfl, fun _ => hBudget⟩ (.nil s)) incoming accesses result t exec
  rw [hNone] at hResult
  cases hResult

end InferenceRouter
