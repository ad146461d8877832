import InferenceRouter.F64
import InferenceRouter.Routing.Strategy

/-! The configuration, what is checked of it, and what is built from it. The
defaults are those of the file format. Sections and fields that nothing here
reads are left out. -/
namespace InferenceRouter

structure LatencyAwareConfig where
  /-- EWMA smoothing factor in (0, 1]. -/
  alpha : F64 := .finite (3 / 10)

structure PrefixCacheConfig where
  prefixTokenCount : UInt64 := 256

structure RoutingConfig where
  strategy : String := "round_robin"
  prefixCache : PrefixCacheConfig := {}
  latencyAware : LatencyAwareConfig := {}

structure BackendConfig where
  url : String
  weight : UInt32 := 1

/-- Timeouts for requests to backends. -/
structure UpstreamConfig where
  connectTimeoutSecs : UInt64 := 10
  readTimeoutSecs : UInt64 := 120

structure HealthCheckConfig where
  intervalSecs : UInt64 := 5
  unhealthyThreshold : UInt32 := 3
  healthyThreshold : UInt32 := 2

structure CircuitBreakerConfig where
  failureRateThreshold : F64 := .finite (1 / 2)
  minRequests : UInt64 := 5
  windowSecs : UInt64 := 60
  openDurationSecs : UInt64 := 30

structure BackpressureConfig where
  maxInFlight : UInt64 := 1000
  maxBackendQueueDepth : UInt64 := 50

structure MetricsConfig where
  path : String := "/metrics"

structure RouterConfig where
  routing : RoutingConfig
  backends : List BackendConfig
  healthCheck : HealthCheckConfig := {}
  circuitBreaker : CircuitBreakerConfig := {}
  backpressure : BackpressureConfig := {}
  metrics : MetricsConfig := {}
  upstream : UpstreamConfig := {}

/-- Upper bound for `circuit_breaker.window_secs` (one hour). -/
def maxWindowSecs : UInt64 := 3600

/-- `if bad { return Err(message) }`. -/
def reject (bad : Bool) (message : String) : Except String Unit :=
  if bad then .error message else .ok ()

theorem reject_bind_eq_ok_iff {bad : Bool} {message : String} {next : Except String Unit} :
    (reject bad message >>= fun _ => next) = .ok () ↔ bad = false ∧ next = .ok () := by
  cases bad <;> simp [reject, bind, Except.bind]

theorem reject_eq_ok_iff {bad : Bool} {message : String} :
    reject bad message = .ok () ↔ bad = false := by
  cases bad <;> simp [reject]

/-- Not a number in (0, 1]. -/
def outsideUnit (value : F64) : Bool :=
  !value.isFinite || value.le (.finite 0) || F64.lt (.finite 1) value

/-- `str::starts_with`. -/
def startsWith (text start : String) : Bool := start.toList.isPrefixOf text.toList

namespace BackendConfig

/-- The URL without trailing `/`. -/
def normalizedUrl (self : BackendConfig) : String :=
  String.ofList (self.url.toList.reverse.dropWhile (· = '/')).reverse

/-- The checks of one backend. Whether a URL can be a header value is up to the
HTTP library. -/
def validate (headerValue : String → Bool) (self : BackendConfig) : Except String Unit := do
  let url := self.url
  reject (self.weight < 1)
    s!"backend {url} has weight 0: set weight >= 1; to drain a backend remove it from the list"
  let schemeOk := startsWith url "http://" || startsWith url "https://"
  let quoted := url.quote
  reject (!schemeOk || !headerValue url)
    s!"backend url {quoted} must start with http:// or https:// and contain no control characters"

end BackendConfig

theorem forM_eq_ok_iff {α : Type} {check : α → Except String Unit} {l : List α} :
    l.forM check = .ok () ↔ ∀ a ∈ l, check a = .ok () := by
  induction l with
  | nil => simp [pure, Except.pure]
  | cons a l ih =>
      have hFirst : (a :: l).forM check = (check a >>= fun _ => l.forM check) := rfl
      rw [hFirst, List.forall_mem_cons, ← ih]
      cases check a <;> simp [bind, Except.bind]

theorem BackendConfig.validate_eq_ok_iff {headerValue : String → Bool} {self : BackendConfig} :
    self.validate headerValue = .ok () ↔ 1 ≤ self.weight ∧
      (startsWith self.url "http://" = true ∨ startsWith self.url "https://" = true) ∧
      headerValue self.url = true := by
  simp only [validate, reject_bind_eq_ok_iff, reject_eq_ok_iff, decide_eq_false_iff_not, UInt32.not_lt,
    Bool.or_eq_false_iff, Bool.not_eq_false', Bool.or_eq_true]

/-- The breaker that is built at `now`. A threshold that was accepted is a number. -/
def CircuitBreaker.fromConfig (now : Nat) (config : CircuitBreakerConfig) : CircuitBreaker :=
  .new now config.failureRateThreshold.toRat config.minRequests.toNat config.windowSecs.toNat
    config.openDurationSecs.toNat

namespace RouterConfig

/-- Reject configs that would misbehave at runtime instead of failing at startup. -/
def validate (headerValue : String → Bool) (self : RouterConfig) : Except String Unit := do
  let alpha := self.routing.latencyAware.alpha
  let alphaText := alpha.display
  reject (outsideUnit alpha) s!"routing.latency_aware.alpha must be in (0, 1], got {alphaText}"
  let rate := self.circuitBreaker.failureRateThreshold
  let rateText := rate.display
  reject (outsideUnit rate) s!"circuit_breaker.failure_rate_threshold must be in (0, 1], got {rateText}"
  let strategy := self.routing.strategy
  let names := ", ".intercalate strategyNames
  let quoted := strategy.quote
  reject (!strategyNames.contains strategy) s!"routing.strategy must be one of {names}, got {quoted}"
  reject (self.healthCheck.intervalSecs < 1) "health_check.interval_secs must be >= 1"
  let window := self.circuitBreaker.windowSecs
  reject (!(1 ≤ window && window ≤ maxWindowSecs))
    s!"circuit_breaker.window_secs must be in 1..={maxWindowSecs}, got {window}"
  reject (self.circuitBreaker.minRequests < 1) "circuit_breaker.min_requests must be >= 1"
  reject (self.backpressure.maxInFlight < 1) "backpressure.max_in_flight must be >= 1"
  let path := self.metrics.path
  let pathText := path.quote
  reject (!startsWith path "/" || ["/health", "/v1/completions", "/v1/chat/completions"].contains path)
    s!"metrics.path must start with '/' and not collide with a router route, got {pathText}"
  reject (path.toList.any [':', '*', '\x7b', '\x7d'].contains)
    s!"metrics.path must be a literal path without ':', '*', '\x7b' or '\x7d', got {pathText}"
  reject (self.upstream.connectTimeoutSecs < 1) "upstream.connect_timeout_secs must be >= 1"
  reject (self.upstream.readTimeoutSecs < 1) "upstream.read_timeout_secs must be >= 1"
  reject self.backends.isEmpty "backends must not be empty"
  self.backends.forM (BackendConfig.validate headerValue)

/-- What is known of a configuration that passed the checks. -/
structure Accepted (headerValue : String → Bool) (config : RouterConfig) : Prop where
  alpha : outsideUnit config.routing.latencyAware.alpha = false
  failureRateThreshold : outsideUnit config.circuitBreaker.failureRateThreshold = false
  strategy : config.routing.strategy ∈ strategyNames
  intervalSecs : 1 ≤ config.healthCheck.intervalSecs
  windowSecs : 1 ≤ config.circuitBreaker.windowSecs ∧ config.circuitBreaker.windowSecs ≤ maxWindowSecs
  minRequests : 1 ≤ config.circuitBreaker.minRequests
  maxInFlight : 1 ≤ config.backpressure.maxInFlight
  metricsPath : startsWith config.metrics.path "/" = true ∧
    config.metrics.path ∉ ["/health", "/v1/completions", "/v1/chat/completions"]
  metricsLiteral : ∀ c ∈ config.metrics.path.toList, c ∉ [':', '*', '\x7b', '\x7d']
  connectTimeoutSecs : 1 ≤ config.upstream.connectTimeoutSecs
  readTimeoutSecs : 1 ≤ config.upstream.readTimeoutSecs
  nonempty : config.backends ≠ []
  backends : ∀ b ∈ config.backends, 1 ≤ b.weight ∧
    (startsWith b.url "http://" = true ∨ startsWith b.url "https://" = true) ∧ headerValue b.url = true

theorem validate_eq_ok_iff {headerValue : String → Bool} {self : RouterConfig} :
    self.validate headerValue = .ok () ↔ self.Accepted headerValue := by
  simp only [validate, reject_bind_eq_ok_iff, forM_eq_ok_iff, BackendConfig.validate_eq_ok_iff,
    decide_eq_false_iff_not, UInt64.not_lt, Bool.not_eq_false', Bool.and_eq_true, decide_eq_true_eq,
    Bool.or_eq_false_iff, List.contains_eq_mem, decide_eq_true_eq, List.any_eq_false,
    List.isEmpty_eq_false_iff]
  constructor
  · rintro ⟨hAlpha, hRate, hStrategy, hInterval, hWindow, hMin, hFlight, hPath, hLiteral, hConnect, hRead,
      hNonempty, hBackends⟩
    exact ⟨hAlpha, hRate, hStrategy, hInterval, hWindow, hMin, hFlight, hPath, hLiteral, hConnect, hRead,
      hNonempty, hBackends⟩
  · intro h
    exact ⟨h.alpha, h.failureRateThreshold, h.strategy, h.intervalSecs, h.windowSecs, h.minRequests,
      h.maxInFlight, h.metricsPath, h.metricsLiteral, h.connectTimeoutSecs, h.readTimeoutSecs, h.nonempty,
      h.backends⟩

/-- The defaults pass every check: only the backends of such a file are looked at. -/
theorem accepted_of_defaults {headerValue : String → Bool} {backends : List BackendConfig}
    (hNonempty : backends ≠ []) (hBackends : ∀ b ∈ backends, b.validate headerValue = .ok ()) :
    Accepted headerValue { routing := {}, backends } where
  alpha := (by decide +kernel : outsideUnit (.finite (3 / 10)) = false)
  failureRateThreshold := (by decide +kernel : outsideUnit (.finite (1 / 2)) = false)
  strategy := (by decide : "round_robin" ∈ strategyNames)
  intervalSecs := (by decide : (1 : UInt64) ≤ 5)
  windowSecs := (by decide : (1 : UInt64) ≤ 60 ∧ 60 ≤ maxWindowSecs)
  minRequests := (by decide : (1 : UInt64) ≤ 5)
  maxInFlight := (by decide : (1 : UInt64) ≤ 1000)
  metricsPath := (by decide : startsWith "/metrics" "/" = true ∧
    "/metrics" ∉ ["/health", "/v1/completions", "/v1/chat/completions"])
  metricsLiteral c hc := by
    have hLiteral : ("/metrics".toList.all fun c => decide (c ∉ [':', '*', '\x7b', '\x7d'])) = true := by decide
    exact of_decide_eq_true (List.all_eq_true.mp hLiteral c hc)
  connectTimeoutSecs := (by decide : (1 : UInt64) ≤ 10)
  readTimeoutSecs := (by decide : (1 : UInt64) ≤ 120)
  nonempty := hNonempty
  backends b hb := BackendConfig.validate_eq_ok_iff.mp (hBackends b hb)

/-- The backends of the pool, each with its place in the configuration for an id. -/
def buildBackends (now : Nat) (self : RouterConfig) : List Backend :=
  self.backends.zipIdx.map fun (backend, i) =>
    .new i backend.normalizedUrl backend.weight.toNat (.fromConfig now self.circuitBreaker)

/-- The strategy, for the hash function of the ring. -/
def buildStrategy {F : Type} [FloatArith F] (hashKey : Hasher) (self : RouterConfig) :
    Except String (RoutingStrategy F) :=
  createStrategy hashKey self.routing.strategy self.routing.prefixCache.prefixTokenCount.toNat
    self.backends.length

end RouterConfig

end InferenceRouter
