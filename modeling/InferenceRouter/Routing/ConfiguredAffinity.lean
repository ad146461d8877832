import InferenceRouter.Config

/-! Whether the prefix routing of a configuration that was accepted has any
affinity. The limit on the prefix is computed in 64 bits, and with an empty
prefix the load decides. -/
namespace InferenceRouter

variable {F : Type}

/-- Two requests with one text, not empty, go to one backend of a routable set,
whatever else they are, and whatever the counters of the backends are then. -/
def RoutingStrategy.HasAffinity (self : RoutingStrategy F) (numBackends : Nat) : Prop :=
  ∀ (request request' : IncomingRequest) (these those : List Backend) (state state' : self.State)
    (draw draw' : F), requestText request.body ≠ "" → requestText request'.body = requestText request.body →
    these ≠ [] → (∀ id, id ∈ ids these ↔ id ∈ ids those) → (∀ b ∈ these, b.id < numBackends) →
      ∃ id, (self.select state request draw these).1 = some id ∧
        (self.select state' request' draw' those).1 = some id

/-- The prefix routing as a strategy object: nothing of it changes. -/
def PrefixCacheAware.strategy (self : PrefixCacheAware) : RoutingStrategy F :=
  ⟨Unit, (), fun state request _ routable => (self.select request routable, state)⟩

theorem buildStrategy_prefix_cache [FloatArith F] {hashKey : Hasher} {config : RouterConfig}
    (hStrategy : config.routing.strategy = "prefix_cache") {strategy : RoutingStrategy F}
    (hBuilt : config.buildStrategy hashKey = .ok strategy) :
    strategy = (PrefixCacheAware.new hashKey config.routing.prefixCache.prefixTokenCount.toNat
      config.backends.length).strategy := by
  simp only [RouterConfig.buildStrategy, hStrategy, createStrategy, Except.ok.injEq] at hBuilt
  exact hBuilt.symm

namespace PrefixCacheAware

variable {hashKey : Hasher} {count numBackends : Nat} {request request' : IncomingRequest}
  {these those : List Backend}

/-- With a prefix, the ring decides, and it knows nothing of the load. -/
theorem select_of_text (hLimit : 0 < (new hashKey count numBackends).prefixCharLimit)
    (hText : requestText request.body ≠ "") (hSame : requestText request'.body = requestText request.body)
    (hNonempty : these ≠ []) (hIds : ∀ id, id ∈ ids these ↔ id ∈ ids those)
    (hPool : ∀ b ∈ these, b.id < numBackends) :
    ∃ id, (new hashKey count numBackends).select request these = some id ∧
      (new hashKey count numBackends).select request' those = some id := by
  obtain ⟨b, _, hSelect⟩ := select_some hashKey count numBackends request hNonempty hPool
  refine ⟨b.id, hSelect, ?_⟩
  have hPrefix := extractPrefix_ne_empty hLimit hText
  have hPrefix' := extractPrefix_ne_empty hLimit (hSame ▸ hText)
  rw [select_eq_lookup hPrefix, extractPrefix_eq] at hSelect
  rw [select_eq_lookup hPrefix', extractPrefix_eq, hSame, ← hSelect]
  simp only [hIds]

/-- A pool of one backend leaves no choice. -/
theorem select_of_single (hNonempty : these ≠ []) (hPool : ∀ b ∈ these, b.id < 1) :
    (new hashKey count 1).select request these = some 0 := by
  obtain ⟨b, hMem, hSelect⟩ := select_some hashKey count 1 request hNonempty hPool
  rw [hSelect, Nat.lt_one_iff.mp (hPool b hMem)]

/-- Without a prefix, the load decides. -/
theorem select_of_no_limit (hNone : (new hashKey count numBackends).prefixCharLimit = 0)
    (request : IncomingRequest) {first : Backend} {rest : List Backend} :
    (new hashKey count numBackends).select request (first :: rest) =
      LeastConnections.select (first :: rest) := by
  simp [select, extractPrefix_eq_empty hNone, LeastConnections.select]

end PrefixCacheAware

def promptRequest : IncomingRequest :=
  ⟨"/v1/completions", some (.object [("prompt", .string "hello")])⟩

namespace PrefixCacheAware

variable {hashKey : Hasher} {count numBackends : Nat}

theorem hasAffinity_of_limit (hLimit : 0 < (new hashKey count numBackends).prefixCharLimit) :
    ((new hashKey count numBackends).strategy (F := F)).HasAffinity numBackends := by
  intro request request' these those _ _ _ _ hText hSame hNonempty hIds hPool
  exact select_of_text hLimit hText hSame hNonempty hIds hPool

theorem hasAffinity_of_single : ((new hashKey count 1).strategy (F := F)).HasAffinity 1 := by
  intro request request' these those _ _ _ _ _ _ hNonempty hIds hPool
  have hThose : those ≠ [] := by
    rintro rfl
    obtain ⟨b, hb⟩ := List.exists_mem_of_ne_nil these hNonempty
    exact List.not_mem_nil ((hIds b.id).mp (List.mem_map_of_mem hb))
  have hPool' : ∀ b ∈ those, b.id < 1 := by
    intro b hb
    obtain ⟨b', hb', hId⟩ := List.mem_map.mp ((hIds b.id).mpr (List.mem_map_of_mem hb))
    exact hId ▸ hPool b' hb'
  exact ⟨0, select_of_single hNonempty hPool, select_of_single hThose hPool'⟩

/-- Two backends that swap a connection: the prompt follows the load. -/
theorem not_hasAffinity [FloatArith F] (hNone : (new hashKey count numBackends).prefixCharLimit = 0)
    (hTwo : 1 < numBackends) :
    ¬((new hashKey count numBackends).strategy (F := F)).HasAffinity numBackends := by
  intro hAffinity
  have hPool : ∀ b ∈ [loaded 0 1, loaded 1 0], b.id < numBackends :=
    List.forall_mem_cons.mpr ⟨Nat.zero_lt_of_lt hTwo, List.forall_mem_singleton.mpr hTwo⟩
  obtain ⟨id, hThese, hThose⟩ := hAffinity promptRequest promptRequest [loaded 0 1, loaded 1 0]
    [loaded 0 0, loaded 1 1] () () FloatArith.zero FloatArith.zero (by decide +kernel) rfl (by simp) (fun _ => Iff.rfl) hPool
  simp only [strategy, select_of_no_limit hNone] at hThese hThose
  have hDiffer : LeastConnections.select [loaded 0 1, loaded 1 0] ≠
      LeastConnections.select [loaded 0 0, loaded 1 1] := by decide
  exact hDiffer (hThese.trans hThose.symm)

end PrefixCacheAware

/-- An accepted configuration with prefix routing has a limit of four characters
a token and affinity exactly if the limit fits into 64 bits and the token count
is not zero, or there is just one backend. -/
theorem configured_affinity_iff [FloatArith F] (hashKey : Hasher) (headerValue : String → Bool)
    (config : RouterConfig) (strategy : RoutingStrategy F) (hAccepted : config.validate headerValue = .ok ())
    (hStrategy : config.routing.strategy = "prefix_cache")
    (hBuilt : config.buildStrategy hashKey = .ok strategy) :
    ((PrefixCacheAware.new hashKey config.routing.prefixCache.prefixTokenCount.toNat
          config.backends.length).prefixCharLimit = 4 * config.routing.prefixCache.prefixTokenCount.toNat ∧
        strategy.HasAffinity config.backends.length) ↔
      4 * config.routing.prefixCache.prefixTokenCount.toNat < wordSize ∧
        (1 ≤ config.routing.prefixCache.prefixTokenCount.toNat ∨ config.backends.length = 1) := by
  have hBackends := (RouterConfig.validate_eq_ok_iff.mp hAccepted).nonempty
  obtain rfl := buildStrategy_prefix_cache hStrategy hBuilt
  have hSome : config.backends.length ≠ 0 := fun hZero => hBackends (List.length_eq_zero_iff.mp hZero)
  clear hBuilt hAccepted hBackends
  generalize config.backends.length = n at *
  generalize config.routing.prefixCache.prefixTokenCount.toNat = count at *
  have hLimit : (PrefixCacheAware.new hashKey count n).prefixCharLimit = count * 4 % wordSize := rfl
  constructor
  · rintro ⟨hExact, hAffinity⟩
    have hFits : 4 * count < wordSize := by
      rw [← hExact, hLimit]
      exact Nat.mod_lt _ (by decide)
    refine ⟨hFits, ?_⟩
    by_contra hNeither
    have hNone : (PrefixCacheAware.new hashKey count n).prefixCharLimit = 0 := by
      rw [hExact]
      omega
    exact PrefixCacheAware.not_hasAffinity hNone (by omega) hAffinity
  · rintro ⟨hFits, hCount⟩
    have hExact : (PrefixCacheAware.new hashKey count n).prefixCharLimit = 4 * count := by
      rw [hLimit, Nat.mul_comm, Nat.mod_eq_of_lt hFits]
    refine ⟨hExact, ?_⟩
    rcases hCount with hCount | rfl
    · exact PrefixCacheAware.hasAffinity_of_limit (by omega)
    · exact PrefixCacheAware.hasAffinity_of_single

/-- A pool of two with prefix routing and a given token count. -/
def prefixConfig (prefixTokenCount : UInt64) : RouterConfig where
  routing := { strategy := "prefix_cache", prefixCache := ⟨prefixTokenCount⟩ }
  backends := [⟨"http://a:8000", 1⟩, ⟨"http://b:8000", 1⟩]

/-- What the HTTP library takes for a header value: visible bytes, blanks and tabs. -/
def visible (text : String) : Bool :=
  text.toUTF8.data.all fun byte => (32 ≤ byte && byte ≠ 127) || byte = 9

def keySize : Hasher := fun key => ⟨key.size % wordSize, Nat.mod_lt _ (by decide)⟩

/-- The default token count. -/
theorem configured_affinity_iff_default :
    let prefixCache := PrefixCacheAware.new keySize 256 2
    prefixCache.prefixCharLimit = 1024 ∧ (prefixCache.strategy (F := ℚ)).HasAffinity 2 :=
  (configured_affinity_iff (F := ℚ) keySize visible (prefixConfig 256) _ (by decide +kernel) rfl rfl).mpr
    ⟨by decide, .inl (by decide)⟩

/-- A token count of 0 is accepted, and so is `2 ^ 62`, of which 4 characters each come
to `2 ^ 64`. The same prompt then goes where there is less to do. -/
theorem configured_affinity_lost :
    requestText promptRequest.body = "hello" ∧
      ∀ count ∈ [0, 4611686018427387904],
        let prefixCache := PrefixCacheAware.new keySize count.toNat 2
        (prefixConfig count).validate visible = .ok () ∧ prefixCache.prefixCharLimit = 0 ∧
          prefixCache.select promptRequest [loaded 0 1, loaded 1 0] = some 1 ∧
          prefixCache.select promptRequest [loaded 0 0, loaded 1 1] = some 0 := by
  refine ⟨by decide +kernel, List.forall_mem_cons.mpr ⟨?_, List.forall_mem_singleton.mpr ?_⟩⟩
  · decide +kernel
  · decide +kernel

end InferenceRouter
