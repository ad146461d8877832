import InferenceRouter.Benchmark.LoadTest
import InferenceRouter.MockBackend.Totals
import InferenceRouter.Routing.PrefixCache
import Mathlib.Algebra.Order.BigOperators.Group.Finset

/-! The load generator, the router and the mock backends together. Routing by prefix
keeps requests with one text on one backend, so each text misses a cache once. -/
namespace InferenceRouter

open Semantics

namespace BenchmarkConfig

variable (config : BenchmarkConfig)

def text (variant : Nat) (prompt : String) : String := config.system variant ++ " " ++ prompt

/-- The texts that the load generator can send. -/
def texts : Finset String :=
  (Finset.range config.variants ×ˢ config.promptPool.toFinset).image fun (variant, prompt) =>
    config.text variant prompt

theorem card_texts_le : config.texts.card ≤ config.variants * config.promptPool.length := by
  refine Finset.card_image_le.trans ?_
  rw [Finset.card_product, Finset.card_range]
  exact Nat.mul_le_mul_left _ (List.toFinset_card_le _)

theorem requestText_body (variant : Nat) (prompt : String) :
    requestText (some (config.body variant prompt)) = config.text variant prompt := by
  simp [requestText, body, text, Json.get, Json.asArray, Json.asStr, contentText, List.lookup_cons]

theorem text_ne_empty (variant : Nat) (prompt : String) : config.text variant prompt ≠ "" := by
  intro hEmpty
  have hLength := congrArg (fun s : String => s.toList.length) hEmpty
  simp [text] at hLength

end BenchmarkConfig

namespace MockBackend

namespace CompletionRequest

def parseMessage (message : Json) : Option ChatMessage := do
  let role ← (message.get "role").bind Json.asStr
  let content ← (message.get "content").bind Json.asStr
  some ⟨role, content⟩

/-- A request body, with the defaults of the fields that it leaves out. -/
def parse (body : Json) : Option CompletionRequest := do
  let prompt ←
    match body.get "prompt" with
    | none | some .null => some none
    | some prompt => prompt.asStr.map some
  let messages ←
    match body.get "messages" with
    | none | some .null => some none
    | some messages => (messages.asArray.bind fun messages => messages.mapM parseMessage).map some
  let stream ←
    match body.get "stream" with
    | none => some false
    | some (.bool stream) => some stream
    | some _ => none
  some { prompt, messages, stream }

variable (config : BenchmarkConfig)

theorem parse_body (variant : Nat) (prompt : String) :
    parse (config.body variant prompt) =
      some ⟨none, some [⟨"system", config.system variant⟩, ⟨"user", prompt⟩], config.stream⟩ := by
  simp [parse, parseMessage, BenchmarkConfig.body, Json.get, Json.asArray, Json.asStr, List.lookup_cons]

/-- The mock keys its cache by the beginning of the same text. -/
theorem prefixKey_of_parse {variant : Nat} {prompt : String} {req : CompletionRequest}
    (h : parse (config.body variant prompt) = some req) :
    prefixKey req = String.ofList ((config.text variant prompt).toList.take prefixKeyChars) := by
  rw [parse_body, Option.some.injEq] at h
  subst h
  simp [prefixKey, BenchmarkConfig.text]

end CompletionRequest

/-- The router sends a body to a backend of a pool that is routable as a whole; the
counters of the backends are whatever they are. -/
def Routed (strategy : PrefixCacheAware) (pool : List BackendId) (body : Json) (backend : BackendId) : Prop :=
  ∃ request routable, request.body = some body ∧ (∀ id, id ∈ ids routable ↔ id ∈ pool) ∧
    strategy.select request routable = some backend

section Locality

variable {config : BenchmarkConfig} {strategy : PrefixCacheAware} {pool : List BackendId}

/-- One text, one backend. -/
theorem Routed.unique {variant variant' : Nat} {prompt prompt' : String} {backend backend' : BackendId}
    (hLimit : 0 < strategy.prefixCharLimit) (hText : config.text variant prompt = config.text variant' prompt')
    (h : Routed strategy pool (config.body variant prompt) backend)
    (h' : Routed strategy pool (config.body variant' prompt') backend') : backend = backend' := by
  obtain ⟨request, routable, hBody, hIds, hSelect⟩ := h
  obtain ⟨request', routable', hBody', hIds', hSelect'⟩ := h'
  have hPrefix : strategy.extractPrefix request.body ≠ "" := by
    rw [hBody]
    refine PrefixCacheAware.extractPrefix_ne_empty hLimit ?_
    rw [config.requestText_body]
    exact config.text_ne_empty variant prompt
  have hSame : strategy.extractPrefix request'.body = strategy.extractPrefix request.body := by
    rw [hBody, hBody', strategy.extractPrefix_eq, strategy.extractPrefix_eq, config.requestText_body,
      config.requestText_body, hText]
  have hBoth := PrefixCacheAware.select_congr hPrefix hSame fun id => (hIds' id).trans (hIds id).symm
  rw [hSelect, hSelect'] at hBoth
  exact (Option.some.inj hBoth).symm

open Classical in
/-- The texts that go to a backend. -/
noncomputable def textsAt (config : BenchmarkConfig) (strategy : PrefixCacheAware) (pool : List BackendId)
    (backend : BackendId) : Finset String :=
  config.texts.filter fun text =>
    ∃ variant prompt, text = config.text variant prompt ∧ Routed strategy pool (config.body variant prompt) backend

theorem mem_textsAt_iff {backend : BackendId} {text : String} : text ∈ textsAt config strategy pool backend ↔
    text ∈ config.texts ∧ ∃ variant prompt, text = config.text variant prompt ∧
      Routed strategy pool (config.body variant prompt) backend := by
  classical
  exact Finset.mem_filter

theorem textsAt_subset (backend : BackendId) : textsAt config strategy pool backend ⊆ config.texts :=
  fun _ hMem => (mem_textsAt_iff.mp hMem).1

theorem sum_card_textsAt_le (hLimit : 0 < strategy.prefixCharLimit) (backends : Finset BackendId) :
    ∑ b ∈ backends, (textsAt config strategy pool b).card ≤ config.texts.card := by
  have hDisjoint : (backends : Set BackendId).PairwiseDisjoint (textsAt config strategy pool) := by
    intro b _ b' _ hNe
    rw [Function.onFun, Finset.disjoint_left]
    intro text hText hText'
    obtain ⟨variant, prompt, rfl, hRouted⟩ := (mem_textsAt_iff.mp hText).2
    obtain ⟨variant', prompt', hSame, hRouted'⟩ := (mem_textsAt_iff.mp hText').2
    exact hNe (hRouted.unique hLimit hSame hRouted')
  rw [← Finset.card_biUnion hDisjoint]
  refine Finset.card_le_card fun text hText => ?_
  obtain ⟨b, -, hMem⟩ := Finset.mem_biUnion.mp hText
  exact textsAt_subset b hMem

/-- A backend whose requests all come from the load generator by way of the router. -/
def Fed (config : BenchmarkConfig) (strategy : PrefixCacheAware) (pool : List BackendId) (backend : BackendId)
    (events : List Event) : Prop :=
  ∀ req fails, .arrive req fails ∈ events → ∃ variant < config.variants, ∃ prompt ∈ config.promptPool,
    CompletionRequest.parse (config.body variant prompt) = some req ∧
      Routed strategy pool (config.body variant prompt) backend

theorem card_history_le {backend : BackendId} {events : List Event} {history : List String}
    (hFed : Fed config strategy pool backend events)
    (hHistory : ∀ key ∈ history, ∃ req fails, .arrive req fails ∈ events ∧ key = prefixKey req) :
    history.toFinset.card ≤ (textsAt config strategy pool backend).card := by
  have hSub : history.toFinset ⊆ (textsAt config strategy pool backend).image fun text =>
      String.ofList (text.toList.take prefixKeyChars) := by
    intro key hKey
    obtain ⟨req, fails, hArrived, rfl⟩ := hHistory key (List.mem_toFinset.mp hKey)
    obtain ⟨variant, hVariant, prompt, hPrompt, hParse, hRouted⟩ := hFed req fails hArrived
    refine Finset.mem_image.mpr ⟨config.text variant prompt, mem_textsAt_iff.mpr ⟨?_, variant, prompt, rfl, hRouted⟩,
      (CompletionRequest.prefixKey_of_parse config hParse).symm⟩
    refine Finset.mem_image.mpr ⟨(variant, prompt), ?_, rfl⟩
    exact Finset.mem_product.mpr ⟨Finset.mem_range.mpr hVariant, List.mem_toFinset.mpr hPrompt⟩
  exact (Finset.card_le_card hSub).trans Finset.card_image_le

/-- Locality. However many requests are sent and however many mock backends serve them,
in whatever order and with whatever failures, the lookups that miss are at most the
texts that can be sent, if one cache has room for as many. -/
theorem misses_le_texts (hLimit : 0 < strategy.prefixCharLimit) {prefixCacheSize : Int}
    (hRoom : config.texts.card ≤ prefixCacheSize) {maxConcurrent tokensPerRequest : Nat}
    {events : BackendId → List Event} {mocks : BackendId → Server}
    (runs : ∀ b, Run (Server.Step tokensPerRequest) (.new maxConcurrent prefixCacheSize) (events b) (mocks b))
    (hFed : ∀ b, Fed config strategy pool b (events b)) (backends : Finset BackendId) :
    ∑ b ∈ backends, (mocks b).prefixCache.queries ≤
      ∑ b ∈ backends, (mocks b).prefixCache.hits + config.texts.card := by
  have hBackend (b : BackendId) : (mocks b).prefixCache.queries ≤
      (mocks b).prefixCache.hits + (textsAt config strategy pool b).card := by
    obtain ⟨history, hCache, hHistory⟩ := Server.cache_of_arrivals (runs b)
    have hCard := card_history_le (hFed b) hHistory
    have hAll : (textsAt config strategy pool b).card ≤ config.texts.card := Finset.card_le_card (textsAt_subset b)
    have hMisses : Lru.misses prefixCacheSize.toNat history = history.toFinset.card :=
      Lru.misses_of_card_le (by omega)
    have hLookups := PrefixCache.hits_add_misses prefixCacheSize history
    rw [hCache, PrefixCache.queries_after]
    omega
  calc ∑ b ∈ backends, (mocks b).prefixCache.queries
      ≤ ∑ b ∈ backends, ((mocks b).prefixCache.hits + (textsAt config strategy pool b).card) :=
        Finset.sum_le_sum fun b _ => hBackend b
    _ = ∑ b ∈ backends, (mocks b).prefixCache.hits + ∑ b ∈ backends, (textsAt config strategy pool b).card :=
        Finset.sum_add_distrib
    _ ≤ _ := Nat.add_le_add_left (sum_card_textsAt_le hLimit backends) _

end Locality

/-- Two requests with one text. They go to one of two backends, and the second hits. -/
theorem misses_le_texts_hello :
    let config : BenchmarkConfig := ⟨1, 2, 0, 0, "prefix_cache", false, 0, ["hello"]⟩
    let req : CompletionRequest := ⟨none, some [⟨"system", config.system 0⟩, ⟨"user", "hello"⟩], false⟩
    let twice := ([Event.arrive req false, .arrive req false].foldlM (Server.act 20) (.new 8 256)).get (by decide +kernel)
    ∃ backend : BackendId, ∑ b ∈ {backend, backend + 1}, (if b = backend then twice else .new 8 256).prefixCache.queries ≤
      ∑ b ∈ {backend, backend + 1}, (if b = backend then twice else .new 8 256).prefixCache.hits + 1 := by
  intro config req twice
  let hashKey : Hasher := fun key => ⟨key.size % wordSize, Nat.mod_lt _ (by decide)⟩
  let strategy : PrefixCacheAware := .new hashKey 256 2
  let backend (id : BackendId) : Backend := .new id "http://b" 1 (.new 0 (1 / 2) 10 10 30)
  let request : IncomingRequest := ⟨"/v1/chat/completions", some (config.body 0 "hello")⟩
  obtain ⟨b, -, hSelect⟩ := PrefixCacheAware.select_some hashKey 256 2 request
    (List.cons_ne_nil (backend 0) [backend 1]) (by simp [backend, Backend.new])
  have hRouted : Routed strategy [0, 1] (config.body 0 "hello") b.id :=
    ⟨request, [backend 0, backend 1], rfl, fun id => by simp [ids, backend, Backend.new], hSelect⟩
  let events (b' : BackendId) : List Event := if b' = b.id then [.arrive req false, .arrive req false] else []
  have runs (b' : BackendId) : Run (Server.Step 20) (.new 8 256) (events b') (if b' = b.id then twice else .new 8 256) := by
    dsimp only [events]
    split
    · exact .of_foldlM (Option.some_get _).symm
    · exact .nil _
  have hFed (b' : BackendId) : Fed config strategy [0, 1] b' (events b') := by
    intro req' fails hMem
    dsimp only [events] at hMem
    split at hMem
    · rename_i hSame
      have hReq : req' = req := by
        simp only [List.mem_cons, List.not_mem_nil, or_false, Event.arrive.injEq, or_self] at hMem
        exact hMem.1
      exact ⟨0, by decide, "hello", by simp [config], hReq ▸ CompletionRequest.parse_body config 0 "hello", hSame ▸ hRouted⟩
    · cases hMem
  have hTexts : config.texts.card ≤ 1 := config.card_texts_le
  have hRoom : (config.texts.card : ℤ) ≤ 256 := by omega
  exact ⟨b.id, (misses_le_texts (by decide) hRoom runs hFed {b.id, b.id + 1}).trans (Nat.add_le_add_left hTexts _)⟩

end MockBackend

end InferenceRouter
