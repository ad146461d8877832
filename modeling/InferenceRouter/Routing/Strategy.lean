import InferenceRouter.Routing.LatencyAware
import InferenceRouter.Routing.PrefixCache

/-! The routing strategies as the handler sees them: selectors behind one
interface, made by name. Each keeps at most a counter of its own. -/
namespace InferenceRouter

/-- A `RoutingStrategy` object; `State` is the part of it that `select` changes.
What it reads of the backends is in the list it is given, and a random draw comes
along for a strategy that wants one. -/
structure RoutingStrategy (F : Type) where
  State : Type
  start : State
  select : State → IncomingRequest → F → List Backend → Option BackendId × State

def LeastConnections.select (routable : List Backend) : Option BackendId :=
  (minByKey Backend.activeConnections routable).map Backend.id

/-- The sum is one of 64-bit numbers. -/
def loadOf (b : Backend) : Nat := (b.activeConnections + b.queueDepth) % wordSize

def LeastLoad.select (routable : List Backend) : Option BackendId :=
  (minByKey loadOf routable).map Backend.id

/-- Every strategy name `createStrategy` accepts. -/
def strategyNames : List String :=
  ["round_robin", "least_connections", "least_load", "latency_aware", "prefix_cache"]

variable {F : Type} [FloatArith F]

/-- `create_strategy`, for the hash function of the ring. -/
def createStrategy (hashKey : Hasher) (name : String) (prefixTokenCount numBackends : Nat) :
    Except String (RoutingStrategy F) :=
  match name with
  | "round_robin" => .ok ⟨RoundRobin, .new, fun state _ _ routable => state.select routable⟩
  | "least_connections" =>
      .ok ⟨Unit, (), fun state _ _ routable => (LeastConnections.select routable, state)⟩
  | "least_load" => .ok ⟨Unit, (), fun state _ _ routable => (LeastLoad.select routable, state)⟩
  | "latency_aware" => .ok ⟨LatencyAware, .new, fun state _ draw routable => state.select draw routable⟩
  | "prefix_cache" =>
      let self := PrefixCacheAware.new hashKey prefixTokenCount numBackends
      .ok ⟨Unit, (), fun state request _ routable => (self.select request routable, state)⟩
  | other => .error s!"unknown routing strategy {other.quote}"

/-- The contract of `select` on backends with ids below `numBackends`: some
backend of the list if there is one. -/
def RoutingStrategy.Honours (self : RoutingStrategy F) (numBackends : Nat) : Prop :=
  ∀ (state : self.State) (request : IncomingRequest) (draw : F) (routable : List Backend),
    routable ≠ [] → (∀ b ∈ routable, b.id < numBackends) →
      ∃ b ∈ routable, (self.select state request draw routable).1 = some b.id

theorem minByKey_some (key : Backend → Nat) {routable : List Backend} (h : routable ≠ []) :
    ∃ b ∈ routable, (minByKey key routable).map Backend.id = some b.id := by
  obtain ⟨b, hPicked, hLeast⟩ := minByKey_firstLeast key h
  exact ⟨b, hLeast.mem, by rw [hPicked]; rfl⟩

theorem RoundRobin.select_some (self : RoundRobin) {routable : List Backend} (h : routable ≠ []) :
    ∃ b ∈ routable, (self.select routable).1 = some b.id := by
  simp only [select, (totalWeight_pos h).ne', if_false]
  exact weightedPick_mod self.counter h

/-- Every strategy there is honours the contract, in any state and for any draw. -/
theorem createStrategy_honours {hashKey : Hasher} {name : String} {prefixTokenCount numBackends : Nat}
    {strategy : RoutingStrategy F}
    (h : createStrategy hashKey name prefixTokenCount numBackends = .ok strategy) :
    strategy.Honours numBackends := by
  intro state request draw routable hNonempty hPool
  unfold createStrategy at h
  split at h
  · cases h
    exact state.select_some hNonempty
  · cases h
    exact minByKey_some _ hNonempty
  · cases h
    exact minByKey_some _ hNonempty
  · cases h
    exact state.select_some draw hNonempty
  · cases h
    exact PrefixCacheAware.select_some hashKey prefixTokenCount numBackends request hNonempty hPool
  · cases h

/-- With nothing to choose from, nothing is chosen, and no counter moves. -/
theorem createStrategy_select_nil {hashKey : Hasher} {name : String} {prefixTokenCount numBackends : Nat}
    {strategy : RoutingStrategy F}
    (h : createStrategy hashKey name prefixTokenCount numBackends = .ok strategy)
    (state : strategy.State) (request : IncomingRequest) (draw : F) :
    strategy.select state request draw [] = (none, state) := by
  unfold createStrategy at h
  split at h
  · cases h
    rfl
  · cases h
    rfl
  · cases h
    rfl
  · cases h
    rfl
  · cases h
    rfl
  · cases h

/-- The list of names is right. -/
theorem createStrategy_isOk_iff (hashKey : Hasher) (name : String) (prefixTokenCount numBackends : Nat) :
    (createStrategy (F := F) hashKey name prefixTokenCount numBackends).toBool = true ↔
      name ∈ strategyNames := by
  unfold createStrategy
  split <;> simp_all [strategyNames, Except.toBool]

/-- A backend with a given number of connections. -/
def loaded (id : BackendId) (activeConnections : Nat) : Backend :=
  { Backend.new id "http://b" 1 (.new 0 (1 / 2) 5 60 30) with activeConnections }

/-- The contract, over a pool whose backends have their places as ids: a backend of the
list if there is one, and none if there is not. -/
theorem createStrategy_contract {hashKey : Hasher} {name : String} {prefixTokenCount numBackends : Nat}
    {strategy : RoutingStrategy F} (hBuilt : createStrategy hashKey name prefixTokenCount numBackends = .ok strategy)
    {pool : List Backend} (hPool : ids pool = List.range numBackends) {routable : List Backend}
    (hSub : routable ⊆ pool) (state : strategy.State) (request : IncomingRequest) (draw : F) :
    (routable = [] → (strategy.select state request draw routable).1 = none) ∧
      (routable ≠ [] → ∃ b ∈ routable, (strategy.select state request draw routable).1 = some b.id) := by
  constructor
  · rintro rfl
    rw [createStrategy_select_nil hBuilt]
  · intro hNonempty
    refine createStrategy_honours hBuilt state request draw routable hNonempty fun b hMem => ?_
    have hId : b.id ∈ ids pool := List.mem_map_of_mem (hSub hMem)
    rw [hPool] at hId
    exact List.mem_range.mp hId

/-- Round robin in a pool of two, with a counter that is about to wrap. -/
theorem createStrategy_contract_wrapping :
    let roundRobin : RoutingStrategy ℚ := ⟨RoundRobin, .new, fun state _ _ routable => state.select routable⟩
    let state : RoundRobin := ⟨wordSize - 1⟩
    let pool := [loaded 0 1, loaded 1 0]
    let request : IncomingRequest := ⟨"/v1/completions", none⟩
    (roundRobin.select state request 0 []).1 = none ∧
      ∃ b ∈ pool.reverse, (roundRobin.select state request 0 pool.reverse).1 = some b.id := by
  intro roundRobin state pool request
  have hBuilt : createStrategy (fun _ => ⟨0, by decide⟩) "round_robin" 256 2 = .ok roundRobin := rfl
  have hPool : ids pool = List.range 2 := rfl
  exact ⟨(createStrategy_contract hBuilt hPool (List.nil_subset _) state request 0).1 rfl,
    (createStrategy_contract hBuilt hPool (List.reverse_subset.mpr (List.Subset.refl _)) state request 0).2
      (by simp [pool])⟩

end InferenceRouter
