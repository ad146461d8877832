import InferenceRouter.Routing.ConfiguredAffinity
import InferenceRouter.Semantics.Ranking
import InferenceRouter.Server.SelectionSound

/-! Failover of prefix routing among concurrent requests. The ring ranks the pool
once for each prefix, and a selection walks down that ranking, over the backends
it found routable, until a breaker admits it. -/
namespace InferenceRouter

open Semantics Program

/-- The breaker that an operation asks for an admission. -/
def SelectionOp.asks : SelectionOp → Option BackendId
  | .tryBegin b => some b
  | _ => none

/-- The breakers that a selection asked for an admission, in order. -/
def askedBreakers {World : Type} (accesses : List (Access World SelectionOp.Answer)) : List BackendId :=
  accesses.filterMap fun access => access.op.asks

namespace PrefixCacheAware

variable {self : PrefixCacheAware} {key : String}

/-- The backend that the ring gives a prefix, of some candidates. -/
def choose (self : PrefixCacheAware) (key : String) (candidates : List BackendId) : Option BackendId :=
  self.ring.lookup (self.hashKey key.toUTF8) fun id => decide (id ∈ candidates)

/-- The backends of a pool in the order in which a prefix falls over to them. -/
def failoverOrder (self : PrefixCacheAware) (key : String) (pool : List BackendId) : List BackendId :=
  ranking (self.choose key) pool

theorem choose_consistent : Consistent (self.choose key) := by
  intro fewer more id hSub hId hChoice
  exact HashRing.lookup_of_subset (by simpa using fun id hFewer => hSub hFewer) hChoice (by simpa using hId)

theorem choose_decisive (hashKey : Hasher) (prefixTokenCount numBackends : Nat) (key : String) :
    Decisive ((new hashKey prefixTokenCount numBackends).choose key) (List.range numBackends) := by
  intro l hSub hNonempty
  obtain ⟨first, hFirst⟩ := List.exists_mem_of_ne_nil l hNonempty
  obtain ⟨point, hPoint, hId⟩ := (HashRing.exists_mem_points_new_iff hashKey numBackends
    defaultVnodes first).mpr ⟨List.mem_range.mp (hSub hFirst), by decide⟩
  have hSome : ((new hashKey prefixTokenCount numBackends).choose key l).isSome := by
    rw [choose, HashRing.lookup_isSome_iff]
    exact ⟨point, hPoint, decide_eq_true (hId ▸ hFirst)⟩
  obtain ⟨id, hChoice⟩ := Option.isSome_iff_exists.mp hSome
  exact ⟨id, of_decide_eq_true (HashRing.lookup_routable hChoice), hChoice⟩

/-- With a prefix, a selection reads nothing of its candidates but their ids. -/
theorem select_view {request : IncomingRequest} (hKey : self.extractPrefix request.body = key)
    (hPrefix : key ≠ "") {State : Type} (x : Shared State) (counters : BackendId → Counters)
    (candidates : List BackendId) :
    self.select request (x.view counters candidates) = self.choose key candidates := by
  rw [select_eq_lookup (hKey ▸ hPrefix), hKey, x.ids_view]
  rfl

end PrefixCacheAware

variable {F : Type} {strategy : RoutingStrategy F}
  {Steps : Shared strategy.State → Interference strategy.State → Shared strategy.State → Prop}
  {s t : Shared strategy.State} {incoming : IncomingRequest}
  {accesses : List (Access (Shared strategy.State) SelectionOp.Answer)}
  {candidates : List BackendId} {result : Option (BackendId × Admission)}

/-- The strategy answers a request by a fixed choice among ids. -/
def RoutingStrategy.Chooses (strategy : RoutingStrategy F) (incoming : IncomingRequest)
    (choose : List BackendId → Option BackendId) : Prop :=
  ∀ (x : Shared strategy.State) (draw : F) (counters : BackendId → Counters) (candidates : List BackendId),
    (strategy.select x.strategy incoming draw (x.view counters candidates)).1 = choose candidates

/-- The loop walks down the ranking of its candidates, and stops early only with
an admission. -/
theorem Attempts.walks (h : Attempts strategy Steps incoming candidates s accesses result t)
    {choose : List BackendId → Option BackendId} (hChooses : strategy.Chooses incoming choose)
    (hNodup : candidates.Nodup) (hDecisive : Decisive choose candidates) :
    ∃ rest, ranking choose candidates = askedBreakers accesses ++ rest ∧ (result = none → rest = []) ∧
      ∀ b adm, result = some (b, adm) → (askedBreakers accesses).getLast? = some b := by
  have hAnswer {x x' : Shared strategy.State} {l : List BackendId} {answer : Option BackendId}
      (hAsked : Performs strategy x (.select incoming l) answer x') : answer = choose l := by
    obtain ⟨draw, counters, hSelected⟩ := hAsked.select.1
    rw [hSelected, hChooses]
  induction h with
  | exhausted => exact ⟨[], rfl, fun _ => rfl, by simp⟩
  | declined nonempty _ hAsked =>
      obtain ⟨id, -, hChoice⟩ := hDecisive _ (List.Subset.refl _) nonempty
      rw [← hAnswer hAsked] at hChoice
      cases hChoice
  | outside nonempty _ hAsked notMem =>
      obtain ⟨id, hMem, hChoice⟩ := hDecisive _ (List.Subset.refl _) nonempty
      rw [← hAnswer hAsked, Option.some.injEq] at hChoice
      exact absurd (hChoice ▸ hMem) notMem
  | @admitted l _ _ _ _ _ _ _ id adm _ hAsked mem _ _ =>
      refine ⟨ranking choose (l.filter (· ≠ id)), ?_, by simp, ?_⟩
      · exact ranking_of_choice hNodup mem (hAnswer hAsked).symm
      · rintro b adm' hResult
        cases hResult
        rfl
  | @refused l _ _ _ _ _ _ _ _ id later _ _ hAsked mem _ _ _ ih =>
      have hSub : without l id ⊆ l := List.filter_sublist.subset
      obtain ⟨rest, hRanking, hNone, hLast⟩ :=
        ih (hNodup.filter _) fun l' hSub' => hDecisive l' (List.Subset.trans hSub' hSub)
      refine ⟨rest, ?_, hNone, fun b adm hResult => ?_⟩
      · rw [ranking_of_choice hNodup mem (hAnswer hAsked).symm]
        exact congrArg (id :: ·) hRanking
      · have hLater := hLast b adm hResult
        change (id :: askedBreakers later).getLast? = some b
        rw [List.getLast?_cons, hLater]
        rfl

/-- A snapshot is a part of the pool, in the order of the pool. -/
theorem BackendPool.exists_keep_of_routableWith (pool : BackendPool) (found : BackendId → Bool)
    (depth : BackendId → Nat) : ∃ keep, pool.routableWith found depth = pool.backends.filter keep := by
  rcases pool.routableWith_cases found depth with ⟨-, hAll⟩ | ⟨-, hUnder⟩
  · exact ⟨found, hAll⟩
  · rw [List.filter_filter] at hUnder
    exact ⟨_, hUnder⟩

theorem Examination.askedBreakers_eq_nil {pool : BackendPool}
    {Frame : BackendId → Shared strategy.State → Shared strategy.State → Prop} {snapshot : List BackendId}
    {found : BackendId → Bool} {depth : BackendId → Nat}
    (h : Examination pool Frame s accesses snapshot t found depth) : askedBreakers accesses = [] := by
  refine List.filterMap_eq_nil_iff.mpr fun access hMem => ?_
  have hAgrees := h.agrees access hMem
  obtain ⟨x, op, answer, y⟩ := access
  cases op with
  | tryBegin => exact hAgrees.elim
  | _ => rfl

/-- Every prefix has one order of failover over the pool. Among any steps of others,
a selection for it asks the backends it found routable in that order, and no more
of them than it must: it goes on only after a refusal, it returns the admission it
gets, and it gives up only after all of them have refused. -/
theorem selectBackend_failover (hashKey : Hasher) (prefixTokenCount numBackends maxQueueDepth : Nat)
    (key : String) (hPrefix : key ≠ "") :
    let self := PrefixCacheAware.new hashKey prefixTokenCount numBackends
    let pool := BackendPool.enumerate numBackends maxQueueDepth
    let order := self.failoverOrder key pool.backends
    order.Perm pool.backends ∧
    ∀ request, self.extractPrefix request.body = key →
      ∀ s accesses result t,
        Selection.Execution (self.strategy (F := F)) Interferes (selectBackend pool request) s accesses result t →
        ∃ examination attempts snapshot middle rest, accesses = examination ++ attempts ∧
          Selection.Execution self.strategy Interferes pool.routable s examination snapshot middle ∧
          order.filter (· ∈ snapshot) = askedBreakers accesses ++ rest ∧
          admissions accesses = result.toList ∧
          (result = none → rest = []) ∧
          ∀ b adm, result = some (b, adm) → (askedBreakers accesses).getLast? = some b := by
  intro self pool order
  have hDecisive : Decisive (self.choose key) pool.backends :=
    PrefixCacheAware.choose_decisive hashKey prefixTokenCount numBackends key
  refine ⟨ranking_perm hDecisive pool.nodup (List.Subset.refl _), ?_⟩
  intro request hKey s accesses result t exec
  obtain ⟨snapshot, middle, examination, attempts, rfl, hExamine, hTry⟩ := exec.of_bind
  obtain ⟨found, depth, hExamination⟩ := examination_of_routable Framing.trivial hExamine
  obtain ⟨keep, hKeep⟩ := pool.exists_keep_of_routableWith found depth
  rw [← hExamination.snapshot_eq] at hKeep
  have hAttempts := attempts_of_tryCandidates hTry
  have hChooses : (self.strategy (F := F)).Chooses request (self.choose key) :=
    fun x draw counters candidates => PrefixCacheAware.select_view hKey hPrefix x counters candidates
  have hNodup : snapshot.Nodup := hKeep ▸ pool.nodup.filter keep
  have hSub : snapshot ⊆ pool.backends := hKeep ▸ List.filter_sublist.subset
  obtain ⟨rest, hRanking, hNone, hLast⟩ :=
    hAttempts.walks hChooses hNodup fun l hSub' => hDecisive l (List.Subset.trans hSub' hSub)
  have hAsked : askedBreakers (examination ++ attempts) = askedBreakers attempts := by
    rw [askedBreakers, List.filterMap_append, ← askedBreakers, ← askedBreakers, hExamination.askedBreakers_eq_nil, List.nil_append]
  have hOrder : order.filter (· ∈ snapshot) = ranking (self.choose key) snapshot := by
    rw [hKeep, ranking_filter PrefixCacheAware.choose_consistent hDecisive pool.nodup (List.Subset.refl _)]
    refine List.filter_congr fun b hMem => ?_
    have hPool : b ∈ pool.backends :=
      (ranking_perm hDecisive pool.nodup (List.Subset.refl _)).subset hMem
    simp [hPool]
  have hAdmissions : admissions (examination ++ attempts) = result.toList := by
    rw [admissions, List.filterMap_append, ← admissions, ← admissions, hAttempts.admissions_eq,
      admissions, List.filterMap_eq_nil_iff.mpr hExamination.admits_nothing]
    rfl
  refine ⟨examination, attempts, snapshot, middle, rest, rfl, hExamine, ?_, hAdmissions, hNone, ?_⟩
  · rw [hOrder, hRanking, hAsked]
  · rw [hAsked]
    exact hLast

/-- A pool of three and the prefix "hello". -/
theorem selectBackend_failover_hello :
    let self := PrefixCacheAware.new keySize 256 3
    let pool := BackendPool.enumerate 3 50
    let order := self.failoverOrder "hello" pool.backends
    order.Perm [0, 1, 2] ∧
    ∀ s accesses result t,
      Selection.Execution (self.strategy (F := ℚ)) Interferes (selectBackend pool promptRequest) s accesses result t →
      result = none → ∃ snapshot : List BackendId, order.filter (· ∈ snapshot) = askedBreakers accesses := by
  intro self pool order
  obtain ⟨hOrder, hWalks⟩ := selectBackend_failover (F := ℚ) keySize 256 3 50 "hello" (by decide)
  refine ⟨hOrder, fun s accesses result t exec hNone => ?_⟩
  obtain ⟨-, -, snapshot, -, rest, -, -, hAsked, -, hEmpty, -⟩ :=
    hWalks promptRequest (by decide +kernel) s accesses result t exec
  exact ⟨snapshot, by rw [hAsked, hEmpty hNone, List.append_nil]⟩

end InferenceRouter
