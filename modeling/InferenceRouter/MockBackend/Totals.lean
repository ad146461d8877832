import InferenceRouter.MockBackend.Slots

/-! The totals of the mock backend. They count its tasks, whatever order these run in,
and the prefix cache has been asked once for each of them. -/
namespace InferenceRouter.MockBackend

open Semantics

namespace Task

/-- The lookups of a task in the prefix cache. -/
def lookups : Task → Nat
  | .generating _ _ | .streaming _ | .finished (.answered _) | .finished (.aborted _) => 1
  | _ => 0

/-- Those that hit. -/
def hits : Task → Nat
  | .generating _ hit | .streaming hit | .finished (.answered hit) | .finished (.aborted hit) => hit.toNat
  | _ => 0

/-- The tokens of a task were counted. -/
def answers : Task → Nat
  | .streaming _ | .finished (.answered _) => 1
  | _ => 0

end Task

namespace Server

/-- The totals against the tasks. -/
structure Counted (prefixCacheSize : Int) (tokensPerRequest : Nat) (s : Server) : Prop where
  requests : s.totalRequests = sumOver Task.lookups s.tasks
  cache : ∃ history, s.prefixCache = .after prefixCacheSize history ∧ history.length = s.totalRequests
  hits : s.prefixCache.hits = sumOver Task.hits s.tasks
  prompt : s.totalPromptTokens = 10 * sumOver Task.answers s.tasks
  generation : s.totalGenerationTokens = tokensPerRequest * sumOver Task.answers s.tasks

variable {maxConcurrent i tokensPerRequest : Nat} {prefixCacheSize : Int} {self s next : Server}
  {req : CompletionRequest} {events : List Event} {event : Event}

theorem counted_new (maxConcurrent : Nat) (prefixCacheSize : Int) (tokensPerRequest : Nat) :
    Counted prefixCacheSize tokensPerRequest (new maxConcurrent prefixCacheSize) :=
  ⟨rfl, ⟨[], rfl, rfl⟩, rfl, rfl, rfl⟩

/-- The totals do not change, nor what the tasks count for. -/
theorem Counted.of_same (h : Counted prefixCacheSize tokensPerRequest self)
    (hRequests : next.totalRequests = self.totalRequests) (hCache : next.prefixCache = self.prefixCache)
    (hPrompt : next.totalPromptTokens = self.totalPromptTokens)
    (hGeneration : next.totalGenerationTokens = self.totalGenerationTokens)
    (hTasks : sumOver Task.lookups next.tasks = sumOver Task.lookups self.tasks ∧
      sumOver Task.hits next.tasks = sumOver Task.hits self.tasks ∧
      sumOver Task.answers next.tasks = sumOver Task.answers self.tasks) :
    Counted prefixCacheSize tokensPerRequest next := by
  obtain ⟨hLookups, hHits, hAnswers⟩ := hTasks
  refine ⟨?_, ?_, ?_, ?_, ?_⟩
  · rw [hRequests, hLookups, h.requests]
  · rw [hCache, hRequests]
    exact h.cache
  · rw [hCache, hHits, h.hits]
  · rw [hPrompt, hAnswers, h.prompt]
  · rw [hGeneration, hAnswers, h.generation]

/-- A task moves to one that counts for the same. -/
theorem sumOver_set_same {tasks : List Task} {before : Task} (hTask : tasks[i]? = some before) (after : Task)
    (hLookups : after.lookups = before.lookups) (hHits : after.hits = before.hits)
    (hAnswers : after.answers = before.answers) :
    sumOver Task.lookups (tasks.set i after) = sumOver Task.lookups tasks ∧
      sumOver Task.hits (tasks.set i after) = sumOver Task.hits tasks ∧
      sumOver Task.answers (tasks.set i after) = sumOver Task.answers tasks := by
  have hSumLookups := sumOver_set Task.lookups hTask after
  have hSumHits := sumOver_set Task.hits hTask after
  have hSumAnswers := sumOver_set Task.answers hTask after
  omega

theorem Counted.start (h : Counted prefixCacheSize tokensPerRequest self)
    (hTask : self.tasks[i]? = some (.waiting req)) (fails : Bool) :
    Counted prefixCacheSize tokensPerRequest (self.start i req fails) := by
  unfold Server.start
  split
  · exact h.of_same rfl rfl rfl rfl (sumOver_set_same hTask (.finished .failed) rfl rfl rfl)
  · obtain ⟨hit, hHit⟩ : ∃ hit, (self.prefixCache.lookup (prefixKey req)).1 = hit := ⟨_, rfl⟩
    obtain ⟨hIs, -, hHits⟩ := self.prefixCache.lookup_counts (prefixKey req)
    have hNew : (if prefixKey req ∈ self.prefixCache.entries then 1 else 0) = hit.toNat := by
      rw [← hHit, hIs]
      split <;> simp [*]
    have hSumLookups := sumOver_set Task.lookups hTask (.generating req hit)
    have hSumHits := sumOver_set Task.hits hTask (.generating req hit)
    have hSumAnswers := sumOver_set Task.answers hTask (.generating req hit)
    simp only [Task.lookups, Task.hits, Task.answers, Nat.add_zero] at hSumLookups hSumHits hSumAnswers
    obtain ⟨hRequests, ⟨history, hCache, hLength⟩, hOldHits, hPrompt, hGeneration⟩ := h
    dsimp only
    rw [hHit]
    refine ⟨?_, ⟨history ++ [prefixKey req], ?_, ?_⟩, ?_, ?_, ?_⟩
    · rw [hSumLookups, hRequests]
    · rw [PrefixCache.after_concat, hCache]
    · rw [List.length_append, List.length_singleton, hLength]
    · rw [hHits, hNew, hOldHits, hSumHits]
    · rw [hSumAnswers, hPrompt]
    · rw [hSumAnswers, hGeneration]

theorem Counted.respond (h : Counted prefixCacheSize tokensPerRequest self) {hit : Bool}
    (hTask : self.tasks[i]? = some (.generating req hit)) :
    Counted prefixCacheSize tokensPerRequest (self.respond tokensPerRequest i req hit) := by
  have hEnds (after : Task) (hLookups : after.lookups = 1) (hHits : after.hits = hit.toNat)
      (hAnswers : after.answers = 1) (gate : Gate) :
      Counted prefixCacheSize tokensPerRequest
        ⟨gate, self.prefixCache, self.totalRequests, self.totalPromptTokens + 10,
          self.totalGenerationTokens + tokensPerRequest, self.tasks.set i after⟩ := by
    have hSumLookups := sumOver_set Task.lookups hTask after
    have hSumHits := sumOver_set Task.hits hTask after
    have hSumAnswers := sumOver_set Task.answers hTask after
    rw [hLookups] at hSumLookups
    rw [hHits] at hSumHits
    rw [hAnswers] at hSumAnswers
    simp only [Task.lookups, Task.hits, Task.answers, Nat.add_zero, Nat.add_right_cancel_iff]
      at hSumLookups hSumHits hSumAnswers
    obtain ⟨hRequests, hCache, hOldHits, hPrompt, hGeneration⟩ := h
    refine ⟨?_, hCache, ?_, ?_, ?_⟩
    · rw [hSumLookups, hRequests]
    · rw [hSumHits, hOldHits]
    · rw [hSumAnswers, Nat.mul_succ, hPrompt]
    · rw [hSumAnswers, Nat.mul_succ, hGeneration]
  unfold Server.respond
  dsimp only
  split
  · exact hEnds (.streaming hit) rfl rfl rfl self.gate
  · exact hEnds (.finished (.answered hit)) rfl rfl rfl self.gate.release

theorem Counted.transition (h : Counted prefixCacheSize tokensPerRequest self)
    (hNext : Transition tokensPerRequest self event next) : Counted prefixCacheSize tokensPerRequest next := by
  have hJoins (req : CompletionRequest) (gate : Gate) : Counted prefixCacheSize tokensPerRequest
      { self with gate, tasks := self.tasks ++ [.waiting req] } :=
    h.of_same rfl rfl rfl rfl (by simp [Task.lookups, Task.hits, Task.answers])
  have hGate (gate : Gate) : Counted prefixCacheSize tokensPerRequest { self with gate } :=
    h.of_same rfl rfl rfl rfl ⟨rfl, rfl, rfl⟩
  cases hNext with
  | admitted req fails hFree => exact (hJoins req _).start List.getElem?_concat_length fails
  | enqueued req fails hLocked => exact hJoins req _
  | resumed i fails hTask hGranted => exact (hGate (self.gate.resume i)).start hTask fails
  | cancelled i hTask => exact hGate _
  | left i hTask hAnswered => exact h.of_same rfl rfl rfl rfl (sumOver_set_same hTask _ rfl rfl rfl)
  | aborted i hTask => exact h.of_same rfl rfl rfl rfl (sumOver_set_same hTask _ rfl rfl rfl)
  | responded i hTask => exact h.respond hTask
  | closed i hTask => exact h.of_same rfl rfl rfl rfl (sumOver_set_same hTask _ rfl rfl rfl)

/-- The totals of one state are reached before those of the other. -/
structure TotalsLe (s t : Server) : Prop where
  requests : s.totalRequests ≤ t.totalRequests
  hits : s.prefixCache.hits ≤ t.prefixCache.hits
  queries : s.prefixCache.queries ≤ t.prefixCache.queries
  prompt : s.totalPromptTokens ≤ t.totalPromptTokens
  generation : s.totalGenerationTokens ≤ t.totalGenerationTokens

theorem TotalsLe.of_same {t : Server} (hRequests : t.totalRequests = s.totalRequests)
    (hCache : t.prefixCache = s.prefixCache) (hPrompt : t.totalPromptTokens = s.totalPromptTokens)
    (hGeneration : t.totalGenerationTokens = s.totalGenerationTokens) : TotalsLe s t :=
  ⟨hRequests.ge, hCache ▸ le_rfl, hCache ▸ le_rfl, hPrompt.ge, hGeneration.ge⟩

theorem TotalsLe.trans {t : Server} (h : TotalsLe self s) (h' : TotalsLe s t) : TotalsLe self t :=
  ⟨h.requests.trans h'.requests, h.hits.trans h'.hits, h.queries.trans h'.queries, h.prompt.trans h'.prompt,
    h.generation.trans h'.generation⟩

theorem totalsLe_start (self : Server) (i : Nat) (req : CompletionRequest) (fails : Bool) :
    TotalsLe self (self.start i req fails) := by
  obtain ⟨-, hQueries, hHits⟩ := self.prefixCache.lookup_counts (prefixKey req)
  unfold Server.start
  split
  · exact .of_same rfl rfl rfl rfl
  · exact ⟨Nat.le_succ _, hHits ▸ Nat.le_add_right _ _, hQueries ▸ Nat.le_succ _, le_rfl, le_rfl⟩

theorem totalsLe_respond (self : Server) (i : Nat) (req : CompletionRequest) (hit : Bool) :
    TotalsLe self (self.respond tokensPerRequest i req hit) := by
  unfold Server.respond
  dsimp only
  split
  · exact ⟨le_rfl, le_rfl, le_rfl, Nat.le_add_right _ _, Nat.le_add_right _ _⟩
  · exact ⟨le_rfl, le_rfl, le_rfl, Nat.le_add_right _ _, Nat.le_add_right _ _⟩

theorem Transition.totalsLe (hNext : Transition tokensPerRequest self event next) : TotalsLe self next := by
  cases hNext with
  | admitted req fails hFree =>
      have hJoined : TotalsLe self (self.enter req) := .of_same rfl rfl rfl rfl
      exact hJoined.trans (totalsLe_start _ _ req fails)
  | enqueued req fails hLocked => exact .of_same rfl rfl rfl rfl
  | resumed i fails hTask hGranted =>
      have hResumed : TotalsLe self { self with gate := self.gate.resume i } := .of_same rfl rfl rfl rfl
      exact hResumed.trans (totalsLe_start _ i _ fails)
  | cancelled i hTask => exact .of_same rfl rfl rfl rfl
  | left i hTask hAnswered => exact .of_same rfl rfl rfl rfl
  | aborted i hTask => exact .of_same rfl rfl rfl rfl
  | responded i hTask => exact totalsLe_respond self i _ _
  | closed i hTask => exact .of_same rfl rfl rfl rfl

/-- What the mock counts is what its tasks did: the prefix cache was asked once for each
request that got past the gate and was not failed, its hits are theirs, tokens are
counted for each of them that was answered, and no total ever decreases. -/
theorem totals_exact (run : Run (Step tokensPerRequest) (new maxConcurrent prefixCacheSize) events s) :
    s.prefixCache.queries = sumOver Task.lookups s.tasks ∧ s.totalRequests = s.prefixCache.queries ∧
    s.prefixCache.hits = sumOver Task.hits s.tasks ∧
    s.totalPromptTokens = 10 * sumOver Task.answers s.tasks ∧
    s.totalGenerationTokens = tokensPerRequest * sumOver Task.answers s.tasks ∧
    (∃ history, s.prefixCache = .after prefixCacheSize history) ∧
    ∀ later t, Run (Step tokensPerRequest) s later t → TotalsLe s t := by
  have hCounted : Counted prefixCacheSize tokensPerRequest s :=
    run.invariant _ (fun _ _ _ h hStep => h.transition hStep.transition)
      (counted_new maxConcurrent prefixCacheSize tokensPerRequest)
  obtain ⟨hRequests, ⟨history, hCache, hLength⟩, hHits, hPrompt, hGeneration⟩ := hCounted
  have hQueries : s.prefixCache.queries = s.totalRequests := by
    rw [hCache, PrefixCache.queries_after, hLength]
  refine ⟨hQueries.trans hRequests, hQueries.symm, hHits, hPrompt, hGeneration, ⟨history, hCache⟩, ?_⟩
  intro later t laterRun
  exact laterRun.invariant (TotalsLe s) (fun _ _ _ h hStep => h.trans hStep.transition.totalsLe)
    (.of_same rfl rfl rfl rfl)

/-- The cache has been asked for some keys, and the requests that wait may ask for more. -/
structure Asked (prefixCacheSize : Int) (keys : Set String) (s : Server) : Prop where
  cache : ∃ history, s.prefixCache = .after prefixCacheSize history ∧ ∀ key ∈ history, key ∈ keys
  waiting : ∀ req, .waiting req ∈ s.tasks → prefixKey req ∈ keys

section Asked

variable {keys : Set String}

theorem Asked.of_tasks (h : Asked prefixCacheSize keys self) (hCache : next.prefixCache = self.prefixCache)
    (hTasks : ∀ req, .waiting req ∈ next.tasks → .waiting req ∈ self.tasks ∨ prefixKey req ∈ keys) :
    Asked prefixCacheSize keys next := by
  refine ⟨?_, fun req hMem => ?_⟩
  · rw [hCache]
    exact h.cache
  · rcases hTasks req hMem with hOld | hNew
    · exact h.waiting req hOld
    · exact hNew

theorem waiting_of_set {tasks : List Task} {after : Task} (hAfter : after.isWaiting = false)
    (hMem : .waiting req ∈ tasks.set i after) : .waiting req ∈ tasks := by
  rcases List.mem_or_eq_of_mem_set hMem with hOld | hNew
  · exact hOld
  · rw [← hNew] at hAfter
    cases hAfter

theorem Asked.start (h : Asked prefixCacheSize keys self) (hTask : self.tasks[i]? = some (.waiting req))
    (fails : Bool) : Asked prefixCacheSize keys (self.start i req fails) := by
  unfold Server.start
  split
  · exact h.of_tasks rfl fun _ hMem => .inl (waiting_of_set rfl hMem)
  · obtain ⟨⟨history, hCache, hKeys⟩, hWaiting⟩ := h
    refine ⟨⟨history ++ [prefixKey req], ?_, fun key hKey => ?_⟩, fun _ hMem => hWaiting _ (waiting_of_set rfl hMem)⟩
    · rw [PrefixCache.after_concat, hCache]
    · rcases List.mem_append.mp hKey with hOld | hNew
      · exact hKeys key hOld
      · rw [List.mem_singleton.mp hNew]
        exact hWaiting req (List.mem_of_getElem? hTask)

theorem Asked.respond (h : Asked prefixCacheSize keys self) (i : Nat) (req : CompletionRequest) (hit : Bool) :
    Asked prefixCacheSize keys (self.respond tokensPerRequest i req hit) := by
  unfold Server.respond
  dsimp only
  split
  · exact h.of_tasks rfl fun _ hMem => .inl (waiting_of_set rfl hMem)
  · exact h.of_tasks rfl fun _ hMem => .inl (waiting_of_set rfl hMem)

/-- Only an arrival brings a key that may be new. -/
theorem Asked.transition (h : Asked prefixCacheSize keys self)
    (hNext : Transition tokensPerRequest self event next)
    (hArrival : ∀ req fails, event = .arrive req fails → prefixKey req ∈ keys) : Asked prefixCacheSize keys next := by
  have hJoins (req : CompletionRequest) (gate : Gate) (hKey : prefixKey req ∈ keys) :
      Asked prefixCacheSize keys { self with gate, tasks := self.tasks ++ [.waiting req] } := by
    refine h.of_tasks rfl fun req' hMem => ?_
    rcases List.mem_append.mp hMem with hOld | hNew
    · exact .inl hOld
    · rw [List.mem_singleton, Task.waiting.injEq] at hNew
      exact .inr (hNew ▸ hKey)
  have hGate (gate : Gate) : Asked prefixCacheSize keys { self with gate } := h.of_tasks rfl fun _ => .inl
  cases hNext with
  | admitted req fails hFree => exact (hJoins req _ (hArrival req fails rfl)).start List.getElem?_concat_length fails
  | enqueued req fails hLocked => exact hJoins req _ (hArrival req fails rfl)
  | resumed i fails hTask hGranted => exact (hGate (self.gate.resume i)).start hTask fails
  | cancelled i hTask => exact hGate _
  | left i hTask hAnswered => exact h.of_tasks rfl fun _ hMem => .inl (waiting_of_set rfl hMem)
  | aborted i hTask => exact h.of_tasks rfl fun _ hMem => .inl (waiting_of_set rfl hMem)
  | responded i hTask => exact h.respond i _ _
  | closed i hTask => exact h.of_tasks rfl fun _ hMem => .inl (waiting_of_set rfl hMem)

end Asked

/-- The cache has only been asked for keys of requests that came. -/
theorem cache_of_arrivals (run : Run (Step tokensPerRequest) (new maxConcurrent prefixCacheSize) events s) :
    ∃ history, s.prefixCache = .after prefixCacheSize history ∧
      ∀ key ∈ history, ∃ req fails, .arrive req fails ∈ events ∧ key = prefixKey req := by
  have hAsked : Asked prefixCacheSize {key | ∃ req fails, .arrive req fails ∈ events ∧ key = prefixKey req} s := by
    refine run.invariant_of_mem _ (fun s event hEvent t h hStep => h.transition hStep.transition ?_)
      ⟨⟨[], rfl, by simp⟩, by simp [new]⟩
    rintro req fails rfl
    exact ⟨req, fails, hEvent, rfl⟩
  exact hAsked.cache

theorem totals_exact_oneSlot :
    let s := afterEvents oneSlot rfl
    s.prefixCache.queries = 2 ∧ s.prefixCache.hits = 1 ∧ s.totalGenerationTokens = 40 := by
  intro s
  have run : Run (Step 20) (new 1 256) oneSlot s := run_afterEvents _
  obtain ⟨hQueries, -, hHits, -, hGeneration, -⟩ := totals_exact run
  have hTasks : s.tasks = [.finished (.answered false), .finished .cancelled, .finished (.answered true)] := by
    decide +kernel
  rw [hQueries, hHits, hGeneration, hTasks]
  decide

end Server

end InferenceRouter.MockBackend
