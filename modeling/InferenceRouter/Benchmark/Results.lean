import InferenceRouter.Benchmark.LoadTest

/-! The results of the load generator. Whatever order its tasks run in and whenever the
main task looks at them, each result is collected once, and none is made up. -/
namespace InferenceRouter.LoadTest

open Semantics

/-- The tasks that the main task still has in hand. -/
def Main.pool : Main → Option (List Nat)
  | .looping pool | .waiting pool | .draining pool | .gathering pool => some pool
  | .collecting | .returned | .raised => none

/-- The tasks whose results were collected, in this order, and the others. -/
structure Split (tasks : List Task) (results : List RequestResult) (collected rest : List Nat) : Prop where
  perm : (collected ++ rest).Perm (List.range tasks.length)
  results : collected.map (tasks[·]?) = results.map fun result => some (.returned result)

variable {config : BenchmarkConfig} {tasks : List Task} {results : List RequestResult}
  {collected rest pool order : List Nat} {i : Nat}

theorem Split.returned_of_mem (h : Split tasks results collected rest) (hMem : i ∈ collected) :
    ∃ result, tasks[i]? = some (.returned result) := by
  have hImage : tasks[i]? ∈ collected.map (tasks[·]?) := List.mem_map_of_mem hMem
  rw [h.results] at hImage
  obtain ⟨result, -, hResult⟩ := List.mem_map.mp hImage
  exact ⟨result, hResult.symm⟩

/-- A task that is not done goes on. -/
theorem Split.set (h : Split tasks results collected rest) {before : Task} (hTask : tasks[i]? = some before)
    (hOpen : before.isDone = false) (after : Task) : Split (tasks.set i after) results collected rest := by
  refine ⟨?_, ?_⟩
  · rw [List.length_set]
    exact h.perm
  · rw [← h.results]
    refine List.map_congr_left fun j hMem => List.getElem?_set_ne ?_
    rintro rfl
    obtain ⟨result, hResult⟩ := h.returned_of_mem hMem
    cases hTask.symm.trans hResult
    cases hOpen

theorem Split.spawn (h : Split tasks results collected pool) :
    Split (spawn (pool, tasks)).2 results collected (spawn (pool, tasks)).1 := by
  refine ⟨?_, ?_⟩
  · rw [LoadTest.spawn, List.length_append, List.length_singleton, List.range_succ, ← List.append_assoc]
    exact h.perm.append_right _
  · rw [← h.results]
    refine List.map_congr_left fun j hMem => List.getElem?_append_left ?_
    obtain ⟨result, hResult⟩ := h.returned_of_mem hMem
    exact (List.getElem?_eq_some_iff.mp hResult).1

theorem Split.topUp (h : Split tasks results collected pool) (target : Nat) :
    Split (topUp target pool tasks).2 results collected (topUp target pool tasks).1 := by
  unfold LoadTest.topUp
  induction target - pool.length with
  | zero => exact h
  | succ n ih =>
      rw [Function.iterate_succ_apply']
      exact ih.spawn

/-- The pool is filled up to its target, and not beyond. -/
theorem length_topUp (target : Nat) (pool : List Nat) (tasks : List Task) :
    (topUp target pool tasks).1.length = max target pool.length := by
  have hIterate (n : Nat) : (spawn^[n] (pool, tasks)).1.length = pool.length + n := by
    induction n with
    | zero => rfl
    | succ n ih =>
        rw [Function.iterate_succ_apply', spawn, List.length_append, ih]
        rfl
  rw [topUp, hIterate]
  omega

theorem map_of_mapM_result {done : List RequestResult}
    (h : order.mapM (fun i => tasks[i]?.bind Task.result?) = some done) :
    order.map (tasks[·]?) = done.map fun result => some (.returned result) := by
  induction order generalizing done with
  | nil =>
      cases h
      rfl
  | cons i order ih =>
      rw [List.mapM_cons] at h
      obtain ⟨result, hFirst, hLater⟩ := Option.bind_eq_some_iff.mp h
      obtain ⟨later, hRest, hDone⟩ := Option.bind_eq_some_iff.mp hLater
      obtain ⟨task, hTask, hResult⟩ := Option.bind_eq_some_iff.mp hFirst
      cases hDone
      have hIs : task = .returned result := by
        cases task <;> simp_all [Task.result?]
      rw [List.map_cons, List.map_cons, ih hRest, hTask, hIs]

theorem Split.collect (h : Split tasks results collected pool) {done : List RequestResult} (isDone : Nat → Bool)
    (hOrder : order.Perm (pool.filter isDone))
    (hDone : order.mapM (fun i => tasks[i]?.bind Task.result?) = some done) :
    Split tasks (results ++ done) (collected ++ order) (pool.filter fun i => !isDone i) := by
  refine ⟨?_, ?_⟩
  · rw [List.append_assoc]
    refine (List.Perm.append_left collected ?_).trans h.perm
    exact (hOrder.append_right _).trans (List.filter_append_perm isDone pool)
  · rw [List.map_append, List.map_append, h.results, map_of_mapM_result hDone]

/-- What is known in the loop for a duration. -/
structure Timed (config : BenchmarkConfig) (s : LoadTest) (collected rest : List Nat) : Prop where
  split : Split s.tasks s.results collected rest
  bound : rest.length ≤ config.concurrency
  pool : ∀ pool, s.main.pool = some pool → rest = pool
  loops : s.main ≠ .collecting
  finished : s.main = .returned → ∀ i ∈ rest, s.isDone i = true

variable {s t : LoadTest}

/-- A task that is not done goes on, and the main task does not see it. -/
theorem Timed.set (h : Timed config s collected rest) {before after : Task} (hTask : s.tasks[i]? = some before)
    (hOpen : before.isDone = false) (hTasks : t.tasks = s.tasks.set i after) (hResults : t.results = s.results)
    (hMain : t.main = s.main) : Timed config t collected rest := by
  refine ⟨?_, h.bound, hMain ▸ h.pool, hMain ▸ h.loops, fun hReturned j hMem => ?_⟩
  · rw [hTasks, hResults]
    exact h.split.set hTask hOpen after
  · have hDone := h.finished (hMain ▸ hReturned) j hMem
    have hOther : i ≠ j := by
      rintro rfl
      rw [isDone, hTask, Option.any_some, hOpen] at hDone
      cases hDone
    rw [isDone, hTasks, List.getElem?_set_ne hOther]
    exact hDone

/-- Nothing changes that the results depend on. -/
theorem Timed.congr (h : Timed config s collected rest) (hTasks : t.tasks = s.tasks) (hResults : t.results = s.results)
    (hMain : t.main = s.main) : Timed config t collected rest := by
  refine ⟨?_, h.bound, hMain ▸ h.pool, hMain ▸ h.loops, fun hReturned => ?_⟩
  · rw [hTasks, hResults]
    exact h.split
  · simp only [isDone, hTasks]
    exact h.finished (hMain ▸ hReturned)

/-- A slot brings a task to where it asks for a token, or past that. -/
theorem enter_cases (s : LoadTest) (i : Nat) :
    ∃ after : Task, after.isDone = false ∧ (s.enter i).tasks = s.tasks.set i after ∧
      (s.enter i).results = s.results ∧ (s.enter i).main = s.main := by
  unfold enter
  split
  · exact ⟨.posting, rfl, rfl, rfl, rfl⟩
  · rename_i limiter hLimiter
    cases hAcquired : (limiter.tokens.acquire i).1 with
    | true => exact ⟨.posting, rfl, by simp [hAcquired], rfl, rfl⟩
    | false => exact ⟨.limited, rfl, by simp [hAcquired], rfl, rfl⟩

theorem collect_eq {collectedState : LoadTest} (h : s.collect order = some collectedState) :
    ∃ done, order.mapM (fun i => s.tasks[i]?.bind Task.result?) = some done ∧
      collectedState = { s with results := s.results ++ done } := by
  obtain ⟨done, hDone, hNext⟩ := Option.bind_eq_some_iff.mp h
  exact ⟨done, hDone, (Option.some.inj hNext).symm⟩

theorem Timed.transition (h : Timed config s collected rest) (hNext : Transition config s t) :
    ∃ collected' rest', Timed config t collected' rest' := by
  cases hNext with
  | raised i hTask => exact ⟨_, _, h.set hTask rfl rfl rfl rfl⟩
  | admitted i hTask hFree =>
      obtain ⟨after, -, hTasks, hResults, hMain⟩ :=
        enter_cases { s with semaphore := (s.semaphore.acquire i).2 } i
      exact ⟨_, _, h.set hTask rfl hTasks hResults hMain⟩
  | queued i hTask hLocked => exact ⟨_, _, h.set hTask rfl rfl rfl rfl⟩
  | resumed i hTask hGranted =>
      obtain ⟨after, -, hTasks, hResults, hMain⟩ := enter_cases { s with semaphore := s.semaphore.resume i } i
      exact ⟨_, _, h.set hTask rfl hTasks hResults hMain⟩
  | sent i hLimiter hTask hGranted => exact ⟨_, _, h.set hTask rfl rfl rfl rfl⟩
  | answered i result hTask => exact ⟨_, _, h.set hTask rfl rfl rfl rfl⟩
  | droppedNew i hTask => exact ⟨_, _, h.set hTask rfl rfl rfl rfl⟩
  | droppedQueued i hTask hAnswered => exact ⟨_, _, h.set hTask rfl rfl rfl rfl⟩
  | droppedLimited i hLimiter hTask hAnswered => exact ⟨_, _, h.set hTask rfl rfl rfl rfl⟩
  | droppedPosting i hTask => exact ⟨_, _, h.set hTask rfl rfl rfl rfl⟩
  | refilled sleep hLimiter => exact ⟨_, _, h.congr rfl rfl rfl⟩
  | expired hMain =>
      rename_i pool
      obtain rfl : rest = pool := h.pool pool (by rw [hMain]; rfl)
      refine ⟨collected, rest, h.split, h.bound, ?_, ?_, ?_⟩
      · intro pool hPool
        split at hPool
        · cases hPool
        · exact Option.some.inj hPool
      · dsimp only
        split <;> exact Main.noConfusion
      · intro hReturned i hMem
        split at hReturned
        · rename_i hEmpty
          rw [hEmpty] at hMem
          cases hMem
        · cases hReturned
  | toppedUp hMain =>
      rename_i pool
      obtain rfl : rest = pool := h.pool pool (by rw [hMain]; rfl)
      refine ⟨collected, _, h.split.topUp config.concurrency, ?_, ?_, ?_, ?_⟩
      · rw [length_topUp]
        exact max_le le_rfl h.bound
      · intro pool hPool
        split at hPool
        · cases hPool
        · exact Option.some.inj hPool
      · dsimp only
        split <;> exact Main.noConfusion
      · intro hReturned
        split at hReturned <;> cases hReturned
  | failed => exact ⟨collected, rest, h.split, h.bound, fun _ => nofun, Main.noConfusion, Main.noConfusion⟩
  | waited hMain hOrder hCollected =>
      rename_i pool order collectedState
      obtain rfl : rest = pool := h.pool pool (by rw [hMain]; rfl)
      obtain ⟨done, hDone, rfl⟩ := collect_eq hCollected
      exact ⟨collected ++ order, _, h.split.collect s.isDone hOrder hDone, (List.length_filter_le ..).trans h.bound,
        fun pool hPool => Option.some.inj hPool, Main.noConfusion, Main.noConfusion⟩
  | drained hMain hOrder hCollected =>
      rename_i pool order collectedState
      obtain rfl : rest = pool := h.pool pool (by rw [hMain]; rfl)
      obtain ⟨done, hDone, rfl⟩ := collect_eq hCollected
      exact ⟨collected ++ order, _, h.split.collect s.isDone hOrder hDone, (List.length_filter_le ..).trans h.bound,
        fun pool hPool => Option.some.inj hPool, Main.noConfusion, Main.noConfusion⟩
  | gathered hMain hDone =>
      rename_i pending
      obtain rfl : rest = pending := h.pool pending (by rw [hMain]; rfl)
      exact ⟨collected, rest, h.split, h.bound, fun _ => nofun, Main.noConfusion, fun _ => List.all_eq_true.mp hDone⟩
  | finished hMain hResults => exact absurd hMain h.loops

/-- What is known while a fixed number of requests is sent. -/
structure Counted (config : BenchmarkConfig) (s : LoadTest) : Prop where
  length : s.tasks.length = config.totalRequests
  main : s.main = .collecting ∨ s.main = .raised ∨
    s.main = .returned ∧ s.tasks = s.results.map Task.returned

theorem Counted.set (h : Counted config s) {before after : Task} (hTask : s.tasks[i]? = some before)
    (hOpen : before.isDone = false) (hTasks : t.tasks = s.tasks.set i after) (hMain : t.main = s.main) :
    Counted config t := by
  refine ⟨?_, ?_⟩
  · rw [hTasks, List.length_set]
    exact h.length
  · rw [hMain]
    obtain hCollecting | hRaised | ⟨hReturned, hAll⟩ := h.main
    · exact .inl hCollecting
    · exact .inr (.inl hRaised)
    · have hMem := List.mem_of_getElem? hTask
      rw [hAll] at hMem
      obtain ⟨result, -, rfl⟩ := List.mem_map.mp hMem
      cases hOpen

theorem eq_map_of_mapM_result (h : tasks.mapM Task.result? = some results) : tasks = results.map Task.returned := by
  induction tasks generalizing results with
  | nil =>
      cases h
      rfl
  | cons task tasks ih =>
      rw [List.mapM_cons] at h
      obtain ⟨result, hFirst, hLater⟩ := Option.bind_eq_some_iff.mp h
      obtain ⟨later, hRest, hAll⟩ := Option.bind_eq_some_iff.mp hLater
      cases hAll
      have hIs : task = .returned result := by
        cases task <;> simp_all [Task.result?]
      rw [List.map_cons, ← ih hRest, hIs]

theorem Counted.transition (h : Counted config s) (hNext : Transition config s t) : Counted config t := by
  have hNoPool (main : Main) (hMain : s.main = main) : main.pool = none := by
    rw [← hMain]
    obtain hIs | hIs | ⟨hIs, -⟩ := h.main <;> rw [hIs] <;> rfl
  cases hNext with
  | raised i hTask => exact h.set hTask rfl rfl rfl
  | admitted i hTask hFree =>
      obtain ⟨after, -, hTasks, -, hMain⟩ := enter_cases { s with semaphore := (s.semaphore.acquire i).2 } i
      exact h.set hTask rfl hTasks hMain
  | queued i hTask hLocked => exact h.set hTask rfl rfl rfl
  | resumed i hTask hGranted =>
      obtain ⟨after, -, hTasks, -, hMain⟩ := enter_cases { s with semaphore := s.semaphore.resume i } i
      exact h.set hTask rfl hTasks hMain
  | sent i hLimiter hTask hGranted => exact h.set hTask rfl rfl rfl
  | answered i result hTask => exact h.set hTask rfl rfl rfl
  | droppedNew i hTask => exact h.set hTask rfl rfl rfl
  | droppedQueued i hTask hAnswered => exact h.set hTask rfl rfl rfl
  | droppedLimited i hLimiter hTask hAnswered => exact h.set hTask rfl rfl rfl
  | droppedPosting i hTask => exact h.set hTask rfl rfl rfl
  | refilled sleep hLimiter => exact ⟨h.length, h.main⟩
  | expired hMain => cases hNoPool _ hMain
  | toppedUp hMain => cases hNoPool _ hMain
  | failed => exact ⟨h.length, .inr (.inl rfl)⟩
  | waited hMain hOrder hCollected => cases hNoPool _ hMain
  | drained hMain hOrder hCollected => cases hNoPool _ hMain
  | gathered hMain hDone => cases hNoPool _ hMain
  | finished hMain hResults => exact ⟨h.length, .inr (.inr ⟨rfl, eq_map_of_mapM_result hResults⟩)⟩

variable {events : List Event}

theorem timed_of_run (hDuration : 0 < config.durationSecs) (run : Run (Step config) (new config) events s) :
    ∃ collected rest, Timed config s collected rest := by
  refine run.invariant (fun s => ∃ collected rest, Timed config s collected rest) ?_ ?_
  · rintro s event t ⟨collected, rest, h⟩ hStep
    exact h.transition hStep.transition
  · refine ⟨[], [], ⟨?_, ?_⟩, Nat.zero_le _, ?_, ?_, ?_⟩ <;> simp [new, hDuration, Main.pool]

/-- Two slots for some time. -/
def shortBenchmark : BenchmarkConfig where
  concurrency := 2
  totalRequests := 0
  rpsLimit := 2
  durationSecs := 1
  strategy := "round_robin"
  stream := false
  prefixPool := 0
  promptPool := ["Explain the CAP theorem."]

/-- Of three tasks the last is cancelled before it has a token. -/
def shortRun : List Event :=
  [.check false, .start 0, .start 1, .wake RateLimiter.halfSecond, .wake RateLimiter.halfSecond, .token 0,
    .respond 0 (.answered 200 (some "http://b0")), .waited [0], .check false, .token 1, .start 2, .waited [],
    .check true, .respond 1 (.failed "timeout"), .waited [1], .unwind 2, .gathered]

/-- Where the load generator is after these events, all of which can happen. -/
def shortEnd : LoadTest := (shortRun.foldlM (act shortBenchmark) (new shortBenchmark)).get (by decide +kernel)

theorem run_shortEnd : Run (Step shortBenchmark) (new shortBenchmark) shortRun shortEnd :=
  .of_foldlM (Option.some_get _).symm

end InferenceRouter.LoadTest
