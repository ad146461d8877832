import InferenceRouter.Benchmark.Results

/-! How much the load generator sends: never more requests at a time than its
concurrency, and never more in all than its rate allows. -/
namespace InferenceRouter.LoadTest

open Semantics

namespace Task

/-- The slots a task has. -/
def slots : Task → Nat
  | .limited | .posting => 1
  | _ => 0

/-- The requests a task has sent. -/
def sent : Task → Nat
  | .posting | .returned _ | .cancelled true => 1
  | _ => 0

def isQueued : Task → Bool
  | .queued => true
  | _ => false

def isLimited : Task → Bool
  | .limited => true
  | _ => false

end Task

/-- The refiller is where the one of the rate limiter is after some schedule, and each
token that it released is in hand, granted, or spent on a request. -/
structure Fed (rps : ℚ) (tasks : List Task) (schedule : List RateLimiter.Event) (limiter : Limiter) : Prop where
  rate : 0 ≤ rps
  refiller : limiter.refiller = ⟨(RateLimiter.run rps schedule).credit, (RateLimiter.run rps schedule).last⟩
  tokens : limiter.tokens.Sound (RateLimiter.run rps schedule).released (sumOver Task.sent tasks)
  queue : limiter.tokens.Waits Task.isLimited tasks

/-- The tasks account for what the semaphores count. -/
structure Metered (config : BenchmarkConfig) (s : LoadTest) : Prop where
  slots : s.semaphore.Sound config.concurrency (sumOver Task.slots s.tasks)
  queue : s.semaphore.Waits Task.isQueued s.tasks
  fed : ∀ limiter, s.rateLimiter = some limiter → ∃ schedule, Fed config.rpsLimit s.tasks schedule limiter

variable {config : BenchmarkConfig} {rps : ℚ} {tasks : List Task} {schedule : List RateLimiter.Event}
  {limiter : Limiter} {before after : Task} {i : Nat} {s t : LoadTest}

/-- One turn of the refiller is one of the rate limiter. -/
theorem wake_eq (rps : ℚ) (self : RateLimiter) (sleep : Sleep) :
    (Refiller.wake rps ⟨self.credit, self.last⟩ sleep).2 = ⟨(self.refill rps sleep).credit, (self.refill rps sleep).last⟩ ∧
      (self.refill rps sleep).released = self.released + (Refiller.wake rps ⟨self.credit, self.last⟩ sleep).1 :=
  ⟨rfl, rfl⟩

theorem Fed.wake (h : Fed rps tasks schedule limiter) (sleep : Sleep) :
    Fed rps tasks (schedule ++ [.wake sleep])
      ⟨FairSemaphore.release^[(limiter.refiller.wake rps sleep).1] limiter.tokens, (limiter.refiller.wake rps sleep).2⟩ := by
  obtain ⟨hRefiller, hReleased⟩ := wake_eq rps (RateLimiter.run rps schedule) sleep
  rw [h.refiller]
  refine ⟨h.rate, ?_, ?_, h.queue.congr (FairSemaphore.queue_release_iterate ..)⟩
  · rw [RateLimiter.run_concat]
    exact hRefiller
  · have hSupplied := h.tokens.supply_iterate (Refiller.wake rps
      ⟨(RateLimiter.run rps schedule).credit, (RateLimiter.run rps schedule).last⟩ sleep).1
    rw [← hReleased] at hSupplied
    rw [RateLimiter.run_concat]
    exact hSupplied

/-- A task that neither waits for a token nor gets one. -/
theorem Fed.pass (h : Fed rps tasks schedule limiter) (hTask : tasks[i]? = some before)
    (hBefore : before.isLimited = false) (hAfter : after.isLimited = false) (hSent : after.sent = before.sent) :
    Fed rps (tasks.set i after) schedule limiter := by
  have hSum := sumOver_set Task.sent hTask after
  refine ⟨h.rate, h.refiller, ?_, h.queue.pass hTask hBefore hAfter rfl⟩
  rw [show sumOver Task.sent (tasks.set i after) = sumOver Task.sent tasks by omega]
  exact h.tokens

/-- A task asks for a token. -/
theorem Fed.acquire (h : Fed rps tasks schedule limiter) (hTask : tasks[i]? = some before)
    (hBefore : before.isLimited = false) (hUnsent : before.sent = 0) :
    Fed rps (tasks.set i (if (limiter.tokens.acquire i).1 then .posting else .limited)) schedule
      { limiter with tokens := (limiter.tokens.acquire i).2 } := by
  have hSound := h.tokens.acquire i
  have hQueue := limiter.tokens.queue_acquire i
  cases hAcquired : (limiter.tokens.acquire i).1 with
  | true =>
      rw [hAcquired, if_pos rfl] at hSound hQueue
      have hSum := sumOver_set Task.sent hTask .posting
      refine ⟨h.rate, h.refiller, ?_, h.queue.pass hTask hBefore rfl (by simpa using hQueue)⟩
      rw [if_pos rfl, show sumOver Task.sent (tasks.set i .posting) = sumOver Task.sent tasks + 1 by
        have : Task.posting.sent = 1 := rfl
        omega]
      exact hSound
  | false =>
      rw [hAcquired, if_neg Bool.false_ne_true] at hSound hQueue
      have hSum := sumOver_set Task.sent hTask .limited
      refine ⟨h.rate, h.refiller, ?_, h.queue.join hTask hBefore rfl hQueue⟩
      rw [if_neg Bool.false_ne_true, show sumOver Task.sent (tasks.set i .limited) = sumOver Task.sent tasks by
        have : Task.limited.sent = 0 := rfl
        omega]
      exact hSound

/-- A task goes on with the token it was granted. -/
theorem Fed.resume (h : Fed rps tasks schedule limiter) (hTask : tasks[i]? = some .limited)
    (hGranted : (i, .granted) ∈ limiter.tokens.waiters) :
    Fed rps (tasks.set i .posting) schedule { limiter with tokens := limiter.tokens.resume i } := by
  have hSum := sumOver_set Task.sent hTask .posting
  refine ⟨h.rate, h.refiller, ?_, h.queue.leave hTask rfl (FairSemaphore.queue_resume ..)⟩
  rw [show sumOver Task.sent (tasks.set i .posting) = sumOver Task.sent tasks + 1 from hSum]
  exact h.tokens.resume hGranted h.queue.nodup

/-- A cancelled task leaves without a token. -/
theorem Fed.unwind (h : Fed rps tasks schedule limiter) (hTask : tasks[i]? = some .limited)
    (hAnswered : (i, .pending) ∉ limiter.tokens.waiters) :
    Fed rps (tasks.set i (.cancelled false)) schedule { limiter with tokens := limiter.tokens.unwind i } := by
  have hSum := sumOver_set Task.sent hTask (.cancelled false)
  have hMem : i ∈ limiter.tokens.queue := (h.queue.mem_iff i).mpr ⟨_, hTask, rfl⟩
  obtain ⟨⟨j, future⟩, hWaits, hIs⟩ := List.mem_map.mp hMem
  dsimp only at hIs
  subst hIs
  have hGaveUp : future ≠ .pending := fun hIs => hAnswered (hIs ▸ hWaits)
  refine ⟨h.rate, h.refiller, ?_, h.queue.leave hTask rfl (FairSemaphore.queue_unwind ..)⟩
  rw [show sumOver Task.sent (tasks.set j (.cancelled false)) = sumOver Task.sent tasks from hSum]
  exact h.tokens.unwind hWaits hGaveUp h.queue.nodup

theorem Fed.concat (h : Fed rps tasks schedule limiter) : Fed rps (tasks ++ [.created]) schedule limiter := by
  refine ⟨h.rate, h.refiller, ?_, h.queue.concat rfl⟩
  rw [sumOver_append]
  exact h.tokens

theorem Fed.cancelAll (h : Fed rps tasks schedule limiter) (pending : List Nat) :
    Fed rps tasks schedule { limiter with tokens := pending.foldl FairSemaphore.cancel limiter.tokens } :=
  ⟨h.rate, h.refiller, h.tokens.cancel_all pending, h.queue.congr (FairSemaphore.queue_cancel_all ..)⟩

/-- A task without a slot changes to another such state. -/
theorem Metered.pass (h : Metered config s) (hTask : s.tasks[i]? = some before) (hSlots : after.slots = before.slots)
    (hQueued : before.isQueued = false) (hQueued' : after.isQueued = false) (hLimited : before.isLimited = false)
    (hLimited' : after.isLimited = false) (hSent : after.sent = before.sent) :
    Metered config { s with tasks := s.tasks.set i after } := by
  have hSum := sumOver_set Task.slots hTask after
  refine ⟨?_, h.queue.pass hTask hQueued hQueued' rfl, fun limiter hLimiter => ?_⟩
  · rw [show sumOver Task.slots (s.tasks.set i after) = sumOver Task.slots s.tasks by omega]
    exact h.slots
  · obtain ⟨schedule, hFed⟩ := h.fed limiter hLimiter
    exact ⟨schedule, hFed.pass hTask hLimited hLimited' hSent⟩

/-- A task has come out of `semaphore.acquire`. -/
theorem Metered.enter {semaphore : FairSemaphore Nat} (h : Metered config s) (hTask : s.tasks[i]? = some before)
    (hNone : before.slots = 0) (hUnsent : before.sent = 0) (hLimited : before.isLimited = false)
    (hSlots : semaphore.Sound config.concurrency (sumOver Task.slots s.tasks + 1))
    (hQueue : ∀ after : Task, after.isQueued = false → semaphore.Waits Task.isQueued (s.tasks.set i after)) :
    Metered config (enter { s with semaphore } i) := by
  have hSum (after : Task) (hOne : after.slots = 1) :
      semaphore.Sound config.concurrency (sumOver Task.slots (s.tasks.set i after)) := by
    have hSet := sumOver_set Task.slots hTask after
    rw [show sumOver Task.slots (s.tasks.set i after) = sumOver Task.slots s.tasks + 1 by omega]
    exact hSlots
  unfold LoadTest.enter
  split
  · rename_i hUnlimited
    refine ⟨hSum .posting rfl, hQueue .posting rfl, fun limiter hLimiter => ?_⟩
    cases hUnlimited.symm.trans hLimiter
  · rename_i limiter hLimiter
    obtain ⟨schedule, hFed⟩ := h.fed limiter hLimiter
    refine ⟨?_, ?_, fun limiter' hLimiter' => ?_⟩
    · dsimp only
      split
      · exact hSum .posting rfl
      · exact hSum .limited rfl
    · dsimp only
      split
      · exact hQueue .posting rfl
      · exact hQueue .limited rfl
    · cases hLimiter'
      exact ⟨schedule, hFed.acquire hTask hLimited hUnsent⟩

/-- A task gives its slot back. -/
theorem Metered.leave (h : Metered config s) (hTask : s.tasks[i]? = some before) (hOne : before.slots = 1)
    (hNone : after.slots = 0) (hQueued : before.isQueued = false) (hQueued' : after.isQueued = false)
    (rateLimiter : Option Limiter) (hFed : ∀ limiter, rateLimiter = some limiter →
      ∃ schedule, Fed config.rpsLimit (s.tasks.set i after) schedule limiter) :
    Metered config (leave { s with rateLimiter } i after) := by
  have hSum := sumOver_set Task.slots hTask after
  refine ⟨?_, h.queue.pass hTask hQueued hQueued' (FairSemaphore.queue_release _), hFed⟩
  have hHeld := h.slots
  rw [show sumOver Task.slots s.tasks = sumOver Task.slots (s.tasks.set i after) + 1 by omega] at hHeld
  exact hHeld.release

theorem Metered.topUp (h : Metered config s) (pool : List Nat) (main : Main) :
    Metered config { s with tasks := (topUp config.concurrency pool s.tasks).2, main } := by
  have hIterate (n : Nat) : Metered config { s with tasks := (spawn^[n] (pool, s.tasks)).2, main } := by
    induction n with
    | zero => exact ⟨h.slots, h.queue, h.fed⟩
    | succ n ih =>
        rw [Function.iterate_succ_apply']
        refine ⟨?_, ih.queue.concat rfl, fun limiter hLimiter => ?_⟩
        · rw [spawn, sumOver_append]
          exact ih.slots
        · obtain ⟨schedule, hFed⟩ := ih.fed limiter hLimiter
          exact ⟨schedule, hFed.concat⟩
  exact hIterate _

theorem Metered.cancelAll (h : Metered config s) (pending : List Nat) : Metered config (s.cancelAll pending) := by
  refine ⟨h.slots.cancel_all pending, h.queue.congr (FairSemaphore.queue_cancel_all ..), fun limiter hLimiter => ?_⟩
  obtain ⟨limiter', hBefore, rfl⟩ := Option.map_eq_some_iff.mp hLimiter
  obtain ⟨schedule, hFed⟩ := h.fed limiter' hBefore
  exact ⟨schedule, hFed.cancelAll pending⟩

/-- A cancelled task leaves the queue for a slot. -/
theorem Metered.unwind (h : Metered config s) (hTask : s.tasks[i]? = some .queued)
    (hAnswered : (i, .pending) ∉ s.semaphore.waiters) :
    Metered config { s with semaphore := s.semaphore.unwind i, tasks := s.tasks.set i (.cancelled false) } := by
  have hSum := sumOver_set Task.slots hTask (.cancelled false)
  have hMem : i ∈ s.semaphore.queue := (h.queue.mem_iff i).mpr ⟨_, hTask, rfl⟩
  obtain ⟨⟨j, future⟩, hWaits, hIs⟩ := List.mem_map.mp hMem
  dsimp only at hIs
  subst hIs
  have hGaveUp : future ≠ .pending := fun hIs => hAnswered (hIs ▸ hWaits)
  refine ⟨?_, h.queue.leave hTask rfl (FairSemaphore.queue_unwind ..), fun limiter hLimiter => ?_⟩
  · rw [show sumOver Task.slots (s.tasks.set j (.cancelled false)) = sumOver Task.slots s.tasks from hSum]
    exact h.slots.unwind hWaits hGaveUp h.queue.nodup
  · obtain ⟨schedule, hFed⟩ := h.fed limiter hLimiter
    exact ⟨schedule, hFed.pass hTask rfl rfl rfl⟩

theorem Metered.transition (h : Metered config s) (hNext : Transition config s t) : Metered config t := by
  cases hNext with
  | raised i hTask => exact h.pass hTask rfl rfl rfl rfl rfl rfl
  | admitted i hTask hFree =>
      have hSound := h.slots.acquire i
      have hQueue := s.semaphore.queue_acquire i
      rw [if_pos hFree] at hSound hQueue
      exact h.enter hTask rfl rfl rfl hSound fun after hAfter => h.queue.pass hTask rfl hAfter (by simpa using hQueue)
  | queued i hTask hLocked =>
      have hSound := h.slots.acquire i
      have hQueue := s.semaphore.queue_acquire i
      rw [hLocked, if_neg Bool.false_ne_true] at hSound hQueue
      have hSum := sumOver_set Task.slots hTask .queued
      refine ⟨?_, h.queue.join hTask rfl rfl hQueue, fun limiter hLimiter => ?_⟩
      · rw [show sumOver Task.slots (s.tasks.set i .queued) = sumOver Task.slots s.tasks from hSum]
        exact hSound
      · obtain ⟨schedule, hFed⟩ := h.fed limiter hLimiter
        exact ⟨schedule, hFed.pass hTask rfl rfl rfl⟩
  | resumed i hTask hGranted =>
      exact h.enter hTask rfl rfl rfl (h.slots.resume hGranted h.queue.nodup) fun after hAfter =>
        h.queue.leave hTask hAfter (FairSemaphore.queue_resume ..)
  | sent i hLimiter hTask hGranted =>
      rename_i limiter
      obtain ⟨schedule, hFed⟩ := h.fed limiter hLimiter
      have hSum := sumOver_set Task.slots hTask .posting
      refine ⟨?_, h.queue.pass hTask rfl rfl rfl, fun limiter' hLimiter' => ?_⟩
      · rw [show sumOver Task.slots (s.tasks.set i .posting) = sumOver Task.slots s.tasks by
          have hOne : Task.limited.slots = Task.posting.slots := rfl
          omega]
        exact h.slots
      · cases hLimiter'
        exact ⟨schedule, hFed.resume hTask hGranted⟩
  | answered i result hTask =>
      refine h.leave hTask rfl rfl rfl rfl s.rateLimiter fun limiter hLimiter => ?_
      obtain ⟨schedule, hFed⟩ := h.fed limiter hLimiter
      exact ⟨schedule, hFed.pass hTask rfl rfl rfl⟩
  | droppedNew i hTask => exact h.pass hTask rfl rfl rfl rfl rfl rfl
  | droppedQueued i hTask hAnswered => exact h.unwind hTask hAnswered
  | droppedLimited i hLimiter hTask hAnswered =>
      rename_i limiter
      obtain ⟨schedule, hFed⟩ := h.fed limiter hLimiter
      refine h.leave hTask rfl rfl rfl rfl _ fun limiter' hLimiter' => ?_
      cases hLimiter'
      exact ⟨schedule, hFed.unwind hTask hAnswered⟩
  | droppedPosting i hTask =>
      refine h.leave hTask rfl rfl rfl rfl s.rateLimiter fun limiter hLimiter => ?_
      obtain ⟨schedule, hFed⟩ := h.fed limiter hLimiter
      exact ⟨schedule, hFed.pass hTask rfl rfl rfl⟩
  | refilled sleep hLimiter =>
      rename_i limiter
      obtain ⟨schedule, hFed⟩ := h.fed limiter hLimiter
      refine ⟨h.slots, h.queue, fun limiter' hLimiter' => ?_⟩
      cases hLimiter'
      exact ⟨_, hFed.wake sleep⟩
  | toppedUp hMain => exact h.topUp _ _
  | waited hMain hOrder hCollected =>
      obtain ⟨done, -, rfl⟩ := collect_eq hCollected
      exact ⟨h.slots, h.queue, h.fed⟩
  | drained hMain hOrder hCollected =>
      rename_i pool order collectedState
      obtain ⟨done, -, rfl⟩ := collect_eq hCollected
      have hCancelled := h.cancelAll (pool.filter fun i => !s.isDone i)
      exact ⟨hCancelled.slots, hCancelled.queue, hCancelled.fed⟩
  | expired hMain | failed | gathered hMain hDone | finished hMain hResults => exact ⟨h.slots, h.queue, h.fed⟩

variable {events : List Event}

theorem metered_new (config : BenchmarkConfig) : Metered config (new config) := by
  have hIdle (waits : Task → Bool) (hCreated : waits .created = false) :
      FairSemaphore.Waits waits (new config).tasks (.new 0) := by
    refine ⟨List.nodup_nil, fun i => iff_of_false List.not_mem_nil ?_⟩
    rintro ⟨task, hTask, hWaits⟩
    have hMem := List.mem_of_getElem? hTask
    rw [new] at hMem
    dsimp only at hMem
    split at hMem
    · cases hMem
    · rw [List.eq_of_mem_replicate hMem, hCreated] at hWaits
      cases hWaits
  have hSum (measure : Task → Nat) (hCreated : measure .created = 0) : sumOver measure (new config).tasks = 0 := by
    rw [sumOver_eq_zero_iff, new]
    dsimp only
    intro task hMem
    split at hMem
    · cases hMem
    · rw [List.eq_of_mem_replicate hMem, hCreated]
  refine ⟨?_, (hIdle Task.isQueued rfl).congr rfl, fun limiter hLimiter => ⟨[], ?_⟩⟩
  · rw [hSum Task.slots rfl]
    exact FairSemaphore.sound_new _
  · obtain ⟨hRate, hIs⟩ := Option.ite_none_right_eq_some.mp hLimiter
    cases hIs
    refine ⟨hRate.le, rfl, ?_, hIdle Task.isLimited rfl⟩
    rw [hSum Task.sent rfl]
    exact FairSemaphore.sound_new 0

theorem metered_of_run (run : Run (Step config) (new config) events s) : Metered config s :=
  run.invariant (Metered config) (fun _ _ _ h hStep => h.transition hStep.transition) (metered_new config)

/-- The tasks that are not done. -/
def openTasks (s : LoadTest) : Nat := sumOver (fun task : Task => if task.isDone then 0 else 1) s.tasks

/-- The main task has all tasks in hand that are not done. -/
theorem Timed.openTasks_le {collected rest : List Nat} (h : Timed config s collected rest) :
    s.openTasks ≤ rest.length := by
  have hCount : s.openTasks = s.tasks.countP fun task => !task.isDone := by
    unfold openTasks
    induction s.tasks with
    | nil => rfl
    | cons task tasks ih =>
        rw [sumOver_cons, List.countP_cons, ih]
        cases task.isDone
        · exact Nat.add_comm ..
        · exact Nat.zero_add _
  rw [hCount, ← length_positions]
  have hSorted := positions_sorted (fun task : Task => !task.isDone) s.tasks
  have hNodup : (positions (fun task : Task => !task.isDone) s.tasks).Nodup := hSorted.imp fun hLt => hLt.ne
  refine (hNodup.subperm fun i hMem => ?_).length_le
  obtain ⟨task, hTask, hOpen⟩ := mem_positions_iff.mp hMem
  have hEither : i ∈ collected ++ rest :=
    h.split.perm.mem_iff.mpr (List.mem_range.mpr (List.getElem?_eq_some_iff.mp hTask).1)
  refine (List.mem_append.mp hEither).resolve_left fun hCollected => ?_
  obtain ⟨result, hResult⟩ := h.split.returned_of_mem hCollected
  cases hTask.symm.trans hResult
  cases hOpen

/-- The slots in use are those of tasks that are not done, and a new task has none. -/
theorem slots_lt_openTasks (hTask : s.tasks[i]? = some .created) : sumOver Task.slots s.tasks < s.openTasks := by
  have hSlots := sumOver_set Task.slots hTask .raised
  have hOpen := sumOver_set (fun task : Task => if task.isDone then 0 else 1) hTask .raised
  have hLe : sumOver Task.slots (s.tasks.set i .raised) ≤
      sumOver (fun task : Task => if task.isDone then 0 else 1) (s.tasks.set i .raised) := by
    refine sumOver_le_sumOver _ fun task _ => ?_
    cases task <;> simp [Task.slots, Task.isDone]
  have hNone : Task.created.slots = Task.raised.slots := rfl
  have hDone : (if Task.raised.isDone then 0 else 1) = 0 := rfl
  have hNew : (if Task.created.isDone then 0 else 1) = 1 := rfl
  unfold openTasks
  omega

/-- With nobody waiting and a permit left, a task gets it at once. -/
theorem acquire_of_idle {semaphore : FairSemaphore Nat} (hIdle : semaphore.waiters = []) (hFree : 0 < semaphore.value)
    (i : Nat) : semaphore.acquire i = (true, { semaphore with value := semaphore.value - 1 }) := by
  unfold FairSemaphore.acquire
  rw [if_neg]
  rw [FairSemaphore.not_locked_iff, hIdle]
  exact ⟨hFree, by simp⟩

theorem release_waiters_of_idle {semaphore : FairSemaphore Nat} (hIdle : semaphore.waiters = []) :
    semaphore.release.waiters = [] := by
  rw [FairSemaphore.release, FairSemaphore.wakeUpNext, hIdle]
  rfl

/-- In the loop for a duration nobody has to wait for a slot. -/
theorem idle_transition {collected rest : List Nat} (hTimed : Timed config s collected rest) (h : Metered config s)
    (hIdle : s.semaphore.waiters = []) (hNext : Transition config s t) : t.semaphore.waiters = [] := by
  have hAcquire (i : Nat) (hTask : s.tasks[i]? = some .created) :
      s.semaphore.acquire i = (true, { s.semaphore with value := s.semaphore.value - 1 }) := by
    refine acquire_of_idle hIdle ?_ i
    have hTotal := h.slots.total
    rw [hIdle, FairSemaphore.count_nil] at hTotal
    have hLess := slots_lt_openTasks hTask
    have hOpen := hTimed.openTasks_le
    have hBound := hTimed.bound
    omega
  have hNobody (i : Nat) (hTask : s.tasks[i]? = some .queued) : False := by
    have hMem : i ∈ s.semaphore.queue := (h.queue.mem_iff i).mpr ⟨_, hTask, rfl⟩
    rw [FairSemaphore.queue, hIdle] at hMem
    cases hMem
  have hEnter (s : LoadTest) (i : Nat) : (s.enter i).semaphore = s.semaphore := by
    unfold enter
    split <;> rfl
  cases hNext with
  | admitted i hTask hFree =>
      rw [hEnter, hAcquire i hTask]
      exact hIdle
  | queued i hTask hLocked =>
      rw [hAcquire i hTask] at hLocked
      cases hLocked
  | resumed i hTask hGranted => exact (hNobody i hTask).elim
  | answered i result hTask => exact release_waiters_of_idle hIdle
  | droppedQueued i hTask hAnswered => exact (hNobody i hTask).elim
  | droppedLimited i hLimiter hTask hAnswered => exact release_waiters_of_idle hIdle
  | droppedPosting i hTask => exact release_waiters_of_idle hIdle
  | waited hMain hOrder hCollected =>
      obtain ⟨done, -, rfl⟩ := collect_eq hCollected
      exact hIdle
  | drained hMain hOrder hCollected =>
      rename_i pool order collectedState
      obtain ⟨done, -, rfl⟩ := collect_eq hCollected
      have hQueue := FairSemaphore.queue_cancel_all s.semaphore (pool.filter fun i => !s.isDone i)
      rw [FairSemaphore.queue, FairSemaphore.queue, hIdle] at hQueue
      exact List.map_eq_nil_iff.mp hQueue
  | raised | sent | droppedNew | refilled | expired | toppedUp | failed | gathered | finished => exact hIdle

theorem idle_of_run (hDuration : 0 < config.durationSecs) (run : Run (Step config) (new config) events s) :
    s.semaphore.waiters = [] := by
  have hInv := run.invariant (fun s => (∃ collected rest, Timed config s collected rest) ∧ Metered config s ∧
    s.semaphore.waiters = []) ?_ ⟨timed_of_run hDuration (.nil _), metered_new config, rfl⟩
  · exact hInv.2.2
  · rintro s event t ⟨⟨collected, rest, hTimed⟩, hMetered, hIdle⟩ hStep
    exact ⟨hTimed.transition hStep.transition, hMetered.transition hStep.transition,
      idle_transition hTimed hMetered hIdle hStep.transition⟩

/-- Never more requests at a time than the concurrency. A slot is free, granted to a task
that waits for one, or with a task that posts or waits for a token, and when all tasks are
done all slots are free again. In the loop for a duration nobody waits for a slot, since
the pool is no larger. -/
theorem in_flight_bounded (run : Run (Step config) (new config) events s) :
    s.tasks.countP (· = .posting) ≤ config.concurrency ∧
    s.semaphore.value + FairSemaphore.count .granted s.semaphore.waiters + sumOver Task.slots s.tasks =
      config.concurrency ∧
    ((∀ task ∈ s.tasks, task.isDone = true) → s.semaphore = .new config.concurrency) ∧
    (0 < config.durationSecs → s.semaphore.waiters = []) := by
  have hMetered := metered_of_run run
  have hTotal := hMetered.slots.total
  refine ⟨?_, hTotal, fun hDone => ?_, fun hDuration => idle_of_run hDuration run⟩
  · have hPosting : s.tasks.countP (· = .posting) ≤ sumOver Task.slots s.tasks := by
      induction s.tasks with
      | nil => exact le_rfl
      | cons task tasks ih =>
          rw [sumOver_cons, List.countP_cons]
          cases task <;> simp [Task.slots] <;> omega
    omega
  · have hSlots : sumOver Task.slots s.tasks = 0 := by
      rw [sumOver_eq_zero_iff]
      intro task hMem
      have hIs := hDone task hMem
      cases task <;> first | rfl | cases hIs
    have hQueue : s.semaphore.queue = [] := by
      rw [List.eq_nil_iff_forall_not_mem]
      intro i hMem
      obtain ⟨task, hTask, hQueued⟩ := (hMetered.queue.mem_iff i).mp hMem
      have hIs := hDone task (List.mem_of_getElem? hTask)
      obtain rfl : task = .queued := by cases task <;> first | rfl | cases hQueued
      cases hIs
    have hWaiters : s.semaphore.waiters = [] := List.map_eq_nil_iff.mp hQueue
    rw [hWaiters, hSlots] at hTotal
    exact FairSemaphore.ext hTotal hWaiters

theorem in_flight_bounded_short :
    let s := shortEnd
    s.tasks.length = 3 ∧ s.semaphore = .new 2 := by
  intro s
  exact ⟨by decide +kernel, (in_flight_bounded run_shortEnd).2.2.1 (by decide +kernel)⟩

/-- Never more requests in all than the rate allows. With a limit, each request that was
sent took a token, and the tokens that were released so far, in hand, granted or spent,
are at most the rate times the time at which the refiller last woke up. -/
theorem sent_at_rate (run : Run (Step config) (new config) events s) (hLimiter : s.rateLimiter = some limiter) :
    ((limiter.tokens.value + FairSemaphore.count .granted limiter.tokens.waiters + sumOver Task.sent s.tasks : Nat) : ℚ) ≤
      config.rpsLimit * limiter.refiller.last := by
  obtain ⟨schedule, hFed⟩ := (metered_of_run run).fed limiter hLimiter
  have hRefilled := RateLimiter.run_refilled hFed.rate schedule
  rw [hFed.tokens.total, hFed.refiller]
  exact (le_add_of_nonneg_right hRefilled.nonneg).trans hRefilled.rate

theorem sent_at_rate_short :
    let s := shortEnd
    ∃ limiter, s.rateLimiter = some limiter ∧ sumOver Task.sent s.tasks = 2 ∧ (2 : ℚ) ≤ 2 * limiter.refiller.last := by
  intro s
  have hSome : s.rateLimiter.isSome := by decide +kernel
  have hSent : sumOver Task.sent s.tasks = 2 := by decide +kernel
  obtain ⟨limiter, hLimiter⟩ := Option.isSome_iff_exists.mp hSome
  have hRate := sent_at_rate run_shortEnd hLimiter
  rw [hSent] at hRate
  refine ⟨limiter, hLimiter, hSent, le_trans ?_ hRate⟩
  exact_mod_cast Nat.le_add_left ..

end InferenceRouter.LoadTest
