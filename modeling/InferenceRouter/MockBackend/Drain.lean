import InferenceRouter.MockBackend.Slots

/-! The mock backend drains. Once no more requests come, any order of what its tasks
can do finishes all of them, after a number of events that is known beforehand. -/
namespace InferenceRouter.MockBackend

open Semantics

/-- The events a task still needs, at most. -/
def Task.work : Task → Nat
  | .waiting _ => 3
  | .generating _ _ => 2
  | .streaming _ => 1
  | .finished _ => 0

namespace Server

/-- What happens by itself: neither a request nor a new cancellation. -/
def due (self : Server) : Event → Bool
  | .arrive _ _ | .cancel _ => false
  | .unwind i => self.gate.sem.waiters.any fun w => w = (i, .cancelled)
  | .resume _ _ | .wake _ | .close _ => true

structure Progress (tokensPerRequest : Nat) (s : Server) (event : Event) (t : Server) : Prop where
  step : Step tokensPerRequest s event t
  due : s.due event = true

variable {maxConcurrent i : Nat} {prefixCacheSize : Int} {tokensPerRequest : Nat} {self s t : Server}
  {events later : List Event} {event : Event} {req : CompletionRequest}

@[simp] theorem finish_tasks (self : Server) (i : Nat) (outcome : Outcome) :
    (self.finish i outcome).tasks = self.tasks.set i (.finished outcome) := rfl

/-- What `start` and `respond` make of a task. -/
theorem start_tasks (self : Server) (i : Nat) (req : CompletionRequest) (fails : Bool) :
    ∃ after, (self.start i req fails).tasks = self.tasks.set i after ∧ after.work ≤ 2 := by
  unfold start
  split
  · exact ⟨_, finish_tasks .., Nat.zero_le _⟩
  · exact ⟨_, rfl, Nat.le_refl _⟩

theorem respond_tasks (self : Server) (i : Nat) (req : CompletionRequest) (hit : Bool) :
    ∃ after, (self.respond tokensPerRequest i req hit).tasks = self.tasks.set i after ∧ after.work ≤ 1 := by
  unfold respond
  dsimp only
  split
  · exact ⟨_, rfl, Nat.le_refl _⟩
  · exact ⟨_, finish_tasks .., Nat.zero_le _⟩

/-- Whatever is due is one event less to do. -/
theorem Progress.work_lt (h : Progress tokensPerRequest self event t) :
    sumOver Task.work t.tasks < sumOver Task.work self.tasks := by
  have hSet {i : Nat} {before after : Task} (hTask : self.tasks[i]? = some before)
      (hTasks : t.tasks = self.tasks.set i after) (hLess : after.work < before.work) :
      sumOver Task.work t.tasks < sumOver Task.work self.tasks := by
    have hSum := sumOver_set Task.work hTask after
    rw [hTasks]
    omega
  obtain ⟨hStep, hDue⟩ := h
  cases hStep.transition with
  | admitted req fails hFree => cases hDue
  | enqueued req fails hLocked => cases hDue
  | resumed i fails hTask hGranted =>
      rename_i req
      obtain ⟨after, hTasks, hWork⟩ := start_tasks { self with gate := self.gate.resume i } i req fails
      exact hSet hTask hTasks (Nat.lt_succ_of_le hWork)
  | cancelled i hTask => cases hDue
  | left i hTask hAnswered => exact hSet hTask rfl (Nat.succ_pos _)
  | aborted i hTask => exact hSet hTask (finish_tasks ..) (Nat.succ_pos _)
  | responded i hTask =>
      rename_i req hit
      obtain ⟨after, hTasks, hWork⟩ := self.respond_tasks i req hit
      exact hSet hTask hTasks (Nat.lt_succ_of_le hWork)
  | closed i hTask => exact hSet hTask (finish_tasks ..) (Nat.succ_pos _)

theorem length_le_work (run : Run (Progress tokensPerRequest) s later t) :
    later.length + sumOver Task.work t.tasks ≤ sumOver Task.work s.tasks := by
  induction run with
  | nil s => exact Nat.le_of_eq (Nat.zero_add _)
  | cons first rest ih =>
      have hLess := first.work_lt
      rw [List.length_cons]
      omega

theorem exists_progress_of (event : Event) (hSome : (self.act tokensPerRequest event).isSome)
    (hDue : self.due event = true) : ∃ event t, Progress tokensPerRequest self event t := by
  obtain ⟨t, hStep⟩ := Option.isSome_iff_exists.mp hSome
  exact ⟨event, t, hStep, hDue⟩

/-- While a task is not finished, something is due. -/
theorem Accounted.exists_progress (h : Accounted maxConcurrent self) (hSlots : 1 ≤ maxConcurrent)
    (hOpen : ∃ task ∈ self.tasks, task.isFinished = false) :
    ∃ event t, Progress tokensPerRequest self event t := by
  by_cases hBusy : sumOver Task.slots self.tasks = 0
  · -- No slot is in use, so the waiter that is open leads to one that has its answer.
    obtain ⟨task, hMem, hNotFinished⟩ := hOpen
    obtain ⟨i, hTask⟩ := List.getElem?_of_mem hMem
    have hIdle := (sumOver_eq_zero_iff Task.slots).mp hBusy task hMem
    have hWaiting : task.isWaiting = true := by
      cases task with
      | waiting req => rfl
      | generating req hit => cases hIdle
      | streaming hit => cases hIdle
      | finished outcome => cases hNotFinished
    have hQueued : i ∈ self.gate.sem.queue := by
      rw [h.queue, mem_positions_iff]
      exact ⟨task, hTask, hWaiting⟩
    have hSound := h.slots
    rw [hBusy] at hSound
    obtain ⟨⟨j, future⟩, hWaits, hAnswered⟩ := hSound.exists_answered hSlots fun hNone => by
      rw [FairSemaphore.queue, hNone] at hQueued
      cases hQueued
    have hInQueue : j ∈ self.gate.sem.queue := List.mem_map.mpr ⟨_, hWaits, rfl⟩
    rw [h.queue, mem_positions_iff] at hInQueue
    obtain ⟨task', hTask', hWaiting'⟩ := hInQueue
    obtain ⟨req, rfl⟩ := Task.isWaiting_iff.mp hWaiting'
    cases future with
    | pending => exact absurd rfl hAnswered
    | granted => exact exists_progress_of (.resume j true) (by simp [act, hTask', hWaits]) rfl
    | cancelled =>
        have hSorted : self.gate.sem.queue.Pairwise (· < ·) := h.queue ▸ positions_sorted _ _
        have hNotPending : (j, .pending) ∉ self.gate.sem.waiters := fun hPending =>
          Future.noConfusion (FairSemaphore.future_unique (hSorted.imp fun hLt => hLt.ne) hPending hWaits)
        exact exists_progress_of (.unwind j) (by simp [act, hTask', hNotPending]) (by simpa [due] using hWaits)
  · -- A task that has a slot can always go on.
    rw [sumOver_eq_zero_iff] at hBusy
    push Not at hBusy
    obtain ⟨task, hMem, hSlot⟩ := hBusy
    obtain ⟨i, hTask⟩ := List.getElem?_of_mem hMem
    cases task with
    | waiting req => exact absurd rfl hSlot
    | generating req hit => exact exists_progress_of (.wake i) (by simp [act, hTask]) rfl
    | streaming hit => exact exists_progress_of (.close i) (by simp [act, hTask]) rfl
    | finished outcome => exact absurd rfl hSlot

/-- The mock drains. From any state it gets into, every way to go on without new requests
and new cancellations is bounded, and ends with all tasks finished and all slots free. -/
theorem drains (hSlots : 1 ≤ maxConcurrent)
    (run : Run (Step tokensPerRequest) (new maxConcurrent prefixCacheSize) events s) :
    (∀ later t, Run (Progress tokensPerRequest) s later t → later.length ≤ sumOver Task.work s.tasks ∧
      ((∀ event u, ¬ Progress tokensPerRequest t event u) →
        (∀ task ∈ t.tasks, task.isFinished = true) ∧ t.gate = .new maxConcurrent)) := by
  intro later t laterRun
  have hAccounted : Accounted maxConcurrent t :=
    laterRun.invariant (Accounted maxConcurrent) (fun _ _ _ h hNext => h.transition hNext.step.transition)
      (accounted_of_run run)
  have hLength := length_le_work laterRun
  refine ⟨by omega, fun hStuck => ?_⟩
  have hFinished : ∀ task ∈ t.tasks, task.isFinished = true := by
    by_contra hOpen
    push Not at hOpen
    simp only [Bool.not_eq_true] at hOpen
    obtain ⟨event, u, hProgress⟩ := hAccounted.exists_progress hSlots hOpen
    exact hStuck event u hProgress
  exact ⟨hFinished, hAccounted.gate_of_finished hFinished⟩

/-- The third request, a stream, after the first has been answered and the second left. -/
theorem drains_oneSlot :
    let s := afterEvents (oneSlot.take 6) (by decide +kernel)
    ∀ later t, Run (Progress 20) s later t → later.length ≤ 3 := by
  intro s later t laterRun
  have run : Run (Step 20) (new 1 256) (oneSlot.take 6) s := run_afterEvents _
  have hWork : sumOver Task.work s.tasks = 3 := by decide +kernel
  exact hWork ▸ (drains (Nat.le_refl 1) run later t laterRun).1

end Server

end InferenceRouter.MockBackend
