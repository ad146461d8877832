import InferenceRouter.MockBackend.Server

/-! The slots of the mock backend. Whatever order its tasks run in and whoever is
cancelled when, the gate counts its slots and its queue exactly. -/
namespace InferenceRouter.MockBackend

open Semantics

namespace Task

def isWaiting : Task → Bool
  | .waiting _ => true
  | _ => false

/-- The slots a task has. -/
def slots : Task → Nat
  | .generating _ _ | .streaming _ => 1
  | _ => 0

/-- The task was given a slot, now or before. -/
def begun : Task → Bool
  | .waiting _ | .finished .cancelled => false
  | _ => true

def isFinished : Task → Bool
  | .finished _ => true
  | _ => false

theorem isWaiting_iff {task : Task} : task.isWaiting = true ↔ ∃ req, task = .waiting req := by
  cases task <;> simp [isWaiting]

end Task

namespace Server

/-- The tasks account for what the gate counts, and nobody began before who still waits
in front of it. -/
structure Accounted (maxConcurrent : Nat) (s : Server) : Prop where
  slots : s.gate.sem.Sound maxConcurrent (sumOver Task.slots s.tasks)
  running : s.gate.running = sumOver Task.slots s.tasks
  waiting : s.gate.waiting = s.gate.sem.queue.length
  queue : s.gate.sem.queue = positions Task.isWaiting s.tasks
  order : ∀ i j task, (i, .pending) ∈ s.gate.sem.waiters → i < j → s.tasks[j]? = some task → task.begun = false

/-- The same when a task has a slot that it may not show yet: it has just come out of
`gate.acquire`. -/
structure Holding (maxConcurrent i : Nat) (s : Server) : Prop where
  held : ∃ held task, s.tasks[i]? = some task ∧ held + task.slots = sumOver Task.slots s.tasks + 1 ∧
    s.gate.sem.Sound maxConcurrent held ∧ s.gate.running = held
  waiting : s.gate.waiting = s.gate.sem.queue.length
  queue : s.gate.sem.queue = (positions Task.isWaiting s.tasks).erase i
  order : ∀ i j task, (i, .pending) ∈ s.gate.sem.waiters → i < j → s.tasks[j]? = some task → task.begun = false
  first : ∀ j, (j, .pending) ∈ s.gate.sem.waiters → ¬ j < i

theorem accounted_new (maxConcurrent : Nat) (prefixCacheSize : Int) :
    Accounted maxConcurrent (new maxConcurrent prefixCacheSize) :=
  ⟨FairSemaphore.sound_new maxConcurrent, rfl, rfl, rfl, fun _ _ _ h => by cases h⟩

variable {maxConcurrent i : Nat} {self : Server} {req : CompletionRequest} {fails : Bool}

/-- Nobody passes a waiter when one task changes that may. -/
theorem order_set {waiters waiters' : List (Nat × Future)} {tasks : List Task} {after : Task}
    (hOrder : ∀ i j task, (i, .pending) ∈ waiters → i < j → tasks[j]? = some task → task.begun = false)
    (hPending : ∀ j, (j, .pending) ∈ waiters' → (j, .pending) ∈ waiters)
    (hFirst : ∀ j, (j, .pending) ∈ waiters → j < i → after.begun = false) (j k : Nat) (task : Task)
    (hWaits : (j, .pending) ∈ waiters') (hLt : j < k) (hTask : (tasks.set i after)[k]? = some task) :
    task.begun = false := by
  by_cases hSame : i = k
  · subst hSame
    have hMember : i < tasks.length := by
      have hLength := (List.getElem?_eq_some_iff.mp hTask).1
      rwa [List.length_set] at hLength
    rw [List.getElem?_set_self hMember, Option.some.injEq] at hTask
    exact hTask ▸ hFirst j (hPending j hWaits) hLt
  · rw [List.getElem?_set_ne hSame] at hTask
    exact hOrder j k task (hPending j hWaits) hLt hTask

/-- A task that has a slot goes on with it. -/
theorem Holding.keep (h : Holding maxConcurrent i self) (after : Task) (hSlot : after.slots = 1) :
    Accounted maxConcurrent { self with tasks := self.tasks.set i after } := by
  obtain ⟨held, task, hMember, hSum, hSound, hRunning⟩ := h.held
  have hSet := sumOver_set Task.slots hMember after
  have hHeld : sumOver Task.slots (self.tasks.set i after) = held := by omega
  have hNotWaiting : after.isWaiting = false := by
    cases after <;> first | rfl | cases hSlot
  refine ⟨?_, ?_, h.waiting, ?_, order_set h.order (fun j hj => hj) fun j hj hLt => absurd hLt (h.first j hj)⟩
  · rw [hHeld]
    exact hSound
  · rw [hHeld]
    exact hRunning
  · rw [positions_set hNotWaiting]
    exact h.queue

/-- A task that has a slot ends. -/
theorem Holding.finish (h : Holding maxConcurrent i self) (outcome : Outcome) :
    Accounted maxConcurrent (self.finish i outcome) := by
  obtain ⟨held, task, hMember, hSum, hSound, hRunning⟩ := h.held
  have hSet := sumOver_set Task.slots hMember (.finished outcome)
  have hHeld : held = sumOver Task.slots (self.tasks.set i (.finished outcome)) + 1 := by
    have hNone : (Task.finished outcome).slots = 0 := rfl
    omega
  refine ⟨?_, ?_, ?_, ?_, order_set h.order (fun j => FairSemaphore.pending_of_release) fun j hj hLt =>
    absurd hLt (h.first j hj)⟩
  · rw [hHeld] at hSound
    exact hSound.release
  · rw [Server.finish, Gate.release, hRunning, hHeld]
    simp
  · rw [Server.finish, Gate.release, FairSemaphore.queue_release]
    exact h.waiting
  · rw [Server.finish, Gate.release, FairSemaphore.queue_release, positions_set rfl]
    exact h.queue

theorem Holding.start (h : Holding maxConcurrent i self) (req : CompletionRequest) (fails : Bool) :
    Accounted maxConcurrent (self.start i req fails) := by
  unfold Server.start
  split
  · exact h.finish .failed
  · have hKept := h.keep (.generating req (self.prefixCache.lookup (prefixKey req)).1) rfl
    exact ⟨hKept.slots, hKept.running, hKept.waiting, hKept.queue, hKept.order⟩

/-- A task whose phase shows its slot. -/
theorem Accounted.holding (h : Accounted maxConcurrent self) {task : Task} (hTask : self.tasks[i]? = some task)
    (hSlot : task.slots = 1) : Holding maxConcurrent i self := by
  have hBegun : task.begun = true := by
    cases task <;> first | rfl | cases hSlot
  have hNotWaiting : i ∉ positions Task.isWaiting self.tasks := by
    rw [mem_positions_iff]
    rintro ⟨task', hTask', hWaiting⟩
    obtain ⟨req, rfl⟩ := Task.isWaiting_iff.mp hWaiting
    rw [hTask] at hTask'
    cases hTask'
    cases hSlot
  refine ⟨⟨_, task, hTask, by rw [hSlot], h.slots, h.running⟩, h.waiting, ?_, h.order, fun j hj hLt => ?_⟩
  · rw [List.erase_of_not_mem hNotWaiting]
    exact h.queue
  · have hNotBegun := h.order j i task hj hLt hTask
    rw [hBegun] at hNotBegun
    cases hNotBegun

theorem Accounted.respond (h : Accounted maxConcurrent self) {tokensPerRequest : Nat} {hit : Bool}
    (hTask : self.tasks[i]? = some (.generating req hit)) :
    Accounted maxConcurrent (self.respond tokensPerRequest i req hit) := by
  have hHolding := h.holding hTask rfl
  have hCounted (promptTokens generationTokens : Nat) : Holding maxConcurrent i
      { self with totalPromptTokens := promptTokens, totalGenerationTokens := generationTokens } :=
    ⟨hHolding.held, hHolding.waiting, hHolding.queue, hHolding.order, hHolding.first⟩
  unfold Server.respond
  dsimp only
  split
  · exact (hCounted (self.totalPromptTokens + 10) (self.totalGenerationTokens + tokensPerRequest)).keep
      (.streaming hit) rfl
  · exact (hCounted (self.totalPromptTokens + 10) (self.totalGenerationTokens + tokensPerRequest)).finish
      (.answered hit)

/-- A task that was granted a slot. -/
theorem Accounted.resume (h : Accounted maxConcurrent self) (hTask : self.tasks[i]? = some (.waiting req))
    (hGranted : (i, .granted) ∈ self.gate.sem.waiters) :
    Holding maxConcurrent i { self with gate := self.gate.resume i } := by
  have hSorted : self.gate.sem.queue.Pairwise (· < ·) := h.queue ▸ positions_sorted _ _
  have hNodup : self.gate.sem.queue.Nodup := hSorted.imp fun hLt => hLt.ne
  have hMem : i ∈ self.gate.sem.queue := List.mem_map.mpr ⟨_, hGranted, rfl⟩
  refine ⟨⟨_, _, hTask, rfl, h.slots.resume hGranted hNodup, ?_⟩, ?_, ?_, fun j k task hj => ?_, fun j hj hLt => ?_⟩
  · rw [Gate.resume, h.running]
    rfl
  · rw [Gate.resume, FairSemaphore.queue_resume, List.length_erase_of_mem hMem, h.waiting]
    have hPos := List.length_pos_of_mem hMem
    dsimp only
    omega
  · rw [Gate.resume, FairSemaphore.queue_resume, h.queue]
  · exact h.order j k task (FairSemaphore.pending_of_resume hj)
  · exact absurd hLt (lt_asymm (h.slots.lt_of_granted hSorted (FairSemaphore.pending_of_resume hj) hGranted))

/-- A task that leaves the gate without a slot. -/
theorem Accounted.unwind (h : Accounted maxConcurrent self) (hTask : self.tasks[i]? = some (.waiting req))
    (hAnswered : (i, .pending) ∉ self.gate.sem.waiters) :
    Accounted maxConcurrent
      { self with gate := self.gate.unwind i, tasks := self.tasks.set i (.finished .cancelled) } := by
  have hSorted : self.gate.sem.queue.Pairwise (· < ·) := h.queue ▸ positions_sorted _ _
  have hNodup : self.gate.sem.queue.Nodup := hSorted.imp fun hLt => hLt.ne
  have hMem : i ∈ self.gate.sem.queue := by
    rw [h.queue, mem_positions_iff]
    exact ⟨_, hTask, rfl⟩
  obtain ⟨⟨j, future⟩, hWaits, hIs⟩ := List.mem_map.mp hMem
  dsimp only at hIs
  subst hIs
  have hGaveUp : future ≠ .pending := fun hIs => hAnswered (hIs ▸ hWaits)
  have hSum := sumOver_set Task.slots hTask (.finished .cancelled)
  have hSlots : sumOver Task.slots (self.tasks.set j (.finished .cancelled)) = sumOver Task.slots self.tasks := by
    simpa [Task.slots] using hSum
  refine ⟨?_, ?_, ?_, ?_, order_set h.order (fun k => FairSemaphore.pending_of_unwind) fun _ _ _ => rfl⟩
  · rw [hSlots]
    exact h.slots.unwind hWaits hGaveUp hNodup
  · rw [hSlots]
    exact h.running
  · have hPos := List.length_pos_of_mem hMem
    rw [Gate.unwind, FairSemaphore.queue_unwind, List.length_erase_of_mem hMem, h.waiting]
    dsimp only
    omega
  · rw [Gate.unwind, FairSemaphore.queue_unwind, positions_set rfl, h.queue]

theorem Accounted.arrive_of_free (h : Accounted maxConcurrent self) (req : CompletionRequest)
    (hFree : (self.gate.sem.acquire self.tasks.length).1 = true) :
    Holding maxConcurrent self.tasks.length
      (self.enter req) := by
  have hSound := h.slots.acquire self.tasks.length
  have hQueue := self.gate.sem.queue_acquire self.tasks.length
  have hNobody (j : Nat) := self.gate.sem.not_pending_of_acquire hFree (b := j)
  rw [if_pos hFree] at hSound hQueue
  rw [List.append_nil] at hQueue
  unfold enter
  have hNew : self.tasks.length ∉ positions Task.isWaiting self.tasks := by
    rw [mem_positions_iff]
    rintro ⟨task, hTask, -⟩
    exact absurd (List.getElem?_eq_some_iff.mp hTask).1 (lt_irrefl _)
  refine ⟨⟨_, _, List.getElem?_concat_length, ?_, hSound, ?_⟩, ?_, ?_, fun j k task hj => absurd hj (hNobody j),
    fun j hj => absurd hj (hNobody j)⟩
  · simp [Task.slots]
  · rw [h.running]
    rfl
  · rw [hQueue]
    exact h.waiting
  · rw [hQueue, positions_concat, h.queue, List.erase_append_right _ hNew]
    simp [Task.isWaiting]

theorem Accounted.arrive_of_locked (h : Accounted maxConcurrent self) (req : CompletionRequest)
    (hLocked : (self.gate.sem.acquire self.tasks.length).1 = false) :
    Accounted maxConcurrent
      (self.enqueue req) := by
  have hSound := h.slots.acquire self.tasks.length
  have hQueue := self.gate.sem.queue_acquire self.tasks.length
  rw [hLocked] at hSound hQueue
  unfold enqueue
  have hSum : sumOver Task.slots (self.tasks ++ [.waiting req]) = sumOver Task.slots self.tasks := by
    simp [Task.slots]
  refine ⟨?_, ?_, ?_, ?_, fun j k task hj hLt hTask => ?_⟩
  · rw [hSum]
    exact hSound
  · rw [hSum]
    exact h.running
  · rw [hQueue, h.waiting]
    simp
  · rw [hQueue, positions_concat, h.queue]
    rfl
  · by_cases hOld : k < self.tasks.length
    · rw [List.getElem?_append_left hOld] at hTask
      rcases FairSemaphore.pending_of_acquire hj with hBefore | hSame
      · exact h.order j k task hBefore hLt hTask
      · omega
    · have hLength := (List.getElem?_eq_some_iff.mp hTask).1
      rw [List.length_append, List.length_singleton] at hLength
      have hLast : k = self.tasks.length := by omega
      rw [hLast, List.getElem?_concat_length, Option.some.injEq] at hTask
      rw [← hTask]
      rfl

theorem Accounted.cancel (h : Accounted maxConcurrent self) (i : Nat) :
    Accounted maxConcurrent { self with gate := self.gate.cancel i } := by
  refine ⟨h.slots.cancel i, h.running, ?_, ?_, fun j k task hj => ?_⟩
  · rw [Gate.cancel, FairSemaphore.queue_cancel]
    exact h.waiting
  · rw [Gate.cancel, FairSemaphore.queue_cancel]
    exact h.queue
  · exact h.order j k task (FairSemaphore.pending_of_cancel hj)

theorem Accounted.transition (h : Accounted maxConcurrent self) {tokensPerRequest : Nat} {event : Event}
    {next : Server} (hNext : Transition tokensPerRequest self event next) : Accounted maxConcurrent next := by
  cases hNext with
  | admitted req fails hFree => exact (h.arrive_of_free req hFree).start req fails
  | enqueued req fails hLocked => exact h.arrive_of_locked req hLocked
  | resumed i fails hTask hGranted => exact (h.resume hTask hGranted).start _ fails
  | cancelled i hTask => exact h.cancel i
  | left i hTask hAnswered => exact h.unwind hTask hAnswered
  | aborted i hTask => exact (h.holding hTask rfl).finish _
  | responded i hTask => exact h.respond hTask
  | closed i hTask => exact (h.holding hTask rfl).finish _

variable {prefixCacheSize : Int} {tokensPerRequest : Nat} {events : List Event} {s : Server}

theorem accounted_of_run (run : Run (Step tokensPerRequest) (new maxConcurrent prefixCacheSize) events s) :
    Accounted maxConcurrent s :=
  run.invariant (Accounted maxConcurrent) (fun _ _ _ h hStep => h.transition hStep.transition)
    (accounted_new maxConcurrent prefixCacheSize)

theorem Accounted.pending_or_granted (h : Accounted maxConcurrent self) (hFree : 0 < self.gate.sem.value) (i : Nat)
    (hPending : (i, .pending) ∈ self.gate.sem.waiters) : ∃ j, (j, .granted) ∈ self.gate.sem.waiters := by
  rcases h.slots.prompt with hNone | hNobody | hSome
  · omega
  · exact absurd rfl (FairSemaphore.count_eq_zero_iff.mp hNobody _ hPending)
  · obtain ⟨⟨j, future⟩, hMem, hIs⟩ := List.countP_pos_iff.mp hSome
    exact ⟨j, of_decide_eq_true hIs ▸ hMem⟩

/-- Without open tasks the gate is as good as new. -/
theorem Accounted.gate_of_finished (h : Accounted maxConcurrent self)
    (hFinished : ∀ task ∈ self.tasks, task.isFinished = true) : self.gate = .new maxConcurrent := by
  have hSlots : sumOver Task.slots self.tasks = 0 := by
    rw [sumOver_eq_zero_iff]
    intro task hMem
    have hIs := hFinished task hMem
    cases task <;> first | rfl | cases hIs
  have hQueue : self.gate.sem.queue = [] := by
    rw [h.queue, List.eq_nil_iff_forall_not_mem]
    intro i hMem
    obtain ⟨task, hTask, hWaiting⟩ := mem_positions_iff.mp hMem
    have hIs := hFinished task (List.mem_of_getElem? hTask)
    obtain ⟨req, rfl⟩ := Task.isWaiting_iff.mp hWaiting
    cases hIs
  have hWaiters : self.gate.sem.waiters = [] := List.map_eq_nil_iff.mp hQueue
  have hTotal := h.slots.total
  rw [hWaiters, hSlots] at hTotal
  refine Gate.ext (FairSemaphore.ext hTotal hWaiters) ?_ ?_
  · rw [h.waiting, hQueue]
    rfl
  · rw [h.running, hSlots]
    rfl

/-- Slots are neither lost nor made. In every order of events the gauges are the numbers
of tasks that have a slot and that wait for one, a slot that is not in use is free or
was granted to a waiter, none is free while somebody waits and nobody was granted one,
and when all tasks are finished the gate is as good as new. -/
theorem slots_conserved (run : Run (Step tokensPerRequest) (new maxConcurrent prefixCacheSize) events s) :
    s.gate.running = sumOver Task.slots s.tasks ∧
    s.gate.waiting = s.tasks.countP Task.isWaiting ∧
    s.gate.running + s.gate.sem.value + FairSemaphore.count .granted s.gate.sem.waiters = maxConcurrent ∧
    (0 < s.gate.sem.value → ∀ i, (i, .pending) ∈ s.gate.sem.waiters → ∃ j, (j, .granted) ∈ s.gate.sem.waiters) ∧
    ((∀ task ∈ s.tasks, task.isFinished = true) → s.gate = .new maxConcurrent) := by
  have hAccounted := accounted_of_run run
  refine ⟨hAccounted.running, ?_, ?_, hAccounted.pending_or_granted, hAccounted.gate_of_finished⟩
  · rw [hAccounted.waiting, hAccounted.queue, length_positions]
  · have hTotal := hAccounted.slots.total
    rw [hAccounted.running]
    omega

/-- One slot, and three requests. The second is cancelled while it waits, and the third,
a stream, gets the slot of the first. -/
def oneSlot : List Event :=
  let req (stream : Bool) : CompletionRequest := ⟨some "hello", none, stream⟩
  [.arrive (req false) false, .arrive (req false) false, .arrive (req true) false, .cancel 1, .wake 0, .unwind 1,
    .resume 2 false, .wake 2, .close 2]

/-- A mock with one slot, after some events that can happen. -/
def afterEvents (events : List Event) (hSome : (events.foldlM (act 20) (new 1 256)).isSome) : Server :=
  (events.foldlM (act 20) (new 1 256)).get hSome

theorem run_afterEvents {events : List Event} (hSome : (events.foldlM (act 20) (new 1 256)).isSome) :
    Run (Step 20) (new 1 256) events (afterEvents events hSome) :=
  .of_foldlM (Option.some_get hSome).symm

theorem slots_conserved_oneSlot :
    let s := afterEvents oneSlot (by decide +kernel)
    s.tasks = [.finished (.answered false), .finished .cancelled, .finished (.answered true)] ∧ s.gate = .new 1 := by
  intro s
  have run : Run (Step 20) (new 1 256) oneSlot s := run_afterEvents _
  exact ⟨by decide +kernel, (slots_conserved run).2.2.2.2 (by decide +kernel)⟩

/-- First come, first served. While a request waits without a grant, none that came
later has begun or was granted a slot, in every order of events. -/
theorem first_come_first_served
    (run : Run (Step tokensPerRequest) (new maxConcurrent prefixCacheSize) events s) {i j : Nat} {task : Task}
    (hPending : (i, .pending) ∈ s.gate.sem.waiters) (hLater : i < j) (hTask : s.tasks[j]? = some task) :
    task.begun = false ∧ (j, .granted) ∉ s.gate.sem.waiters := by
  have hAccounted := accounted_of_run run
  have hSorted : s.gate.sem.queue.Pairwise (· < ·) := hAccounted.queue ▸ positions_sorted _ _
  refine ⟨hAccounted.order i j task hPending hLater hTask, fun hGranted => ?_⟩
  exact absurd hLater (lt_asymm (hAccounted.slots.lt_of_granted hSorted hPending hGranted))

theorem first_come_first_served_oneSlot :
    let s := afterEvents (oneSlot.take 3) (by decide +kernel)
    (1, .pending) ∈ s.gate.sem.waiters ∧ (2, .granted) ∉ s.gate.sem.waiters := by
  intro s
  have run : Run (Step 20) (new 1 256) (oneSlot.take 3) s := run_afterEvents _
  have hPending : (1, .pending) ∈ s.gate.sem.waiters := by decide +kernel
  have hTask : s.tasks[2]? = some (.waiting ⟨some "hello", none, true⟩) := by decide +kernel
  exact ⟨hPending, (first_come_first_served run hPending (by decide) hTask).2⟩

end Server

end InferenceRouter.MockBackend
