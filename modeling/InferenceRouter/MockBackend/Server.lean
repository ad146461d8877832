import InferenceRouter.MockBackend.PrefixCache
import InferenceRouter.Semantics.FairSemaphore
import InferenceRouter.Semantics.Population

/-! The mock backend while it serves many requests. Each is a task of one event
loop, which goes on in one piece from one `await` to the next; between two such
pieces any other tasks may run, and a task may be cancelled at any `await`. -/
namespace InferenceRouter.MockBackend

open Semantics

/-- Bounded concurrency that counts how many requests are waiting for a slot. -/
@[ext] structure Gate where
  sem : FairSemaphore Nat
  waiting : Int
  running : Int
  deriving DecidableEq

namespace Gate

def new (maxConcurrent : Nat) : Gate where
  sem := .new maxConcurrent
  waiting := 0
  running := 0

/-- `acquire` up to where it has to wait, or to its end. -/
def acquire (self : Gate) (task : Nat) : Bool × Gate :=
  let self := { self with waiting := self.waiting + 1 }
  let (acquired, sem) := self.sem.acquire task
  let self := { self with sem }
  if acquired then (true, { self with waiting := self.waiting - 1, running := self.running + 1 })
  else (false, self)

/-- The rest of `acquire`, with a slot. -/
def resume (self : Gate) (task : Nat) : Gate where
  sem := self.sem.resume task
  waiting := self.waiting - 1
  running := self.running + 1

/-- The rest of `acquire`, when the task was cancelled. -/
def unwind (self : Gate) (task : Nat) : Gate :=
  { self with sem := self.sem.unwind task, waiting := self.waiting - 1 }

def cancel (self : Gate) (task : Nat) : Gate := { self with sem := self.sem.cancel task }

def release (self : Gate) : Gate :=
  { self with sem := self.sem.release, running := self.running - 1 }

end Gate

structure ChatMessage where
  role : String
  content : String
  deriving DecidableEq

/-- The fields of a request that the mock reads. -/
structure CompletionRequest where
  prompt : Option String
  messages : Option (List ChatMessage)
  stream : Bool
  deriving DecidableEq

def prefixKeyChars : Nat := 64

/-- No messages at all count as none. -/
def prefixKey (req : CompletionRequest) : String :=
  let text :=
    match req.messages with
    | some (first :: more) => " ".intercalate (((first :: more).take 2).map ChatMessage.content)
    | _ => req.prompt.getD ""
  String.ofList (text.toList.take prefixKeyChars)

/-- How a task ended. A cancelled one may have begun or not. -/
inductive Outcome where
  | failed
  | answered (hit : Bool)
  | cancelled
  | aborted (hit : Bool)
  deriving DecidableEq

/-- Where `handle_completion` stands. -/
inductive Task where
  /-- In `gate.acquire`. -/
  | waiting (req : CompletionRequest)
  /-- Asleep for the simulated latency. -/
  | generating (req : CompletionRequest) (hit : Bool)
  /-- The response is a stream, which has taken over the slot. -/
  | streaming (hit : Bool)
  | finished (outcome : Outcome)
  deriving DecidableEq

/-- The gate, the cache, the totals of `state`, and the tasks by the order they came. -/
structure Server where
  gate : Gate
  prefixCache : PrefixCache
  totalRequests : Nat
  totalPromptTokens : Nat
  totalGenerationTokens : Nat
  tasks : List Task
  deriving DecidableEq

inductive Event where
  /-- A request comes. Whether its draw is below the fail rate shows if it gets a slot. -/
  | arrive (req : CompletionRequest) (fails : Bool)
  /-- A task that was granted a slot goes on. -/
  | resume (task : Nat) (fails : Bool)
  /-- A task that waits for a slot is cancelled. -/
  | cancel (task : Nat)
  /-- A cancelled task goes on, by leaving. -/
  | unwind (task : Nat)
  /-- The latency of a task is over. -/
  | wake (task : Nat)
  /-- A stream ends, is cancelled or breaks. -/
  | close (task : Nat)
  deriving DecidableEq

namespace Server

def new (maxConcurrent : Nat) (prefixCacheSize : Int) : Server where
  gate := .new maxConcurrent
  prefixCache := .new prefixCacheSize
  totalRequests := 0
  totalPromptTokens := 0
  totalGenerationTokens := 0
  tasks := []

/-- A task ends that has a slot. -/
def finish (self : Server) (task : Nat) (outcome : Outcome) : Server :=
  { self with gate := self.gate.release, tasks := self.tasks.set task (.finished outcome) }

/-- `handle_completion` from the gate to the simulated latency. -/
def start (self : Server) (task : Nat) (req : CompletionRequest) (fails : Bool) : Server :=
  if fails then self.finish task .failed
  else
    let self := { self with totalRequests := self.totalRequests + 1 }
    let (hit, prefixCache) := self.prefixCache.lookup (prefixKey req)
    { self with prefixCache, tasks := self.tasks.set task (.generating req hit) }

/-- `handle_completion` from the simulated latency on. -/
def respond (tokensPerRequest : Nat) (self : Server) (task : Nat) (req : CompletionRequest) (hit : Bool) : Server :=
  let self :=
    { self with
      totalPromptTokens := self.totalPromptTokens + 10
      totalGenerationTokens := self.totalGenerationTokens + tokensPerRequest }
  if req.stream then { self with tasks := self.tasks.set task (.streaming hit) }
  else self.finish task (.answered hit)

/-- One piece of one task, if it can go on that way. A task that was granted a slot
can be cancelled before it goes on; nothing shows until it leaves. -/
def act (tokensPerRequest : Nat) (self : Server) : Event → Option Server
  | .arrive req fails =>
      let task := self.tasks.length
      let (acquired, gate) := self.gate.acquire task
      let self := { self with gate, tasks := self.tasks ++ [.waiting req] }
      some (if acquired then self.start task req fails else self)
  | .resume task fails =>
      match self.tasks[task]? with
      | some (.waiting req) =>
          if (task, .granted) ∈ self.gate.sem.waiters then
            some ({ self with gate := self.gate.resume task }.start task req fails)
          else none
      | _ => none
  | .cancel task =>
      match self.tasks[task]? with
      | some (.waiting _) => some { self with gate := self.gate.cancel task }
      | _ => none
  | .unwind task =>
      match self.tasks[task]? with
      | some (.waiting _) =>
          if (task, .pending) ∈ self.gate.sem.waiters then none
          else
            some { self with gate := self.gate.unwind task, tasks := self.tasks.set task (.finished .cancelled) }
      | some (.generating _ hit) => some (self.finish task (.aborted hit))
      | _ => none
  | .wake task =>
      match self.tasks[task]? with
      | some (.generating req hit) => some (self.respond tokensPerRequest task req hit)
      | _ => none
  | .close task =>
      match self.tasks[task]? with
      | some (.streaming hit) => some (self.finish task (.answered hit))
      | _ => none

/-- One event of the server. -/
def Step (tokensPerRequest : Nat) (s : Server) (event : Event) (t : Server) : Prop :=
  s.act tokensPerRequest event = some t

/-- A new task has got a slot at once. -/
def enter (self : Server) (req : CompletionRequest) : Server :=
  { self with
    gate := ⟨(self.gate.sem.acquire self.tasks.length).2, self.gate.waiting, self.gate.running + 1⟩
    tasks := self.tasks ++ [.waiting req] }

/-- A new task waits at the gate. -/
def enqueue (self : Server) (req : CompletionRequest) : Server :=
  { self with
    gate := ⟨(self.gate.sem.acquire self.tasks.length).2, self.gate.waiting + 1, self.gate.running⟩
    tasks := self.tasks ++ [.waiting req] }

/-- What an event can do, and when. -/
inductive Transition (tokensPerRequest : Nat) (s : Server) : Event → Server → Prop where
  | admitted (req : CompletionRequest) (fails : Bool) (hFree : (s.gate.sem.acquire s.tasks.length).1 = true) :
      Transition tokensPerRequest s (.arrive req fails) ((s.enter req).start s.tasks.length req fails)
  | enqueued (req : CompletionRequest) (fails : Bool) (hLocked : (s.gate.sem.acquire s.tasks.length).1 = false) :
      Transition tokensPerRequest s (.arrive req fails) (s.enqueue req)
  | resumed (i : Nat) (fails : Bool) {req : CompletionRequest} (hTask : s.tasks[i]? = some (.waiting req))
      (hGranted : (i, .granted) ∈ s.gate.sem.waiters) :
      Transition tokensPerRequest s (.resume i fails) (start { s with gate := s.gate.resume i } i req fails)
  | cancelled (i : Nat) {req : CompletionRequest} (hTask : s.tasks[i]? = some (.waiting req)) :
      Transition tokensPerRequest s (.cancel i) { s with gate := s.gate.cancel i }
  | left (i : Nat) {req : CompletionRequest} (hTask : s.tasks[i]? = some (.waiting req))
      (hAnswered : (i, .pending) ∉ s.gate.sem.waiters) :
      Transition tokensPerRequest s (.unwind i)
        { s with gate := s.gate.unwind i, tasks := s.tasks.set i (.finished .cancelled) }
  | aborted (i : Nat) {req : CompletionRequest} {hit : Bool} (hTask : s.tasks[i]? = some (.generating req hit)) :
      Transition tokensPerRequest s (.unwind i) (s.finish i (.aborted hit))
  | responded (i : Nat) {req : CompletionRequest} {hit : Bool} (hTask : s.tasks[i]? = some (.generating req hit)) :
      Transition tokensPerRequest s (.wake i) (s.respond tokensPerRequest i req hit)
  | closed (i : Nat) {hit : Bool} (hTask : s.tasks[i]? = some (.streaming hit)) :
      Transition tokensPerRequest s (.close i) (s.finish i (.answered hit))

theorem Step.transition {tokensPerRequest : Nat} {s t : Server} {event : Event}
    (h : Step tokensPerRequest s event t) : Transition tokensPerRequest s event t := by
  unfold Step at h
  cases event with
  | arrive req fails =>
      rw [act, Option.some.injEq] at h
      cases hAcquired : (s.gate.sem.acquire s.tasks.length).1 with
      | true =>
          have hGate : s.gate.acquire s.tasks.length = (true, (s.enter req).gate) := by
            simp [Gate.acquire, enter, hAcquired]
          rw [hGate] at h
          exact h ▸ .admitted req fails hAcquired
      | false =>
          have hGate : s.gate.acquire s.tasks.length = (false, (s.enqueue req).gate) := by
            simp [Gate.acquire, enqueue, hAcquired]
          rw [hGate] at h
          exact h ▸ .enqueued req fails hAcquired
  | resume i fails =>
      rw [act] at h
      split at h
      · rename_i req hTask
        split at h
        · rename_i hGranted
          cases h
          exact .resumed i fails hTask hGranted
        · cases h
      · cases h
  | cancel i =>
      rw [act] at h
      split at h
      · rename_i req hTask
        cases h
        exact .cancelled i hTask
      · cases h
  | unwind i =>
      rw [act] at h
      split at h
      · rename_i req hTask
        split at h
        · cases h
        · rename_i hAnswered
          cases h
          exact .left i hTask hAnswered
      · rename_i req hit hTask
        cases h
        exact .aborted i hTask
      · cases h
  | wake i =>
      rw [act] at h
      split at h
      · rename_i req hit hTask
        cases h
        exact .responded i hTask
      · cases h
  | close i =>
      rw [act] at h
      split at h
      · rename_i hit hTask
        cases h
        exact .closed i hTask
      · cases h

end Server

end InferenceRouter.MockBackend
