import InferenceRouter.Benchmark.RateLimiter
import InferenceRouter.Routing.Basic
import InferenceRouter.Semantics.FairSemaphore
import InferenceRouter.Semantics.Population
import InferenceRouter.Semantics.Run

/-! The load generator. `run_benchmark` spawns a task for each request, and all of them
run on one event loop, in pieces from one `await` to the next. What the router answers,
when timers fire and which task goes on next is up to the environment. -/
namespace InferenceRouter

open Semantics

structure BenchmarkConfig where
  concurrency : Nat
  totalRequests : Nat
  /-- 0 for no limit. -/
  rpsLimit : ℚ
  /-- 0 to send `totalRequests` instead. -/
  durationSecs : ℚ
  strategy : String
  stream : Bool
  /-- Distinct system prompts; without any there is a single default. -/
  prefixPool : Int
  promptPool : List String

namespace BenchmarkConfig

variable (config : BenchmarkConfig)

def system (variant : Nat) : String :=
  if 0 < config.prefixPool then "You are assistant variant " ++ toString variant ++ ". Be concise."
  else "You are a helpful assistant."

/-- The body that `send_request` posts. -/
def body (variant : Nat) (prompt : String) : Json :=
  .object
    [("model", .string "mock-model"),
      ("messages", .array
        [.object [("role", .string "system"), ("content", .string (config.system variant))],
          .object [("role", .string "user"), ("content", .string prompt)]]),
      ("max_tokens", .number "50"),
      ("stream", .bool config.stream)]

/-- The variants that `random.randrange` draws from; without a pool none is drawn. -/
def variants : Nat := if 0 < config.prefixPool then config.prefixPool.toNat else 1

end BenchmarkConfig

/-- The result of one request, but for its times. -/
structure RequestResult where
  status : Nat
  backend : String
  strategy : String
  error : Option String
  deriving DecidableEq

/-- What the request in `send_request` comes to. -/
inductive Reply where
  | answered (status : Nat) (backend : Option String)
  | failed (message : String)

def Reply.result (config : BenchmarkConfig) : Reply → RequestResult
  | .answered status backend => ⟨status, backend.getD "unknown", config.strategy, none⟩
  | .failed message => ⟨0, "error", config.strategy, some message⟩

/-- The variables of `rate_limit_refiller`. -/
structure Refiller where
  credit : ℚ
  last : ℚ
  deriving DecidableEq

/-- One turn of its loop, and the tokens that it releases. -/
def Refiller.wake (rps : ℚ) (self : Refiller) (sleep : Sleep) : Nat × Refiller :=
  let now := self.last + sleep.secs
  let credit := min (self.credit + rps * (now - self.last)) rps
  let tokens := truncate credit
  (tokens.toNat, ⟨credit - tokens, now⟩)

namespace LoadTest

/-- Where `send_request` stands. -/
inductive Task where
  | created
  /-- In `semaphore.acquire`. -/
  | queued
  /-- In `rate_limiter.acquire`, with a slot. -/
  | limited
  | posting
  | returned (result : RequestResult)
  /-- There was no prompt to choose from. -/
  | raised
  /-- A cancelled task may have sent its request. -/
  | cancelled (sent : Bool)
  deriving DecidableEq

namespace Task

def result? : Task → Option RequestResult
  | .returned result => some result
  | _ => none

def isDone : Task → Bool
  | .returned _ | .raised | .cancelled _ => true
  | _ => false

end Task

/-- Where `run_benchmark` stands. -/
inductive Main where
  /-- At the head of its loop. -/
  | looping (pool : List Nat)
  /-- Waiting for the first task of the pool, for a while. -/
  | waiting (pool : List Nat)
  /-- After the deadline, waiting for all of them, for a while. -/
  | draining (pool : List Nat)
  /-- Waiting for the tasks it has cancelled. -/
  | gathering (pending : List Nat)
  /-- Without a duration, waiting for all tasks. -/
  | collecting
  | returned
  | raised
  deriving DecidableEq

end LoadTest

structure Limiter where
  tokens : FairSemaphore Nat
  refiller : Refiller
  deriving DecidableEq

/-- The semaphores, the tasks in the order they were spawned, and the results so far. -/
structure LoadTest where
  semaphore : FairSemaphore Nat
  rateLimiter : Option Limiter
  tasks : List LoadTest.Task
  main : LoadTest.Main
  results : List RequestResult
  deriving DecidableEq

namespace LoadTest

inductive Event where
  /-- A task runs for the first time. -/
  | start (task : Nat)
  /-- A task goes on that was granted a slot. -/
  | slot (task : Nat)
  /-- A task goes on that was granted a token. -/
  | token (task : Nat)
  | respond (task : Nat) (reply : Reply)
  /-- A cancelled task goes on, by leaving. -/
  | unwind (task : Nat)
  | wake (sleep : Sleep)
  /-- The main task reads the clock at the head of its loop. -/
  | check (expired : Bool)
  /-- The main task goes on with the tasks of its pool that are done, in the order in
  which the set gives them. -/
  | waited (order : List Nat)
  | gathered

def new (config : BenchmarkConfig) : LoadTest where
  semaphore := .new config.concurrency
  rateLimiter := if 0 < config.rpsLimit then some ⟨.new 0, ⟨0, 0⟩⟩ else none
  tasks := if 0 < config.durationSecs then [] else List.replicate config.totalRequests .created
  main := if 0 < config.durationSecs then .looping [] else .collecting
  results := []

/-- A task with a slot asks for a token, if it needs one. -/
def enter (self : LoadTest) (task : Nat) : LoadTest :=
  match self.rateLimiter with
  | none => { self with tasks := self.tasks.set task .posting }
  | some limiter =>
      let (acquired, tokens) := limiter.tokens.acquire task
      { self with
        rateLimiter := some { limiter with tokens }
        tasks := self.tasks.set task (if acquired then .posting else .limited) }

/-- A task that has a slot comes to its end. -/
def leave (self : LoadTest) (task : Nat) (last : Task) : LoadTest :=
  { self with semaphore := self.semaphore.release, tasks := self.tasks.set task last }

def begin (config : BenchmarkConfig) (self : LoadTest) (task : Nat) : LoadTest :=
  if config.promptPool = [] then { self with tasks := self.tasks.set task .raised }
  else
    let (acquired, semaphore) := self.semaphore.acquire task
    let self := { self with semaphore }
    if acquired then self.enter task else { self with tasks := self.tasks.set task .queued }

/-- A cancelled task leaves from where it waits. -/
def unwind (self : LoadTest) (task : Nat) : Option LoadTest :=
  match self.tasks[task]? with
  | some .created => some { self with tasks := self.tasks.set task (.cancelled false) }
  | some .queued =>
      if self.semaphore.isPending task then none
      else
        some { self with
          semaphore := self.semaphore.unwind task, tasks := self.tasks.set task (.cancelled false) }
  | some .limited =>
      match self.rateLimiter with
      | some limiter =>
          if limiter.tokens.isPending task then none
          else
            some (leave { self with rateLimiter := some { limiter with tokens := limiter.tokens.unwind task } } task
              (.cancelled false))
      | none => none
  | some .posting => some (self.leave task (.cancelled true))
  | _ => none

/-- One more task, and its place in the pool. -/
def spawn : List Nat × List Task → List Nat × List Task
  | (pool, tasks) => (pool ++ [tasks.length], tasks ++ [.created])

/-- `_top_up`: spawn while there are fewer than `target`. -/
def topUp (target : Nat) (pool : List Nat) (tasks : List Task) : List Nat × List Task :=
  spawn^[target - pool.length] (pool, tasks)

def isDone (self : LoadTest) (task : Nat) : Bool := self.tasks[task]?.any Task.isDone

/-- `results.extend(t.result() for t in done)`, or none where a task raised. -/
def collect (self : LoadTest) (order : List Nat) : Option LoadTest := do
  let done ← order.mapM fun i => self.tasks[i]?.bind Task.result?
  some { self with results := self.results ++ done }

/-- `t.cancel()` for each of them. -/
def cancelAll (self : LoadTest) (pending : List Nat) : LoadTest :=
  { self with
    semaphore := pending.foldl FairSemaphore.cancel self.semaphore
    rateLimiter := self.rateLimiter.map fun limiter =>
      { limiter with tokens := pending.foldl FairSemaphore.cancel limiter.tokens } }

/-- One piece of one task, of the refiller or of the main task, if it can go on that way. -/
def act (config : BenchmarkConfig) (self : LoadTest) : Event → Option LoadTest
  | .start task => if self.tasks[task]? = some .created then some (self.begin config task) else none
  | .slot task =>
      if self.tasks[task]? = some .queued ∧ self.semaphore.isGranted task then
        some (enter { self with semaphore := self.semaphore.resume task } task)
      else none
  | .token task =>
      match self.rateLimiter with
      | some limiter =>
          if self.tasks[task]? = some .limited ∧ limiter.tokens.isGranted task then
            some { self with
              rateLimiter := some { limiter with tokens := limiter.tokens.resume task }
              tasks := self.tasks.set task .posting }
          else none
      | none => none
  | .respond task reply =>
      if self.tasks[task]? = some .posting then some (self.leave task (.returned (reply.result config))) else none
  | .unwind task =>
      match self.main with
      | .gathering pending => if task ∈ pending then self.unwind task else none
      | _ => none
  | .wake sleep =>
      match self.rateLimiter with
      | some limiter =>
          -- the refiller is cancelled before `run_benchmark` returns
          if self.main = .returned then none
          else
            let (tokens, refiller) := limiter.refiller.wake config.rpsLimit sleep
            some { self with rateLimiter := some ⟨FairSemaphore.release^[tokens] limiter.tokens, refiller⟩ }
      | none => none
  | .check expired =>
      match self.main with
      | .looping pool =>
          if expired then some { self with main := if pool = [] then .returned else .draining pool }
          else
            let (pool, tasks) := topUp config.concurrency pool self.tasks
            -- `asyncio.wait` refuses an empty set
            some { self with tasks, main := if pool = [] then .raised else .waiting pool }
      | _ => none
  | .waited order =>
      match self.main with
      | .waiting pool =>
          if order.Perm (pool.filter self.isDone) then
            some <| match self.collect order with
            | some collected => { collected with main := .looping (pool.filter fun i => !self.isDone i) }
            | none => { self with main := .raised }
          else none
      | .draining pool =>
          if order.Perm (pool.filter self.isDone) then
            let pending := pool.filter fun i => !self.isDone i
            some <| match self.collect order with
            | some collected => { collected.cancelAll pending with main := .gathering pending }
            | none => { self with main := .raised }
          else none
      | _ => none
  | .gathered =>
      match self.main with
      | .gathering pending => if pending.all self.isDone then some { self with main := .returned } else none
      | .collecting =>
          if self.tasks.any (· = .raised) then some { self with main := .raised }
          else
            match self.tasks.mapM Task.result? with
            | some results => some { self with results, main := .returned }
            | none => none
      | _ => none

/-- One event of the load generator. -/
def Step (config : BenchmarkConfig) (s : LoadTest) (event : Event) (t : LoadTest) : Prop :=
  s.act config event = some t

/-- What one event can do, and when. -/
inductive Transition (config : BenchmarkConfig) (s : LoadTest) : LoadTest → Prop where
  | raised (i : Nat) (hTask : s.tasks[i]? = some .created) :
      Transition config s { s with tasks := s.tasks.set i .raised }
  | admitted (i : Nat) (hTask : s.tasks[i]? = some .created) (hFree : (s.semaphore.acquire i).1 = true) :
      Transition config s (enter { s with semaphore := (s.semaphore.acquire i).2 } i)
  | queued (i : Nat) (hTask : s.tasks[i]? = some .created) (hLocked : (s.semaphore.acquire i).1 = false) :
      Transition config s { s with semaphore := (s.semaphore.acquire i).2, tasks := s.tasks.set i .queued }
  | resumed (i : Nat) (hTask : s.tasks[i]? = some .queued) (hGranted : (i, .granted) ∈ s.semaphore.waiters) :
      Transition config s (enter { s with semaphore := s.semaphore.resume i } i)
  | sent (i : Nat) {limiter : Limiter} (hLimiter : s.rateLimiter = some limiter)
      (hTask : s.tasks[i]? = some .limited) (hGranted : (i, .granted) ∈ limiter.tokens.waiters) :
      Transition config s
        { s with
          rateLimiter := some { limiter with tokens := limiter.tokens.resume i }
          tasks := s.tasks.set i .posting }
  | answered (i : Nat) (result : RequestResult) (hTask : s.tasks[i]? = some .posting) :
      Transition config s (s.leave i (.returned result))
  | droppedNew (i : Nat) (hTask : s.tasks[i]? = some .created) :
      Transition config s { s with tasks := s.tasks.set i (.cancelled false) }
  | droppedQueued (i : Nat) (hTask : s.tasks[i]? = some .queued)
      (hAnswered : (i, .pending) ∉ s.semaphore.waiters) :
      Transition config s
        { s with semaphore := s.semaphore.unwind i, tasks := s.tasks.set i (.cancelled false) }
  | droppedLimited (i : Nat) {limiter : Limiter} (hLimiter : s.rateLimiter = some limiter)
      (hTask : s.tasks[i]? = some .limited) (hAnswered : (i, .pending) ∉ limiter.tokens.waiters) :
      Transition config s
        (leave { s with rateLimiter := some { limiter with tokens := limiter.tokens.unwind i } } i (.cancelled false))
  | droppedPosting (i : Nat) (hTask : s.tasks[i]? = some .posting) :
      Transition config s (s.leave i (.cancelled true))
  | refilled (sleep : Sleep) {limiter : Limiter} (hLimiter : s.rateLimiter = some limiter) :
      Transition config s
        { s with
          rateLimiter := some ⟨FairSemaphore.release^[(limiter.refiller.wake config.rpsLimit sleep).1] limiter.tokens,
            (limiter.refiller.wake config.rpsLimit sleep).2⟩ }
  | expired {pool : List Nat} (hMain : s.main = .looping pool) :
      Transition config s { s with main := if pool = [] then .returned else .draining pool }
  | toppedUp {pool : List Nat} (hMain : s.main = .looping pool) :
      Transition config s
        { s with
          tasks := (topUp config.concurrency pool s.tasks).2
          main :=
            if (topUp config.concurrency pool s.tasks).1 = [] then .raised
            else .waiting (topUp config.concurrency pool s.tasks).1 }
  | failed : Transition config s { s with main := .raised }
  | waited {pool order : List Nat} {collected : LoadTest} (hMain : s.main = .waiting pool)
      (hOrder : order.Perm (pool.filter s.isDone)) (hCollected : s.collect order = some collected) :
      Transition config s { collected with main := .looping (pool.filter fun i => !s.isDone i) }
  | drained {pool order : List Nat} {collected : LoadTest} (hMain : s.main = .draining pool)
      (hOrder : order.Perm (pool.filter s.isDone)) (hCollected : s.collect order = some collected) :
      Transition config s
        { collected.cancelAll (pool.filter fun i => !s.isDone i) with
          main := .gathering (pool.filter fun i => !s.isDone i) }
  | gathered {pending : List Nat} (hMain : s.main = .gathering pending) (hDone : pending.all s.isDone = true) :
      Transition config s { s with main := .returned }
  | finished {results : List RequestResult} (hMain : s.main = .collecting)
      (hResults : s.tasks.mapM Task.result? = some results) :
      Transition config s { s with results, main := .returned }

theorem transition_begin {config : BenchmarkConfig} {s : LoadTest} {i : Nat}
    (hTask : s.tasks[i]? = some .created) : Transition config s (s.begin config i) := by
  unfold begin
  split
  · exact .raised i hTask
  · cases hAcquired : (s.semaphore.acquire i).1 with
    | true =>
        simp only [hAcquired, if_true]
        exact .admitted i hTask hAcquired
    | false =>
        simp only [hAcquired]
        exact .queued i hTask hAcquired

theorem transition_unwind {config : BenchmarkConfig} {s t : LoadTest} {i : Nat} (h : s.unwind i = some t) :
    Transition config s t := by
  unfold unwind at h
  split at h
  · rename_i hTask
    cases h
    exact .droppedNew i hTask
  · rename_i hTask
    split at h
    · cases h
    · rename_i hAnswered
      cases h
      exact .droppedQueued i hTask fun hPending => hAnswered (FairSemaphore.isPending_iff.mpr hPending)
  · rename_i hTask
    split at h
    · rename_i limiter hLimiter
      split at h
      · cases h
      · rename_i hAnswered
        cases h
        exact .droppedLimited i hLimiter hTask fun hPending => hAnswered (FairSemaphore.isPending_iff.mpr hPending)
    · cases h
  · rename_i hTask
    cases h
    exact .droppedPosting i hTask
  · cases h

theorem Step.transition {config : BenchmarkConfig} {s t : LoadTest} {event : Event} (h : Step config s event t) :
    Transition config s t := by
  unfold Step at h
  cases event with
  | start i =>
      obtain ⟨hTask, hNext⟩ := Option.ite_none_right_eq_some.mp h
      cases hNext
      exact transition_begin hTask
  | slot i =>
      obtain ⟨⟨hTask, hGranted⟩, hNext⟩ := Option.ite_none_right_eq_some.mp h
      cases hNext
      exact .resumed i hTask (FairSemaphore.isGranted_iff.mp hGranted)
  | token i =>
      rw [act] at h
      split at h
      · rename_i limiter hLimiter
        obtain ⟨⟨hTask, hGranted⟩, hNext⟩ := Option.ite_none_right_eq_some.mp h
        cases hNext
        exact .sent i hLimiter hTask (FairSemaphore.isGranted_iff.mp hGranted)
      · cases h
  | respond i reply =>
      obtain ⟨hTask, hNext⟩ := Option.ite_none_right_eq_some.mp h
      cases hNext
      exact .answered i _ hTask
  | unwind i =>
      rw [act] at h
      split at h
      · exact transition_unwind (Option.ite_none_right_eq_some.mp h).2
      · cases h
  | wake sleep =>
      rw [act] at h
      split at h
      · rename_i limiter hLimiter
        obtain ⟨-, hNext⟩ := Option.ite_none_left_eq_some.mp h
        cases hNext
        exact .refilled sleep hLimiter
      · cases h
  | check expired =>
      rw [act] at h
      split at h
      · rename_i pool hMain
        split at h
        · cases h
          exact .expired hMain
        · cases h
          exact .toppedUp hMain
      · cases h
  | waited order =>
      rw [act] at h
      split at h
      · rename_i pool hMain
        obtain ⟨hOrder, hNext⟩ := Option.ite_none_right_eq_some.mp h
        cases hCollected : s.collect order with
        | none =>
            simp only [hCollected, Option.some.injEq] at hNext
            exact hNext ▸ .failed
        | some collected =>
            simp only [hCollected, Option.some.injEq] at hNext
            exact hNext ▸ .waited hMain hOrder hCollected
      · rename_i pool hMain
        obtain ⟨hOrder, hNext⟩ := Option.ite_none_right_eq_some.mp h
        cases hCollected : s.collect order with
        | none =>
            simp only [hCollected, Option.some.injEq] at hNext
            exact hNext ▸ .failed
        | some collected =>
            simp only [hCollected, Option.some.injEq] at hNext
            exact hNext ▸ .drained hMain hOrder hCollected
      · cases h
  | gathered =>
      rw [act] at h
      split at h
      · rename_i pending hMain
        obtain ⟨hDone, hNext⟩ := Option.ite_none_right_eq_some.mp h
        cases hNext
        exact .gathered hMain hDone
      · rename_i hMain
        split at h
        · cases h
          exact .failed
        · split at h
          · rename_i results hResults
            cases h
            exact .finished hMain hResults
          · cases h
      · cases h

end LoadTest

end InferenceRouter
