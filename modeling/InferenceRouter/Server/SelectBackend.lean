import InferenceRouter.CircuitBreaker.Control
import InferenceRouter.Routing.Strategy
import InferenceRouter.Semantics.Interleaving

/-! `select_backend`, one access to a shared object at a time. Every breaker call,
every load of an atomic and every question to the strategy is one operation, and
other requests, health checks and scrapes may come before any of them. -/
namespace InferenceRouter

open Semantics Program

/-- The backends of a router by their ids, which are distinct. -/
structure BackendPool where
  backends : List BackendId
  nodup : backends.Nodup
  /-- Backends reporting more waiting requests than this are not routable. -/
  maxQueueDepth : Nat

namespace BackendPool

/-- The pool of `build_backends`: the ids are the positions in the configuration. -/
def enumerate (numBackends maxQueueDepth : Nat) : BackendPool where
  backends := List.range numBackends
  nodup := List.nodup_range
  maxQueueDepth := maxQueueDepth

end BackendPool

/-- What a selection does to shared objects. -/
inductive SelectionOp where
  | isHealthy (backend : BackendId)
  | breakerIsRoutable (backend : BackendId)
  | queueDepth (backend : BackendId)
  | select (incoming : IncomingRequest) (candidates : List BackendId)
  | tryBegin (backend : BackendId)

abbrev SelectionOp.Answer : SelectionOp → Type
  | .isHealthy _ => Bool
  | .breakerIsRoutable _ => Bool
  | .queueDepth _ => Nat
  | .select _ _ => Option BackendId
  | .tryBegin _ => Option Admission

abbrev Selection := Program SelectionOp SelectionOp.Answer

abbrev access (op : SelectionOp) : Selection op.Answer := call op

/-- Healthy per active checks, and the breaker lets traffic through. The breaker
of an unhealthy backend is not asked. -/
def Backend.isRoutable (backend : BackendId) : Selection Bool := do
  let healthy ← access (.isHealthy backend)
  if healthy then access (.breakerIsRoutable backend) else pure false

namespace BackendPool

def isUnderLimit (self : BackendPool) (backend : BackendId) : Selection Bool := do
  let depth ← access (.queueDepth backend)
  pure (decide (depth ≤ self.maxQueueDepth))

/-- The queue limit is soft: when every live backend is over it they all stay. -/
def routable (self : BackendPool) : Selection (List BackendId) := do
  let available ← filter Backend.isRoutable self.backends
  let underLimit ← filter self.isUnderLimit available
  pure (if underLimit.isEmpty then available else underLimit)

end BackendPool

/-- `retain(|b| b.id != id)`. -/
def without (candidates : List BackendId) (id : BackendId) : List BackendId :=
  candidates.filter fun b => b ≠ id

theorem mem_without_iff {candidates : List BackendId} {id b : BackendId} :
    b ∈ without candidates id ↔ b ∈ candidates ∧ b ≠ id := by
  simp [without]

theorem length_without_lt {candidates : List BackendId} {id : BackendId} (h : id ∈ candidates) :
    (without candidates id).length < candidates.length :=
  List.length_filter_lt_length_iff_exists.mpr ⟨id, h, by simp⟩

/-- The loop of `select_backend`. A backend that refuses is dropped from the
candidates; an id outside them ends the selection. -/
def tryCandidates (incoming : IncomingRequest) (candidates : List BackendId) :
    Selection (Option (BackendId × Admission)) :=
  if candidates.isEmpty then pure none
  else do
    let choice ← access (.select incoming candidates)
    match choice with
    | none => pure none
    | some id =>
        if _ : id ∈ candidates then do
          let answer ← access (.tryBegin id)
          match answer with
          | some adm => pure (some (id, adm))
          | none => tryCandidates incoming (without candidates id)
        else pure none
termination_by candidates.length
decreasing_by
  exact length_without_lt ‹_›

def selectBackend (pool : BackendPool) (incoming : IncomingRequest) :
    Selection (Option (BackendId × Admission)) := do
  let candidates ← pool.routable
  tryCandidates incoming candidates

/-- The values of the counters of a backend, as some reader finds them. -/
structure Counters where
  activeConnections : Nat
  ewmaLatencyUs : Nat
  queueDepth : Nat
  kvCacheUsageBp : Nat

def Backend.withCounters (self : Backend) (counters : Counters) : Backend :=
  { self with
    activeConnections := counters.activeConnections
    ewmaLatencyUs := counters.ewmaLatencyUs
    queueDepth := counters.queueDepth
    kvCacheUsageBp := counters.kvCacheUsageBp }

/-- What a selection shares with everything else: the backends, the changing
part of the strategy, and the clock reading that the next breaker call takes. -/
structure Shared (State : Type) where
  clock : Nat
  backends : BackendId → Backend
  backends_id : ∀ b, (backends b).id = b
  strategy : State

namespace Shared

variable {State : Type}

def modify (self : Shared State) (backend : BackendId) (f : Backend → Backend)
    (hId : ∀ b, (f b).id = b.id) : Shared State :=
  { self with
    backends := Function.update self.backends backend (f (self.backends backend))
    backends_id := by
      intro b
      by_cases hSame : b = backend
      · rw [hSame, Function.update_self, hId, self.backends_id]
      · rw [Function.update_of_ne hSame, self.backends_id] }

def setBreaker (self : Shared State) (backend : BackendId) (breaker : CircuitBreaker) : Shared State :=
  self.modify backend (fun b => { b with breaker }) fun _ => rfl

@[simp] theorem setBreaker_self (self : Shared State) (backend : BackendId) (breaker : CircuitBreaker) :
    (self.setBreaker backend breaker).backends backend = { self.backends backend with breaker } :=
  Function.update_self ..

theorem setBreaker_of_ne (self : Shared State) {backend b : BackendId} (h : b ≠ backend)
    (breaker : CircuitBreaker) : (self.setBreaker backend breaker).backends b = self.backends b :=
  Function.update_of_ne h ..

@[simp] theorem setBreaker_healthy (self : Shared State) (backend b : BackendId)
    (breaker : CircuitBreaker) :
    ((self.setBreaker backend breaker).backends b).healthy = (self.backends b).healthy := by
  by_cases hSame : b = backend
  · rw [hSame, setBreaker_self]
  · rw [setBreaker_of_ne _ hSame]

@[simp] theorem setBreaker_clock (self : Shared State) (backend : BackendId) (breaker : CircuitBreaker) :
    (self.setBreaker backend breaker).clock = self.clock := rfl

end Shared

section Environment

variable {F : Type}

/-- The view a strategy has of its candidates. It reads the counters one by one
while others change them, so they may have any values. -/
def Shared.view {State : Type} (self : Shared State) (counters : BackendId → Counters)
    (candidates : List BackendId) : List Backend :=
  candidates.map fun b => (self.backends b).withCounters (counters b)

theorem Shared.ids_view {State : Type} (self : Shared State) (counters : BackendId → Counters)
    (candidates : List BackendId) : ids (self.view counters candidates) = candidates := by
  simp [ids, view, Backend.withCounters, Function.comp_def, self.backends_id]

/-- Do one operation. A strategy is given a random draw and what it reads. -/
def Shared.perform {strategy : RoutingStrategy F} (draw : F) (counters : BackendId → Counters)
    (self : Shared strategy.State) : (op : SelectionOp) → op.Answer × Shared strategy.State
  | .isHealthy b => ((self.backends b).healthy, self)
  | .breakerIsRoutable b =>
      let (answer, breaker) := (self.backends b).breaker.isRoutable self.clock
      (answer, self.setBreaker b breaker)
  | .queueDepth b => ((self.backends b).queueDepth, self)
  | .select incoming candidates =>
      let (answer, state) :=
        strategy.select self.strategy incoming draw (self.view counters candidates)
      (answer, { self with strategy := state })
  | .tryBegin b =>
      let (answer, breaker) := (self.backends b).breaker.tryBegin self.clock
      (answer, self.setBreaker b breaker)

/-- Some way to do an operation. -/
def Performs (strategy : RoutingStrategy F) (s : Shared strategy.State) (op : SelectionOp)
    (answer : op.Answer) (t : Shared strategy.State) : Prop :=
  ∃ draw counters, s.perform draw counters op = (answer, t)

theorem Shared.performs_perform {strategy : RoutingStrategy F} (draw : F)
    (counters : BackendId → Counters) (self : Shared strategy.State) (op : SelectionOp) :
    Performs strategy self op (self.perform draw counters op).1 (self.perform draw counters op).2 :=
  ⟨draw, counters, rfl⟩

/-- Anything others may do between two operations of a selection. -/
inductive Interference (State : Type) where
  /-- Another request, or an observer, calls the breaker of a backend. -/
  | breaker (backend : BackendId) (e : Event)
  /-- A health check sets the flag of a backend. -/
  | health (backend : BackendId) (healthy : Bool) (failures successes : Nat)
  /-- Other requests and scrapes change the counters of a backend. -/
  | counters (backend : BackendId) (counters : Counters)
  /-- Another request asks the strategy. -/
  | strategy (state : State)
  /-- The next breaker call of this selection reads another instant. -/
  | clock (now : Nat)

def Shared.interfere {State : Type} (self : Shared State) : Interference State → Shared State
  | .breaker backend e => self.setBreaker backend ((self.backends backend).breaker.serve e).2
  | .health backend healthy failures successes =>
      self.modify backend (fun b => { b with
        healthy
        consecutiveHealthFailures := failures
        consecutiveHealthSuccesses := successes }) fun _ => rfl
  | .counters backend counters => self.modify backend (fun b => b.withCounters counters) fun _ => rfl
  | .strategy state => { self with strategy := state }
  | .clock now => { self with clock := now }

/-- A step of others, whatever it is. -/
def Interferes {State : Type} (s : Shared State) (action : Interference State) (t : Shared State) : Prop :=
  t = s.interfere action

/-- A step of others that is no breaker call and no health verdict, and does not
set the clock back. -/
def QuietlyInterferes {State : Type} (s : Shared State) (action : Interference State)
    (t : Shared State) : Prop :=
  t = s.interfere action ∧
    match action with
    | .breaker _ _ | .health _ _ _ _ => False
    | .counters _ _ | .strategy _ => True
    | .clock now => s.clock ≤ now

/-- Executions of a selection among the steps of others. -/
abbrev Selection.Execution {α : Type} (strategy : RoutingStrategy F)
    (Steps : Shared strategy.State → Interference strategy.State → Shared strategy.State → Prop)
    (p : Selection α) (s : Shared strategy.State)
    (accesses : List (Access (Shared strategy.State) SelectionOp.Answer)) (a : α)
    (t : Shared strategy.State) : Prop :=
  Program.Execution Steps (Performs strategy) p s accesses a t

end Environment

end InferenceRouter
