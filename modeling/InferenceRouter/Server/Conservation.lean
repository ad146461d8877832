import InferenceRouter.Backpressure
import InferenceRouter.Semantics.Population
import InferenceRouter.Semantics.Run
import InferenceRouter.Server.Handler

/-! All requests of the router at once. A step of a request is one access to a
shared object; between two accesses of one request any others may come. The
permits and the guards that requests hold account for the counters exactly. -/
namespace InferenceRouter

open Semantics

/-- A request, and the effects of its last reaction that are still to be done. -/
structure Request where
  phase : Phase
  pending : List Effect

structure Router where
  backpressure : BackpressureController
  backends : BackendId → Backend
  requests : List Request

/-- One step of the system. Requests are told apart by their position; a step
that its request cannot take does nothing. -/
inductive RouterAction where
  /-- A new request reaches the handler. -/
  | arrive
  /-- The request calls `try_acquire` and gets its answer. -/
  | acquire (i : Nat)
  /-- The request reacts to any other event and does its first effect. What
  `select_backend` answers is left open. -/
  | react (i : Nat) (event : RequestEvent) (now : Nat)
  /-- The request does its next pending effect. -/
  | perform (i : Nat) (now : Nat)
  /-- Anything else that touches backends: health checks, breaker calls of a
  selection under way, metrics. The connections are left alone. -/
  | environment (backends : BackendId → Backend)

namespace Router

def updateBackend (self : Router) (backend : BackendId) (f : Backend → Backend) : Router :=
  { self with backends := Function.update self.backends backend (f (self.backends backend)) }

/-- Do one effect. Metrics are write-only and keep no state here. -/
def execute (self : Router) (now : Nat) : Effect → Router
  | .recordRequestStart backend => self.updateBackend backend Backend.recordRequestStart
  | .recordRequestEnd backend => self.updateBackend backend Backend.recordRequestEnd
  | .updateEwmaLatency backend latencyUs alpha =>
      self.updateBackend backend fun b => b.updateEwmaLatency latencyUs alpha
  | .breaker backend call =>
      self.updateBackend backend fun b => { b with breaker := (b.breaker.serve ⟨now, call⟩).2 }
  | .releasePermit => { self with backpressure := self.backpressure.release }
  | .observeDuration _ _ | .incRequests _ _ _ | .incRejected _ => self

/-- Do the first effect and leave the others for later steps. -/
def commit (self : Router) (i : Nat) (phase : Phase) (effects : List Effect) (now : Nat) :
    Option Effect × Router :=
  let next := { self with requests := self.requests.set i ⟨phase, effects.tail⟩ }
  match effects with
  | [] => (none, next)
  | effect :: _ => (some effect, next.execute now effect)

/-- One step, with the effect it does. -/
def act (app : AppState) (self : Router) : RouterAction → Option Effect × Router
  | .arrive => (none, { self with requests := self.requests ++ [⟨.arrived, []⟩] })
  | .acquire i =>
      match self.requests[i]? with
      | some ⟨.arrived, []⟩ =>
          let (answer, backpressure) := self.backpressure.tryAcquire
          match Phase.arrived.react app (.acquire answer.isSome) with
          | some (effects, phase) =>
              (none, { self with backpressure, requests := self.requests.set i ⟨phase, effects⟩ })
          | none => (none, self)
      | _ => (none, self)
  | .react _ (.acquire _) _ => (none, self)
  | .react i event now =>
      match self.requests[i]? with
      | some ⟨phase, []⟩ =>
          match phase.react app event with
          | some (effects, next) => self.commit i next effects now
          | none => (none, self)
      | _ => (none, self)
  | .perform i now =>
      match self.requests[i]? with
      | some ⟨phase, effects⟩ => self.commit i phase effects now
      | none => (none, self)
  | .environment backends =>
      (none,
        { self with
          backends := fun b =>
            { backends b with activeConnections := (self.backends b).activeConnections } })

/-- A router without requests and without connections. -/
def start (maxInFlight : Nat) (max_lt : maxInFlight < wordSize) (backends : BackendId → Backend) :
    Router where
  backpressure := .new maxInFlight max_lt
  backends := fun b => { backends b with activeConnections := 0 }
  requests := []

end Router

/-- The permits a phase owns: that of the handler, or that of the guard. -/
def Phase.permits : Phase → Nat
  | .readingBody | .selecting => 1
  | phase => if phase.accounting.isSome then 1 else 0

/-- The guards on `backend` that a phase owns. -/
def Phase.guardsOn (backend : BackendId) (phase : Phase) : Nat :=
  match phase.accounting with
  | some acc => if acc.backend = backend then 1 else 0
  | none => 0

namespace Request

/-- The permits of a request, those about to be dropped included. -/
def permits (self : Request) : Nat := self.phase.permits + self.pending.count .releasePermit

/-- The guards of a request on `backend`, until the end of their connection. -/
def guardsOn (backend : BackendId) (self : Request) : Nat :=
  self.phase.guardsOn backend + self.pending.count (.recordRequestEnd backend)

/-- Nothing of the request is left. -/
def Ended (self : Request) : Prop := self.phase.Over ∧ self.pending = []

end Request

namespace Effect

/-- An effect on neither the permits nor the connections. -/
def isQuiet : Effect → Bool
  | .recordRequestStart _ | .recordRequestEnd _ | .releasePermit => false
  | _ => true

def isEnd : Effect → Bool
  | .recordRequestEnd _ => true
  | _ => false

theorem count_eq_zero_of_quiet {effects : List Effect} (h : ∀ e ∈ effects, e.isQuiet = true)
    (effect : Effect) (hEffect : effect.isQuiet = false) : effects.count effect = 0 := by
  rw [List.count_eq_zero]
  intro hMem
  rw [h effect hMem] at hEffect
  cases hEffect

theorem countP_isEnd_of_quiet {effects : List Effect} (h : ∀ e ∈ effects, e.isQuiet = true) :
    effects.countP isEnd = 0 := by
  rw [List.countP_eq_zero]
  intro effect hMem
  have hQuiet := h effect hMem
  cases effect <;> simp_all [isEnd, isQuiet]

/-- No connection starts late, and none outlives its permit. -/
structure Orderly (effects : List Effect) : Prop where
  noStart : ∀ backend, .recordRequestStart backend ∉ effects
  endsFirst : ∀ rest, rest <:+ effects → rest.countP isEnd ≤ rest.count .releasePermit

theorem Orderly.of_suffix {effects rest : List Effect} (h : Orderly effects) (hRest : rest <:+ effects) :
    Orderly rest where
  noStart backend hMem := h.noStart backend (hRest.mem hMem)
  endsFirst rest' hRest' := h.endsFirst rest' (hRest'.trans hRest)

theorem orderly_nil : Orderly [] where
  noStart _ := by simp
  endsFirst rest hRest := by simp [List.suffix_nil.mp hRest]

theorem Orderly.cons {effects : List Effect} (h : Orderly effects) {first : Effect}
    (hStart : ∀ backend, first ≠ .recordRequestStart backend)
    (hEnds : (first :: effects).countP isEnd ≤ (first :: effects).count .releasePermit) :
    Orderly (first :: effects) where
  noStart backend hMem := by
    rcases List.mem_cons.mp hMem with hEq | hOld
    · exact hStart backend hEq.symm
    · exact h.noStart backend hOld
  endsFirst rest hRest := by
    rcases List.suffix_cons_iff.mp hRest with rfl | hOld
    · exact hEnds
    · exact h.endsFirst rest hOld

/-- Quiet effects may come before any others. -/
theorem Orderly.quiet_append {quiet effects : List Effect} (h : Orderly effects)
    (hQuiet : ∀ e ∈ quiet, e.isQuiet = true) : Orderly (quiet ++ effects) := by
  induction quiet with
  | nil => exact h
  | cons first quiet ih =>
      have hRest := ih fun e hMem => hQuiet e (List.mem_cons_of_mem _ hMem)
      have hFirst := hQuiet first (List.mem_cons_self ..)
      refine hRest.cons ?_ ?_
      · rintro backend rfl
        cases hFirst
      · have hOld := hRest.endsFirst _ (List.suffix_refl _)
        cases first <;> simp_all [isEnd, isQuiet]

theorem orderly_of_quiet {effects : List Effect} (h : ∀ e ∈ effects, e.isQuiet = true) :
    Orderly effects := by
  simpa using orderly_nil.quiet_append h

theorem orderly_release : Orderly [.releasePermit] :=
  orderly_nil.cons (by simp) (by simp [isEnd])

end Effect

namespace RequestAccounting

open Effect

/-- A drop ends the connection first and releases the permit last. -/
theorem drop_shape (self : RequestAccounting) (clock : DropClock) :
    ∃ quiet, self.drop clock = .recordRequestEnd self.backend :: (quiet ++ [.releasePermit]) ∧
      ∀ e ∈ quiet, e.isQuiet = true := by
  refine ⟨((self.sample clock).toList.map fun latency =>
    Effect.updateEwmaLatency self.backend latency self.ewmaAlpha) ++
    [.breaker self.backend self.verdict,
      .observeDuration self.backend (saturatingDurationSince clock.elapsedAt self.started),
      .incRequests self.strategyName self.backend self.outcome.statusLabel], ?_, ?_⟩
  · rw [drop_eq]
    simp
  · cases self.sample clock <;> simp [isQuiet]

theorem count_drop_release (self : RequestAccounting) (clock : DropClock) :
    (self.drop clock).count .releasePermit = 1 := by
  obtain ⟨quiet, hDrop, hQuiet⟩ := self.drop_shape clock
  simp [hDrop, count_eq_zero_of_quiet hQuiet .releasePermit rfl]

theorem count_drop_end (self : RequestAccounting) (clock : DropClock) (backend : BackendId) :
    (self.drop clock).count (.recordRequestEnd backend) = if self.backend = backend then 1 else 0 := by
  obtain ⟨quiet, hDrop, hQuiet⟩ := self.drop_shape clock
  have hNone : quiet.count (.recordRequestEnd backend) = 0 := count_eq_zero_of_quiet hQuiet _ rfl
  rw [hDrop, List.count_cons, List.count_append, hNone]
  by_cases hBackend : self.backend = backend <;> simp [hBackend]

theorem orderly_drop (self : RequestAccounting) (clock : DropClock) : Orderly (self.drop clock) := by
  have hRelease := self.count_drop_release clock
  obtain ⟨quiet, hDrop, hQuiet⟩ := self.drop_shape clock
  rw [hDrop] at hRelease ⊢
  refine (orderly_release.quiet_append hQuiet).cons (by simp) ?_
  rw [hRelease]
  rw [List.countP_cons, List.countP_append, countP_isEnd_of_quiet hQuiet]
  simp [isEnd]

theorem count_drop_start (self : RequestAccounting) (clock : DropClock) (backend : BackendId) :
    (self.drop clock).count (.recordRequestStart backend) = 0 :=
  List.count_eq_zero.mpr ((self.orderly_drop clock).noStart backend)

/-- Resolving a probe is quiet and keeps the backend. -/
theorem resolve_quiet (self : RequestAccounting) (status : StatusCode) :
    (∀ e ∈ (self.resolveProbeOnHeaders status).1, e.isQuiet = true) ∧
      (self.resolveProbeOnHeaders status).2.backend = self.backend := by
  simp only [resolveProbeOnHeaders]
  split
  · exact ⟨by simp [isQuiet], rfl⟩
  · exact ⟨by simp, rfl⟩

end RequestAccounting

namespace Phase

open Effect

/-- What a reaction takes from a phase it leaves to the next phase or to the
effects, and only a start adds to it. -/
structure Conserves (phase : Phase) (effects : List Effect) (next : Phase) : Prop where
  permits : next.permits + effects.count .releasePermit = phase.permits
  guards : ∀ backend, next.guardsOn backend + effects.count (.recordRequestEnd backend) =
    phase.guardsOn backend + effects.count (.recordRequestStart backend)
  orderly : Orderly effects.tail

theorem permits_of_accounting {phase : Phase} {acc : RequestAccounting}
    (h : phase.accounting = some acc) : phase.permits = 1 := by
  cases phase with
  | forwarding | replied => simp [permits, h]
  | _ => cases h

theorem guardsOn_of_accounting {phase : Phase} {acc : RequestAccounting}
    (h : phase.accounting = some acc) (backend : BackendId) :
    phase.guardsOn backend = if acc.backend = backend then 1 else 0 := by
  simp [guardsOn, h]

theorem Over.permits_eq_zero {phase : Phase} (h : phase.Over) : phase.permits = 0 := by
  have hNone := h.accounting_eq_none
  cases phase with
  | replied | gone => simp [permits, hNone]
  | _ => exact h.elim

theorem Over.guardsOn_eq_zero {phase : Phase} (h : phase.Over) (backend : BackendId) :
    phase.guardsOn backend = 0 := by
  simp [guardsOn, h.accounting_eq_none]

/-- The guard stays, in this phase or the next. -/
theorem conserves_of_keep {phase next : Phase} {acc acc' : RequestAccounting} {effects : List Effect}
    (h : phase.accounting = some acc) (hNext : next.accounting = some acc')
    (hBackend : acc'.backend = acc.backend) (hQuiet : ∀ e ∈ effects, e.isQuiet = true) :
    Conserves phase effects next where
  permits := by
    rw [permits_of_accounting h, permits_of_accounting hNext, count_eq_zero_of_quiet hQuiet _ rfl]
  guards backend := by
    rw [guardsOn_of_accounting h, guardsOn_of_accounting hNext, hBackend,
      count_eq_zero_of_quiet hQuiet _ rfl, count_eq_zero_of_quiet hQuiet _ rfl]
  orderly := orderly_of_quiet fun e hMem => hQuiet e (List.mem_of_mem_tail hMem)

/-- The guard is dropped, and its effects are what is left of it. -/
theorem conserves_of_drop {phase next : Phase} {acc : RequestAccounting} (h : phase.accounting = some acc)
    (hOver : next.Over) {quiet : List Effect} (hQuiet : ∀ e ∈ quiet, e.isQuiet = true)
    (acc' : RequestAccounting) (hBackend : acc'.backend = acc.backend) (clock : DropClock) :
    Conserves phase (quiet ++ acc'.drop clock) next where
  permits := by
    rw [permits_of_accounting h, hOver.permits_eq_zero, List.count_append,
      count_eq_zero_of_quiet hQuiet _ rfl, acc'.count_drop_release]
  guards backend := by
    rw [guardsOn_of_accounting h, hOver.guardsOn_eq_zero, List.count_append, List.count_append,
      count_eq_zero_of_quiet hQuiet _ rfl, count_eq_zero_of_quiet hQuiet _ rfl, acc'.count_drop_end,
      acc'.count_drop_start, hBackend]
    omega
  orderly := ((acc'.orderly_drop clock).quiet_append hQuiet).of_suffix (List.tail_suffix _)

theorem conserves_of_finish {phase next : Phase} {acc : RequestAccounting}
    (h : phase.accounting = some acc) (hOver : next.Over) (outcome : Outcome) (clock : DropClock) :
    Conserves phase (acc.finish outcome clock) next :=
  conserves_of_drop h hOver (List.forall_mem_nil _) { acc with outcome } rfl clock

/-- A handler that returns before the start of a guard drops its own permit. -/
theorem conserves_of_reject {phase next : Phase} (hPhase : phase.permits = 1)
    (hNone : phase.accounting = none) (hOver : next.Over) (effects : List Effect)
    (hQuiet : ∀ e ∈ effects, e.isQuiet = true) :
    Conserves phase (effects ++ [.releasePermit]) next where
  permits := by
    rw [hPhase, hOver.permits_eq_zero, List.count_append, count_eq_zero_of_quiet hQuiet _ rfl]
    rfl
  guards backend := by
    rw [hOver.guardsOn_eq_zero, List.count_append, List.count_append,
      count_eq_zero_of_quiet hQuiet _ rfl, count_eq_zero_of_quiet hQuiet _ rfl]
    simp [guardsOn, hNone]
  orderly := (orderly_release.quiet_append hQuiet).of_suffix (List.tail_suffix _)

variable {app : AppState} {phase next : Phase} {event : RequestEvent} {effects : List Effect}

/-- The answer of the backend moves the guard into the body or drops it. -/
theorem conserves_answered {acc : RequestAccounting} {upstream : Upstream} {clock : DropClock}
    (step : Step app (.forwarding acc) (.answered upstream clock, effects) next) :
    Conserves (.forwarding acc) effects next := by
  have hAlive : (Phase.forwarding acc).accounting = some acc := rfl
  cases hForward : forwardRequest upstream with
  | error err =>
      simp only [Step, react, hForward, finishForwardError, Option.some.injEq, Prod.mk.injEq] at step
      obtain ⟨rfl, rfl⟩ := step
      cases err with
      | connect => exact conserves_of_finish rfl (over_error _) .transportError clock
      | body headersAt =>
          exact conserves_of_drop hAlive (over_error _) (List.forall_mem_nil _)
            { acc.markHeadersReceivedAt headersAt with outcome := .streamError } rfl clock
  | ok forwarded =>
      have hResolve := (acc.markHeadersReceivedAt forwarded.headersAt).resolve_quiet forwarded.status
      simp only [Step, react, hForward, intoResponse, Option.some.injEq, Prod.mk.injEq] at step
      obtain ⟨rfl, rfl⟩ := step
      cases hBody : forwarded.body with
      | full bytes =>
          exact conserves_of_drop hAlive (over_full _ _ _) hResolve.1
            { ((acc.markHeadersReceivedAt forwarded.headersAt).resolveProbeOnHeaders
              forwarded.status).2 with outcome := .completed forwarded.status } hResolve.2 clock
      | stream => exact conserves_of_keep hAlive rfl hResolve.2 hResolve.1

/-- Every reaction after the admission conserves permits and guards. -/
theorem Step.conserves (step : Step app phase (event, effects) next)
    (hAdmitted : ∀ acquired, event ≠ .acquire acquired) : Conserves phase effects next := by
  cases phase with
  | arrived =>
      cases event with
      | acquire acquired => exact absurd rfl (hAdmitted acquired)
      | _ => simp [Step, react] at step
  | readingBody =>
      cases event with
      | bodyRead failure =>
          cases failure with
          | none =>
              simp only [Step, react, Option.some.injEq, Prod.mk.injEq] at step
              obtain ⟨rfl, rfl⟩ := step
              exact ⟨rfl, fun _ => rfl, orderly_nil⟩
          | some err =>
              simp only [Step, react, Option.some.injEq, Prod.mk.injEq] at step
              obtain ⟨rfl, rfl⟩ := step
              exact conserves_of_reject rfl rfl (over_error _) [.incRejected _] (by simp [isQuiet])
      | dropped clock =>
          simp only [Step, react, Option.some.injEq, Prod.mk.injEq] at step
          obtain ⟨rfl, rfl⟩ := step
          exact conserves_of_reject rfl rfl over_gone [] (List.forall_mem_nil _)
      | _ => simp [Step, react] at step
  | selecting =>
      cases event with
      | selected choice startedAt =>
          cases choice with
          | none =>
              simp only [Step, react, Option.some.injEq, Prod.mk.injEq] at step
              obtain ⟨rfl, rfl⟩ := step
              exact conserves_of_reject rfl rfl (over_error _) [.incRejected _] (by simp [isQuiet])
          | some choice =>
              obtain ⟨backend, adm⟩ := choice
              simp only [Step, react, RequestAccounting.start, Option.some.injEq, Prod.mk.injEq] at step
              obtain ⟨rfl, rfl⟩ := step
              refine ⟨rfl, fun other => ?_, orderly_nil⟩
              by_cases hBackend : backend = other <;> simp [guardsOn, accounting, hBackend]
      | _ => simp [Step, react] at step
  | forwarding acc =>
      cases event with
      | answered upstream clock => exact conserves_answered step
      | dropped clock =>
          simp only [Step, react, Option.some.injEq, Prod.mk.injEq] at step
          obtain ⟨rfl, rfl⟩ := step
          exact conserves_of_finish rfl over_gone acc.outcome clock
      | _ => simp [Step, react] at step
  | replied result =>
      cases result with
      | error status => cases event <;> simp [Step, react] at step
      | ok response =>
          have hKept (hOver : (Phase.replied (.ok response)).Over) :
              Conserves (.replied (.ok response)) effects next := by
            obtain ⟨rfl, hNext, _⟩ := step.of_over hOver
            refine ⟨?_, fun backend => ?_, orderly_nil⟩
            · simp [hOver.permits_eq_zero, hNext.permits_eq_zero]
            · simp [hOver.guardsOn_eq_zero, hNext.guardsOn_eq_zero]
          cases hAlive : (Phase.replied (.ok response)).accounting with
          | none => exact hKept hAlive
          | some acc =>
              cases hBody : response.body with
              | full bytes => simp [accounting, hBody] at hAlive
              | stream body =>
                  have hBodyAlive : body.accounting = some acc := by
                    simpa [accounting, hBody] using hAlive
                  obtain ⟨_, hNext⟩ := step.of_streaming hBody hBodyAlive
                  rcases hNext with ⟨rfl, response', body', rfl, hBody', hAlive'⟩ | ⟨outcome, clock, rfl, hOver⟩
                  · refine conserves_of_keep hAlive ?_ rfl (List.forall_mem_nil _)
                    simp [accounting, hBody', hAlive']
                  · exact conserves_of_finish hAlive hOver outcome clock
  | gone => cases event <;> simp [Step, react] at step

end Phase

namespace Request

open Effect

/-- What a request has before a step is what its next phase and the effects of
the step have, plus a connection that the step starts. -/
structure Conserves (request : Request) (effects : List Effect) (next : Phase) : Prop where
  permits : next.permits + effects.count .releasePermit = request.permits
  guards : ∀ backend, next.guardsOn backend + effects.count (.recordRequestEnd backend) =
    request.guardsOn backend + effects.count (.recordRequestStart backend)
  orderly : Orderly effects.tail

/-- What a step takes away at once is among what its request has. -/
theorem Conserves.takes_permits {request : Request} {effect : Effect} {rest : List Effect} {next : Phase}
    (h : request.Conserves (effect :: rest) next) :
    (Request.mk next rest).permits + (if effect = .releasePermit then 1 else 0) = request.permits := by
  have hNew : (Request.mk next rest).permits = next.permits + rest.count .releasePermit := rfl
  have hCount := h.permits
  simp only [List.count_cons, beq_iff_eq] at hCount
  omega

theorem Conserves.takes_guards {request : Request} {effect : Effect} {rest : List Effect} {next : Phase}
    (h : request.Conserves (effect :: rest) next) (backend : BackendId) :
    (Request.mk next rest).guardsOn backend + (if effect = .recordRequestEnd backend then 1 else 0) =
      request.guardsOn backend + if effect = .recordRequestStart backend then 1 else 0 := by
  have hNew : (Request.mk next rest).guardsOn backend =
      next.guardsOn backend + rest.count (.recordRequestEnd backend) := rfl
  have hNone : rest.count (.recordRequestStart backend) = 0 :=
    List.count_eq_zero.mpr (h.orderly.noStart backend)
  have hCount := h.guards backend
  simp only [List.count_cons, beq_iff_eq, hNone] at hCount
  omega

theorem sum_ends_le (backends : Finset BackendId) (effects : List Effect) :
    ∑ b ∈ backends, effects.count (.recordRequestEnd b) ≤ effects.countP isEnd := by
  induction effects with
  | nil => simp
  | cons first rest ih =>
      have hFirst : ∑ b ∈ backends, (if first = .recordRequestEnd b then 1 else 0) ≤
          if isEnd first then 1 else 0 := by
        cases first with
        | recordRequestEnd b =>
            simp only [Effect.recordRequestEnd.injEq, Finset.sum_ite_eq, isEnd, if_true]
            split <;> omega
        | _ => simp
      simp only [List.count_cons, beq_iff_eq, Finset.sum_add_distrib, List.countP_cons]
      omega

/-- A request has no more guards than permits. -/
theorem sum_guardsOn_le {request : Request} (h : Orderly request.pending)
    (backends : Finset BackendId) : ∑ b ∈ backends, request.guardsOn b ≤ request.permits := by
  have hPending := (sum_ends_le backends request.pending).trans (h.endsFirst _ (List.suffix_refl _))
  have hPhase : ∑ b ∈ backends, request.phase.guardsOn b ≤ request.phase.permits := by
    cases hAcc : request.phase.accounting with
    | none => simp [Phase.guardsOn, hAcc]
    | some acc =>
        simp only [Phase.guardsOn, hAcc, Finset.sum_ite_eq, Phase.permits_of_accounting hAcc]
        split <;> omega
  simp only [guardsOn, Finset.sum_add_distrib, permits]
  omega

theorem Ended.permits_eq_zero {request : Request} (h : request.Ended) : request.permits = 0 := by
  simp [permits, h.1.permits_eq_zero, h.2]

theorem Ended.guardsOn_eq_zero {request : Request} (h : request.Ended) (backend : BackendId) :
    request.guardsOn backend = 0 := by
  simp [guardsOn, h.1.guardsOn_eq_zero, h.2]

end Request

namespace Router

open Effect

variable {s : Router} {now : Nat}

theorem execute_requests (s : Router) (now : Nat) (effect : Effect) :
    (s.execute now effect).requests = s.requests := by
  cases effect <;> rfl

theorem execute_maxInFlight (s : Router) (now : Nat) (effect : Effect) :
    (s.execute now effect).backpressure.maxInFlight = s.backpressure.maxInFlight := by
  cases effect <;> simp [execute, updateBackend]

theorem execute_inFlight (s : Router) (now : Nat) (effect : Effect) :
    (s.execute now effect).backpressure.inFlight =
      s.backpressure.inFlight - if effect = .releasePermit then 1 else 0 := by
  cases effect with
  | releasePermit => simp [execute, BackpressureController.release_inFlight]
  | _ => simp [execute, updateBackend]

/-- The connections after an effect, where the counter cannot wrap. -/
theorem execute_active (s : Router) (now : Nat) (effect : Effect) (backend : BackendId)
    (hWord : (s.backends backend).activeConnections < wordSize)
    (hStart : effect = .recordRequestStart backend →
      (s.backends backend).activeConnections + 1 < wordSize)
    (hEnd : effect = .recordRequestEnd backend → 0 < (s.backends backend).activeConnections) :
    ((s.execute now effect).backends backend).activeConnections +
        (if effect = .recordRequestEnd backend then 1 else 0) =
      (s.backends backend).activeConnections +
        if effect = .recordRequestStart backend then 1 else 0 := by
  cases effect with
  | recordRequestStart other =>
      by_cases hOther : other = backend
      · subst hOther
        simp [execute, updateBackend, Backend.recordRequestStart, fetchAdd_of_lt (hStart rfl)]
      · simp [execute, updateBackend, hOther, Ne.symm hOther]
  | recordRequestEnd other =>
      by_cases hOther : other = backend
      · subst hOther
        have hPos := hEnd rfl
        simp [execute, updateBackend, Backend.recordRequestEnd, fetchSub_of_pos hPos hWord]
        omega
      · simp [execute, updateBackend, hOther, Ne.symm hOther]
  | updateEwmaLatency other latencyUs alpha | breaker other call =>
      by_cases hOther : backend = other
      · subst hOther
        simp [execute, updateBackend, Backend.updateEwmaLatency]
      · simp [execute, updateBackend, hOther]
  | _ => simp [execute]

/-- The counters are what the requests hold. -/
structure Balanced (s : Router) : Prop where
  inFlight : s.backpressure.inFlight = sumOver Request.permits s.requests
  bounded : s.backpressure.inFlight ≤ s.backpressure.maxInFlight
  active : ∀ backend,
    (s.backends backend).activeConnections = sumOver (Request.guardsOn backend) s.requests
  orderly : ∀ request ∈ s.requests, Orderly request.pending

namespace Balanced

theorem sum_guardsOn_le {requests : List Request} (h : ∀ request ∈ requests, Orderly request.pending)
    (backends : Finset BackendId) :
    ∑ b ∈ backends, sumOver (Request.guardsOn b) requests ≤ sumOver Request.permits requests := by
  rw [sum_sumOver]
  exact sumOver_le_sumOver _ fun request hMem => Request.sum_guardsOn_le (h request hMem) backends

theorem guardsOn_le {requests : List Request} (h : ∀ request ∈ requests, Orderly request.pending)
    (backend : BackendId) :
    sumOver (Request.guardsOn backend) requests ≤ sumOver Request.permits requests := by
  simpa using sum_guardsOn_le h {backend}

theorem orderly_set (h : Balanced s) (after : Request) (hAfter : Orderly after.pending) (i : Nat) :
    ∀ request ∈ s.requests.set i after, Orderly request.pending := by
  intro request hMem
  rcases List.mem_or_eq_of_mem_set hMem with hOld | rfl
  · exact h.orderly request hOld
  · exact hAfter

/-- Going on with a conserving step keeps the balance, and its effect finds what
it takes away. -/
theorem commit (h : Balanced s) {i : Nat} {request : Request} {next : Phase} {effects : List Effect}
    (hRequest : s.requests[i]? = some request) (hStep : request.Conserves effects next) :
    Balanced (s.commit i next effects now).2 ∧
      ∀ effect ∈ (s.commit i next effects now).1,
        (effect = .releasePermit → 0 < s.backpressure.inFlight) ∧
        ∀ backend, effect = .recordRequestEnd backend → 0 < (s.backends backend).activeConnections := by
  have hPermits := sumOver_set Request.permits hRequest ⟨next, effects.tail⟩
  have hGuards backend := sumOver_set (Request.guardsOn backend) hRequest ⟨next, effects.tail⟩
  have hOrderly : ∀ r ∈ s.requests.set i ⟨next, effects.tail⟩, Orderly r.pending :=
    h.orderly_set _ hStep.orderly i
  have hLe backend := guardsOn_le hOrderly backend
  have hMax := s.backpressure.max_lt
  have hBounded := h.bounded
  have hInFlight := h.inFlight
  cases effects with
  | nil =>
      have hSame : (Request.mk next []).permits = request.permits := hStep.permits
      refine ⟨⟨?_, hBounded, fun backend => ?_, hOrderly⟩, by simp [Router.commit]⟩
      · simp only [Router.commit, List.tail_nil] at hPermits ⊢
        omega
      · have hOn := hGuards backend
        have hWas := h.active backend
        have hSameOn : (Request.mk next []).guardsOn backend = request.guardsOn backend :=
          hStep.guards backend
        simp only [Router.commit, List.tail_nil] at hOn ⊢
        omega
  | cons effect rest =>
      have hTake := hStep.takes_permits
      have hTakeOn := hStep.takes_guards
      simp only [List.tail_cons] at hPermits hGuards hLe hOrderly
      have hPositive : effect = .releasePermit → 0 < s.backpressure.inFlight := by
        intro hRelease
        simp only [hRelease, if_true] at hTake
        omega
      have hPositiveOn backend (hEnd : effect = .recordRequestEnd backend) :
          0 < (s.backends backend).activeConnections := by
        have hOn := hGuards backend
        have hTaken := hTakeOn backend
        have hWas := h.active backend
        simp only [hEnd, if_true, reduceCtorEq, if_false] at hTaken
        omega
      have hTotal : sumOver Request.permits (s.requests.set i ⟨next, rest⟩) +
          (if effect = .releasePermit then 1 else 0) = s.backpressure.inFlight := by
        omega
      have hCommit : (s.commit i next (effect :: rest) now).2 =
          Router.execute { s with requests := s.requests.set i ⟨next, rest⟩ } now effect := rfl
      have hActive backend : ((s.commit i next (effect :: rest) now).2.backends backend).activeConnections =
          sumOver (Request.guardsOn backend) (s.requests.set i ⟨next, rest⟩) := by
        have hOn := hGuards backend
        have hTaken := hTakeOn backend
        have hWas := h.active backend
        have hLeOn := hLe backend
        have hLeNow := guardsOn_le h.orderly backend
        have hExecute := execute_active { s with requests := s.requests.set i ⟨next, rest⟩ } now effect
          backend (by dsimp only; omega)
          (fun hStart => by simp only [hStart, if_true, reduceCtorEq, if_false] at hTaken ⊢; omega)
          (hPositiveOn backend)
        rw [hCommit]
        dsimp only at hExecute
        omega
      refine ⟨⟨?_, ?_, fun backend => ?_, ?_⟩, ?_⟩
      · rw [hCommit, execute_inFlight, execute_requests]
        dsimp only
        omega
      · rw [hCommit, execute_inFlight, execute_maxInFlight]
        dsimp only
        omega
      · rw [hActive, hCommit, execute_requests]
      · rw [hCommit, execute_requests]
        exact hOrderly
      · intro effect' hMem
        obtain rfl : effect = effect' := by simpa [Router.commit] using hMem
        exact ⟨hPositive, hPositiveOn⟩

variable (app : AppState)

theorem arrive (h : Balanced s) : Balanced (s.act app .arrive).2 where
  inFlight := by simpa [Router.act, Request.permits, Phase.permits, Phase.accounting] using h.inFlight
  bounded := h.bounded
  active backend := by
    simpa [Router.act, Request.guardsOn, Phase.guardsOn, Phase.accounting] using h.active backend
  orderly request hMem := by
    rcases List.mem_append.mp hMem with hOld | hNew
    · exact h.orderly request hOld
    · rw [List.mem_singleton.mp hNew]
      exact orderly_nil

/-- A slot is taken with the permit that stands for it, or not at all. -/
theorem acquire (h : Balanced s) (i : Nat) :
    Balanced (s.act app (.acquire i)).2 ∧ (s.act app (.acquire i)).1 = none := by
  simp only [Router.act]
  split
  · rename_i hRequest
    have hPermits after := sumOver_set Request.permits hRequest after
    have hGuards backend after := sumOver_set (Request.guardsOn backend) hRequest after
    have hInFlight := h.inFlight
    have hBounded := h.bounded
    have hArrived : (Request.mk .arrived []).permits = 0 := rfl
    have hArrivedOn backend : (Request.mk .arrived []).guardsOn backend = 0 := rfl
    by_cases hRoom : s.backpressure.inFlight < s.backpressure.maxInFlight
    · have hReading : (Request.mk .readingBody []).permits = 1 := rfl
      have hReadingOn backend : (Request.mk .readingBody []).guardsOn backend = 0 := rfl
      simp only [BackpressureController.tryAcquire, hRoom, if_true, Option.isSome_some, Phase.react]
      refine ⟨⟨?_, hRoom, fun backend => ?_, h.orderly_set _ orderly_nil i⟩, trivial⟩
      · have hOne := hPermits ⟨.readingBody, []⟩
        dsimp only
        omega
      · have hOn := hGuards backend ⟨.readingBody, []⟩
        have hWas := h.active backend
        have hIs := hReadingOn backend
        have hOld := hArrivedOn backend
        dsimp only
        omega
    · have hRejected (status : StatusCode) (reason : String) :
          (Request.mk (.replied (.error status)) [.incRejected reason]).permits = 0 := by
        simp [Request.permits, Phase.permits, Phase.accounting]
      have hRejectedOn (status : StatusCode) (reason : String) (backend : BackendId) :
          (Request.mk (.replied (.error status)) [.incRejected reason]).guardsOn backend = 0 := by
        simp [Request.guardsOn, Phase.guardsOn, Phase.accounting]
      simp only [BackpressureController.tryAcquire, hRoom, if_false, Option.isSome_none, Phase.react]
      have hQuiet := h.orderly_set ⟨.replied (.error ⟨429, by decide⟩), [.incRejected "backpressure"]⟩
        (orderly_of_quiet (by simp [isQuiet])) i
      refine ⟨⟨?_, hBounded, fun backend => ?_, hQuiet⟩, trivial⟩
      · have hOne := hPermits ⟨.replied (.error ⟨429, by decide⟩), [.incRejected "backpressure"]⟩
        rw [hRejected, hArrived] at hOne
        dsimp only
        omega
      · have hOn := hGuards backend ⟨.replied (.error ⟨429, by decide⟩), [.incRejected "backpressure"]⟩
        have hWas := h.active backend
        rw [hRejectedOn, hArrivedOn] at hOn
        dsimp only
        omega
  · exact ⟨h, rfl⟩

theorem environment (h : Balanced s) (backends : BackendId → Backend) :
    Balanced (s.act app (.environment backends)).2 :=
  ⟨h.inFlight, h.bounded, h.active, h.orderly⟩

/-- Every step keeps the balance. -/
theorem act (h : Balanced s) (action : RouterAction) :
    Balanced (s.act app action).2 ∧
      ∀ effect ∈ (s.act app action).1,
        (effect = .releasePermit → 0 < s.backpressure.inFlight) ∧
        ∀ backend, effect = .recordRequestEnd backend → 0 < (s.backends backend).activeConnections := by
  cases action with
  | arrive => exact ⟨h.arrive app, by simp [Router.act]⟩
  | acquire i =>
      obtain ⟨hNext, hNone⟩ := h.acquire app i
      exact ⟨hNext, by simp [hNone]⟩
  | environment backends => exact ⟨h.environment app backends, by simp [Router.act]⟩
  | perform i now =>
      simp only [Router.act]
      split
      · rename_i phase effects hRequest
        have hOrderly := h.orderly _ (List.mem_of_getElem? hRequest)
        refine h.commit hRequest ⟨rfl, fun backend => ?_, hOrderly.of_suffix (List.tail_suffix _)⟩
        rw [List.count_eq_zero.mpr (hOrderly.noStart backend)]
        rfl
      · exact ⟨h, by simp⟩
  | react i event now =>
      by_cases hAdmitted : ∀ acquired, event ≠ .acquire acquired
      · have hAct : s.act app (.react i event now) =
            match s.requests[i]? with
            | some ⟨phase, []⟩ =>
                match phase.react app event with
                | some (effects, next) => s.commit i next effects now
                | none => (none, s)
            | _ => (none, s) := by
          cases event with
          | acquire acquired => exact absurd rfl (hAdmitted acquired)
          | _ => rfl
        rw [hAct]
        split
        · rename_i phase hRequest
          split
          · rename_i effects next hReact
            have hReaction : Phase.Step app phase (event, effects) next := hReact
            have hStep := hReaction.conserves hAdmitted
            refine h.commit hRequest ⟨?_, fun backend => ?_, hStep.orderly⟩
            · simpa [Request.permits] using hStep.permits
            · simpa [Request.guardsOn] using hStep.guards backend
          · exact ⟨h, by simp⟩
        · exact ⟨h, by simp⟩
      · simp only [ne_eq, not_forall, not_not] at hAdmitted
        obtain ⟨acquired, rfl⟩ := hAdmitted
        exact ⟨h, by simp [Router.act]⟩

theorem start (maxInFlight : Nat) (max_lt : maxInFlight < wordSize) (backends : BackendId → Backend) :
    Balanced (Router.start maxInFlight max_lt backends) where
  inFlight := rfl
  bounded := Nat.zero_le _
  active _ := rfl
  orderly := by simp [Router.start]

end Balanced

theorem commit_maxInFlight (s : Router) (i : Nat) (phase : Phase) (effects : List Effect) (now : Nat) :
    (s.commit i phase effects now).2.backpressure.maxInFlight = s.backpressure.maxInFlight := by
  cases effects with
  | nil => rfl
  | cons effect rest => exact execute_maxInFlight _ now effect

theorem act_maxInFlight (app : AppState) (s : Router) (action : RouterAction) :
    (s.act app action).2.backpressure.maxInFlight = s.backpressure.maxInFlight := by
  cases action with
  | arrive | environment => rfl
  | acquire i =>
      simp only [act]
      split
      · split
        · exact s.backpressure.tryAcquire_maxInFlight
        · rfl
      · rfl
  | perform i now =>
      simp only [act]
      split
      · exact s.commit_maxInFlight ..
      · rfl
  | react i event now =>
      cases event with
      | acquire => rfl
      | _ =>
          simp only [act]
          split
          · split
            · exact s.commit_maxInFlight ..
            · rfl
          · rfl

/-- In every reachable state of any number of concurrent requests the counters
are the permits and guards that are alive, no counter is taken below zero, and
when every request has ended nothing is left. -/
theorem resources_conserved (app : AppState) (maxInFlight : Nat) (max_lt : maxInFlight < wordSize)
    (backends : BackendId → Backend) (actions : List RouterAction) :
    let s := (replay (Router.act app) (start maxInFlight max_lt backends) actions).2
    s.backpressure.inFlight = sumOver Request.permits s.requests ∧
    s.backpressure.inFlight ≤ maxInFlight ∧
    (∀ backend, (s.backends backend).activeConnections =
      sumOver (Request.guardsOn backend) s.requests) ∧
    (∀ pool : Finset BackendId,
      ∑ b ∈ pool, (s.backends b).activeConnections ≤ s.backpressure.inFlight) ∧
    (s.backpressure.tryAcquire.1 = none ↔ s.backpressure.inFlight = maxInFlight) ∧
    (∀ action, ∀ effect ∈ (s.act app action).1,
      (effect = .releasePermit → 0 < s.backpressure.inFlight) ∧
      ∀ backend, effect = .recordRequestEnd backend → 0 < (s.backends backend).activeConnections) ∧
    ((∀ request ∈ s.requests, request.Ended) →
      s.backpressure.inFlight = 0 ∧ ∀ backend, (s.backends backend).activeConnections = 0) := by
  intro s
  have hBoth : Balanced s ∧ s.backpressure.maxInFlight = maxInFlight := by
    refine replay_invariant (fun s : Router => Balanced s ∧ s.backpressure.maxInFlight = maxInFlight)
      ?_ ⟨Balanced.start maxInFlight max_lt backends, rfl⟩ actions
    intro s action hInv
    exact ⟨(hInv.1.act app action).1, (act_maxInFlight app s action).trans hInv.2⟩
  obtain ⟨hBalanced, hMax⟩ := hBoth
  have hBounded := hBalanced.bounded
  have hNone := BackpressureController.tryAcquire_eq_none_iff hBounded
  rw [hMax] at hBounded hNone
  refine ⟨hBalanced.inFlight, hBounded, hBalanced.active, fun pool => ?_, hNone, fun action effect hMem =>
    (hBalanced.act app action).2 effect hMem, fun hEnded => ⟨?_, fun backend => ?_⟩⟩
  · rw [hBalanced.inFlight, Finset.sum_congr rfl fun b _ => hBalanced.active b]
    exact Balanced.sum_guardsOn_le hBalanced.orderly pool
  · rw [hBalanced.inFlight, sumOver_eq_zero_iff]
    exact fun request hMem => (hEnded request hMem).permits_eq_zero
  · rw [hBalanced.active backend, sumOver_eq_zero_iff]
    exact fun request hMem => (hEnded request hMem).guardsOn_eq_zero backend

/-- One slot and two requests: the first has a connection, the second is refused. -/
theorem resources_conserved_two_requests :
    let app : AppState := { strategyName := "round_robin", ewmaAlpha := 1 / 10, url := fun _ => "http://b0" }
    let backends : BackendId → Backend := fun id => .new id "http://b0" 1 (.new 0 (1 / 2) 10 10 30)
    let actions : List RouterAction :=
      [.arrive, .arrive, .acquire 0, .react 0 (.bodyRead none) 0,
        .react 0 (.selected (some (0, .normal)) 0) 0, .acquire 1, .perform 1 0]
    let s := (replay (Router.act app) (start 1 (by decide) backends) actions).2
    s.backpressure.inFlight = sumOver Request.permits s.requests ∧
      (s.backends 0).activeConnections = sumOver (Request.guardsOn 0) s.requests ∧
      (s.backpressure.tryAcquire.1 = none ↔ s.backpressure.inFlight = 1) ∧
      sumOver (Request.guardsOn 0) s.requests = 1 := by
  intro app backends actions
  obtain ⟨hPermits, -, hGuards, -, hNone, -⟩ := resources_conserved app 1 (by decide) backends actions
  refine ⟨hPermits, hGuards 0, hNone, ?_⟩
  decide +kernel

end Router

end InferenceRouter
