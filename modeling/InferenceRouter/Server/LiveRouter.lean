import InferenceRouter.App
import InferenceRouter.CircuitBreaker.Accountable
import InferenceRouter.Health.Rounds
import InferenceRouter.Server.Probes

/-! The whole router at work: requests with their selections, health checks and
scrapes on one set of backends, one access to a shared object at a time. -/
namespace InferenceRouter

open Semantics Program

namespace Backend

theorem recordProbe_keeps (config : HealthCheckConfig) (self : Backend) (healthy : Bool) :
    (self.recordProbe config healthy).2.id = self.id ∧
      (self.recordProbe config healthy).2.traffic = self.traffic := by
  simp only [recordProbe, applyProbeResult_eq]
  split <;> exact ⟨rfl, rfl⟩

theorem recordProbe_switch (config : HealthCheckConfig) (self : Backend) (healthy : Bool) :
    (self.recordProbe config healthy).2.switch =
      self.switch.observe config.healthyThreshold.toNat config.unhealthyThreshold.toNat healthy := by
  rw [← applyProbeResult_switch, recordProbe]
  split <;> rfl

theorem recordScrape_keeps (self : Backend) (reply : MetricsReply) :
    (self.recordScrape reply).id = self.id ∧ (self.recordScrape reply).traffic = self.traffic := by
  rcases recordScrape_cases reply with ⟨text, hApply⟩ | hReset
  · rw [hApply, applyScrape_eq]
    exact ⟨rfl, rfl⟩
  · rw [hReset]
    exact ⟨rfl, rfl⟩

end Backend

/-- A router with the requests that have reached it. Of a request that selects, what
is left of `select_backend` stands at its position; all others have nothing left. -/
structure LiveRouter {F : Type} (app : App F) where
  router : Router
  backends_id : ∀ b, (router.backends b).id = b
  strategy : app.strategy.State
  selections : List (Selection (Option (BackendId × Admission)))

/-- One step of the system. The handler takes the answer of its selection, so no
action brings another one. -/
inductive LiveAction (F : Type) where
  | arrive
  | acquire (i : Nat)
  /-- The body of a request is there, and its selection begins. -/
  | read (i : Nat) (incoming : IncomingRequest) (now : Nat)
  /-- A selection does its next operation, with a random draw and what it reads. -/
  | select (i : Nat) (draw : F) (counters : BackendId → Counters) (now : Nat)
  /-- A selection is over, and its handler goes on. -/
  | selected (i : Nat) (startedAt now : Nat)
  | react (i : Nat) (event : RequestEvent) (now : Nat)
  | perform (i : Nat) (now : Nat)
  /-- A health check records what its probe, or its scrape, came to. No other step
  reads two of the values it stores. -/
  | probed (backend : BackendId) (healthy : Bool)
  | scraped (backend : BackendId) (reply : MetricsReply)
  /-- The metrics handler asks a breaker for its state. -/
  | observed (backend : BackendId) (now : Nat)

namespace LiveAction

variable {F : Type}

/-- The clock reading of the breaker call that an action may make. -/
def now : LiveAction F → Nat
  | .read _ _ now | .select _ _ _ now | .selected _ _ now | .react _ _ now | .perform _ now | .observed _ now => now
  | _ => 0

/-- Whether the probe of backend `b` passed, if this is its answer. -/
def probeOf (b : BackendId) : LiveAction F → Option Bool
  | .probed backend healthy => if backend = b then some healthy else none
  | _ => none

end LiveAction

/-- The probes of backend `b` failed often enough in a row, and have not passed often
enough in a row since. -/
def LiveAction.Down {F : Type} (config : HealthCheckConfig) (actions : List (LiveAction F))
    (b : BackendId) : Prop :=
  Switch.OffAfter (max config.healthyThreshold.toNat 1) (max config.unhealthyThreshold.toNat 1)
    (actions.filterMap (probeOf b))

/-- An event that begins a selection or ends one. -/
def RequestEvent.isSelection : RequestEvent → Bool
  | .bodyRead none | .selected _ _ => true
  | _ => false

namespace LiveRouter

variable {F : Type} {app : App F}

def start (app : App F) : LiveRouter app where
  router := app.router.router
  backends_id := app.backends_id
  strategy := app.strategy.start
  selections := []

/-- A step of a request. -/
def handle (self : LiveRouter app) (action : RouterAction) (h : action.isEnvironment = false)
    (selections : List (Selection (Option (BackendId × Admission)))) : LiveRouter app where
  router := (self.router.act app.state action).2
  backends_id b := (self.router.act_id app.state h b).trans (self.backends_id b)
  strategy := self.strategy
  selections := selections

/-- What a selection shares, at a clock reading. -/
def shared (self : LiveRouter app) (now : Nat) : Shared app.strategy.State where
  clock := now
  backends := self.router.backends
  backends_id := self.backends_id
  strategy := self.strategy

/-- Go on with other backends. -/
def share (self : LiveRouter app) (shared : Shared app.strategy.State)
    (selections : List (Selection (Option (BackendId × Admission)))) : LiveRouter app where
  router := { self.router with backends := shared.backends }
  backends_id := shared.backends_id
  strategy := shared.strategy
  selections := selections

/-- One step, or none where it cannot be taken. -/
def act (config : HealthCheckConfig) (self : LiveRouter app) : LiveAction F → Option (LiveRouter app)
  | .arrive => some (self.handle .arrive rfl (self.selections ++ [pure none]))
  | .acquire i => some (self.handle (.acquire i) rfl self.selections)
  | .read i incoming now =>
      match self.router.requests[i]? with
      | some ⟨.readingBody, []⟩ =>
          some (self.handle (.react i (.bodyRead none) now) rfl
            (self.selections.set i (selectBackend app.pool incoming)))
      | _ => none
  | .select i draw counters now =>
      match self.selections[i]? with
      | some (.ask op next) =>
          let (answer, shared) := (self.shared now).perform draw counters op
          some (self.share shared (self.selections.set i (next answer)))
      | _ => none
  | .selected i startedAt now =>
      match self.router.requests[i]?, self.selections[i]? with
      | some ⟨.selecting, []⟩, some (.done choice) =>
          some (self.handle (.react i (.selected choice startedAt) now) rfl (self.selections.set i (pure none)))
      | _, _ => none
  | .react i event now =>
      if event.isSelection then none else some (self.handle (.react i event now) rfl self.selections)
  | .perform i now => some (self.handle (.perform i now) rfl self.selections)
  | .probed b healthy =>
      some (self.share ((self.shared 0).modify b (fun backend => (backend.recordProbe config healthy).2)
        fun backend => (backend.recordProbe_keeps config healthy).1) self.selections)
  | .scraped b reply =>
      some (self.share ((self.shared 0).modify b (fun backend => backend.recordScrape reply)
        fun backend => (backend.recordScrape_keeps reply).1) self.selections)
  | .observed b now =>
      some (self.share ((self.shared now).setBreaker b ((self.router.backends b).breaker.state now).2) self.selections)

def Step (config : HealthCheckConfig) (s : LiveRouter app) (action : LiveAction F) (t : LiveRouter app) : Prop :=
  s.act config action = some t

end LiveRouter

/-- An operation of a selection leaves a breaker alone, or is a call that gives
away what the operation gives. -/
theorem Shared.perform_breaker {F : Type} {strategy : RoutingStrategy F} (draw : F) (counters : BackendId → Counters)
    (self : Shared strategy.State) (op : SelectionOp) (b : BackendId) :
    ((self.perform draw counters op).2.backends b).breaker = (self.backends b).breaker ∧
        op.grants b (self.perform draw counters op).1 = 0 ∨
      ∃ e : Event, e.now = self.clock ∧ e.spent = 0 ∧
        ((self.perform draw counters op).2.backends b).breaker = ((self.backends b).breaker.serve e).2 ∧
        ((self.backends b).breaker.serve e).1.issued = op.grants b (self.perform draw counters op).1 := by
  cases op with
  | isHealthy | queueDepth | select => exact .inl ⟨rfl, rfl⟩
  | breakerIsRoutable backend =>
      by_cases hSame : b = backend
      · subst hSame
        refine .inr ⟨⟨self.clock, .isRoutable⟩, rfl, rfl, ?_, rfl⟩
        simp only [perform, setBreaker_self]
        rfl
      · exact .inl ⟨congrArg Backend.breaker (setBreaker_of_ne _ hSame _), rfl⟩
  | tryBegin backend =>
      by_cases hSame : b = backend
      · subst hSame
        refine .inr ⟨⟨self.clock, .tryBegin⟩, rfl, rfl, ?_, ?_⟩
        · simp only [perform, setBreaker_self]
          rfl
        · simp [perform, SelectionOp.grants, CircuitBreaker.serve, Answer.issued]
      · refine .inl ⟨congrArg Backend.breaker (setBreaker_of_ne _ hSame _), ?_⟩
        simp [SelectionOp.grants, Ne.symm hSame]

theorem Shared.modify_field {State α : Type} (field : Backend → α) (self : Shared State) (backend : BackendId)
    {f : Backend → Backend} (hId : ∀ x, (f x).id = x.id) (hField : ∀ x, field (f x) = field x) (b : BackendId) :
    field ((self.modify backend f hId).backends b) = field (self.backends b) := by
  by_cases hSame : b = backend
  · subst hSame
    exact (congrArg field (Function.update_self ..)).trans (hField _)
  · exact congrArg field (Function.update_of_ne hSame ..)

theorem Shared.setBreaker_field {State α : Type} (field : Backend → α)
    (hField : ∀ x breaker, field { x with breaker } = field x) (self : Shared State) (backend : BackendId)
    (breaker : CircuitBreaker) (b : BackendId) :
    field ((self.setBreaker backend breaker).backends b) = field (self.backends b) :=
  self.modify_field field backend (f := fun x => { x with breaker }) (fun _ => rfl) (fun x => hField x breaker) b

/-- A selection changes nothing of a backend but its breaker. -/
theorem Shared.perform_field {F α : Type} {strategy : RoutingStrategy F} (field : Backend → α)
    (hField : ∀ x breaker, field { x with breaker } = field x) (draw : F) (counters : BackendId → Counters)
    (self : Shared strategy.State) (op : SelectionOp) (b : BackendId) :
    field ((self.perform draw counters op).2.backends b) = field (self.backends b) := by
  cases op with
  | isHealthy | queueDepth | select => rfl
  | breakerIsRoutable backend | tryBegin backend => exact setBreaker_field field hField self backend _ b

namespace LiveRouter

variable {F : Type} {app : App F} {config : HealthCheckConfig} {s t : LiveRouter app} {action : LiveAction F}
  {selections : List (Selection (Option (BackendId × Admission)))}

/-- A step of a request, with the selections it leaves. -/
inductive Handles (s : LiveRouter app) : (action' : RouterAction) → action'.isEnvironment = false →
    List (Selection (Option (BackendId × Admission))) → Prop where
  | arrive : Handles s .arrive rfl (s.selections ++ [pure none])
  | read {i : Nat} (hRequest : s.router.requests[i]? = some ⟨.readingBody, []⟩) (incoming : IncomingRequest)
      (now : Nat) :
      Handles s (.react i (.bodyRead none) now) rfl (s.selections.set i (selectBackend app.pool incoming))
  | selected {i : Nat} {choice : Option (BackendId × Admission)}
      (hRequest : s.router.requests[i]? = some ⟨.selecting, []⟩)
      (hSelection : s.selections[i]? = some (.done choice)) (startedAt now : Nat) :
      Handles s (.react i (.selected choice startedAt) now) rfl (s.selections.set i (pure none))
  | other {action' : RouterAction} (hEnv : action'.isEnvironment = false) (hArrival : action'.isArrival = false)
      (hAction : ∀ i choice startedAt now, action' ≠ .react i (.selected choice startedAt) now) :
      Handles s action' hEnv s.selections

/-- The five kinds of steps. -/
inductive Move (config : HealthCheckConfig) (s : LiveRouter app) (action : LiveAction F) : LiveRouter app → Prop where
  | handle {action' : RouterAction} {hEnv : action'.isEnvironment = false}
      {selections : List (Selection (Option (BackendId × Admission)))} (handled : Handles s action' hEnv selections)
      (hNow : action'.now = action.now) (hProbe : ∀ b, action.probeOf b = none) :
      Move config s action (s.handle action' hEnv selections)
  | select {i : Nat} {op : SelectionOp} {next : op.Answer → Selection (Option (BackendId × Admission))}
      (hSelection : s.selections[i]? = some (.ask op next)) (draw : F) (counters : BackendId → Counters)
      (hProbe : ∀ b, action.probeOf b = none) :
      Move config s action (s.share ((s.shared action.now).perform draw counters op).2
        (s.selections.set i (next ((s.shared action.now).perform draw counters op).1)))
  | probed (b : BackendId) (healthy : Bool)
      (hProbe : ∀ other, action.probeOf other = if b = other then some healthy else none) :
      Move config s action (s.share ((s.shared 0).modify b (fun backend => (backend.recordProbe config healthy).2)
        fun backend => (backend.recordProbe_keeps config healthy).1) s.selections)
  | scraped (b : BackendId) (reply : MetricsReply) (hProbe : ∀ b, action.probeOf b = none) :
      Move config s action (s.share ((s.shared 0).modify b (fun backend => backend.recordScrape reply)
        fun backend => (backend.recordScrape_keeps reply).1) s.selections)
  | observed (b : BackendId) (hProbe : ∀ b, action.probeOf b = none) :
      Move config s action (s.share ((s.shared action.now).setBreaker b
        ((s.router.backends b).breaker.state action.now).2) s.selections)

theorem Step.move (step : Step config s action t) : Move config s action t := by
  have hAct : s.act config action = some t := step
  cases action with
  | arrive =>
      obtain rfl := Option.some.inj hAct
      exact .handle .arrive rfl fun _ => rfl
  | acquire i | perform i now =>
      obtain rfl := Option.some.inj hAct
      exact .handle (.other rfl rfl nofun) rfl fun _ => rfl
  | read i incoming now =>
      rw [act] at hAct
      split at hAct
      · rename_i hRequest
        obtain rfl := Option.some.inj hAct
        exact .handle (.read hRequest incoming now) rfl fun _ => rfl
      · cases hAct
  | select i draw counters now =>
      rw [act] at hAct
      split at hAct
      · rename_i hSelection
        obtain rfl := Option.some.inj hAct
        exact .select hSelection draw counters fun _ => rfl
      · cases hAct
  | selected i startedAt now =>
      rw [act] at hAct
      split at hAct
      · rename_i hRequest hSelection
        obtain rfl := Option.some.inj hAct
        exact .handle (.selected hRequest hSelection startedAt now) rfl fun _ => rfl
      · cases hAct
  | react i event now =>
      rw [act, Option.ite_none_left_eq_some] at hAct
      obtain ⟨hEvent, hNext⟩ := hAct
      obtain rfl := Option.some.inj hNext
      refine .handle (.other rfl rfl ?_) rfl fun _ => rfl
      rintro _ _ _ _ ⟨⟩
      exact hEvent rfl
  | probed b healthy =>
      obtain rfl := Option.some.inj hAct
      exact .probed b healthy fun _ => rfl
  | scraped b reply =>
      obtain rfl := Option.some.inj hAct
      exact .scraped b reply fun _ => rfl
  | observed b now =>
      obtain rfl := Option.some.inj hAct
      exact .observed b fun _ => rfl

/-- Other backends with the connections there were are a step of others. -/
theorem share_refines (s : LiveRouter app) {shared : Shared app.strategy.State}
    (hActive : ∀ b, (shared.backends b).activeConnections = (s.router.backends b).activeConnections) :
    (s.share shared selections).router = (s.router.act app.state (.environment shared.backends)).2 := by
  have hBackends : (fun b => { shared.backends b with
      activeConnections := (s.router.backends b).activeConnections }) = shared.backends := by
    funext b
    rw [← hActive b]
  simp only [LiveRouter.share, Router.act, hBackends]

/-- Every step of the system is one of the router, to which selections, health
checks and scrapes are others. -/
theorem Step.refines (step : Step config s action t) :
    ∃ action', t.router = (s.router.act app.state action').2 := by
  cases step.move with
  | handle => exact ⟨_, rfl⟩
  | @select _ op _ _ draw counters =>
      exact ⟨_, s.share_refines (Shared.perform_field _ (fun _ _ => rfl) draw counters _ op)⟩
  | probed b healthy =>
      refine ⟨_, s.share_refines ((s.shared 0).modify_field _ b (fun x => ?_) fun x => ?_)⟩
      · exact (x.recordProbe_keeps config healthy).1
      · exact congrArg Traffic.activeConnections (x.recordProbe_keeps config healthy).2
  | scraped b reply =>
      refine ⟨_, s.share_refines ((s.shared 0).modify_field _ b (fun x => ?_) fun x => ?_)⟩
      · exact (x.recordScrape_keeps reply).1
      · exact congrArg Traffic.activeConnections (x.recordScrape_keeps reply).2
  | observed b => exact ⟨_, s.share_refines (Shared.setBreaker_field _ (fun _ _ => rfl) _ b _)⟩

theorem refines {actions : List (LiveAction F)} (run : Run (Step config) s actions t) :
    ∃ actions', t.router = (replay (Router.act app.state) s.router actions').2 := by
  induction run with
  | nil s => exact ⟨[], rfl⟩
  | cons first _ ih =>
      obtain ⟨action, hFirst⟩ := first.refines
      obtain ⟨actions, hRest⟩ := ih
      exact ⟨action :: actions, by rw [hRest, hFirst, replay]⟩

/-- A step makes at most one call of a breaker. -/
theorem Step.breaker (step : Step config s action t) (b : BackendId) :
    (t.router.backends b).breaker = (s.router.backends b).breaker ∨
      ∃ call, (t.router.backends b).breaker = ((s.router.backends b).breaker.serve ⟨action.now, call⟩).2 := by
  cases step.move with
  | @handle action' hEnv _ _ hNow =>
      have hBackends : (s.router.act app.state action').2.backends = _ := Router.act_backends app.state s.router hEnv
      rw [LiveRouter.handle, hBackends, hNow]
      cases (s.router.act app.state action').1 with
      | none => exact .inl rfl
      | some effect =>
          rcases s.router.execute_breaker action.now effect b with ⟨hSame, -⟩ | ⟨call, -, hServe⟩
          · exact .inl hSame
          · exact .inr ⟨call, hServe⟩
  | @select _ op _ _ draw counters =>
      rcases (s.shared action.now).perform_breaker draw counters op b with ⟨hSame, -⟩ | ⟨e, hNow, -, hServe, -⟩
      · exact .inl hSame
      · obtain ⟨now, call⟩ := e
        obtain rfl : now = action.now := hNow
        exact .inr ⟨call, hServe⟩
  | probed backend healthy =>
      left
      refine (s.shared 0).modify_field _ backend (f := fun x => (x.recordProbe config healthy).2)
        (fun x => (x.recordProbe_keeps config healthy).1) (fun x => ?_) b
      exact congrArg Traffic.breaker (x.recordProbe_keeps config healthy).2
  | scraped backend reply =>
      left
      refine (s.shared 0).modify_field _ backend (f := fun x => x.recordScrape reply)
        (fun x => (x.recordScrape_keeps reply).1) (fun x => ?_) b
      exact congrArg Traffic.breaker (x.recordScrape_keeps reply).2
  | observed backend =>
      by_cases hSame : b = backend
      · subst hSame
        exact .inr ⟨.state, congrArg Backend.breaker (Shared.setBreaker_self ..)⟩
      · exact .inl (congrArg Backend.breaker (Shared.setBreaker_of_ne _ hSame _))

/-- Of health, a step does what its probe does. -/
theorem Step.switch (step : Step config s action t) (b : BackendId) :
    (t.router.backends b).switch = (action.probeOf b).elim (s.router.backends b).switch
      ((s.router.backends b).switch.observe config.healthyThreshold.toNat config.unhealthyThreshold.toNat) := by
  cases step.move with
  | @handle action' hEnv _ _ _ hProbe =>
      have hBackends : (s.router.act app.state action').2.backends = _ := Router.act_backends app.state s.router hEnv
      rw [hProbe, LiveRouter.handle, hBackends]
      cases (s.router.act app.state action').1 with
      | none => rfl
      | some effect => exact s.router.execute_field _ (fun _ _ => rfl) (fun _ _ => rfl) fun _ _ _ _ => rfl
  | @select _ op _ _ draw counters hProbe =>
      rw [hProbe]
      exact Shared.perform_field Backend.switch (fun _ _ => rfl) draw counters _ op b
  | probed backend healthy hProbe =>
      rw [hProbe]
      by_cases hSame : backend = b
      · subst hSame
        rw [if_pos rfl]
        exact (congrArg Backend.switch (Function.update_self ..)).trans (Backend.recordProbe_switch ..)
      · rw [if_neg hSame]
        exact congrArg Backend.switch (Function.update_of_ne (Ne.symm hSame) ..)
  | scraped backend reply hProbe =>
      rw [hProbe]
      exact (s.shared 0).modify_field Backend.switch backend (fun x => (x.recordScrape_keeps reply).1)
        (fun x => x.recordScrape_switch reply) b
  | observed backend hProbe =>
      rw [hProbe]
      exact Shared.setBreaker_field Backend.switch (fun _ _ => rfl) _ backend _ b

/-- The flag of a backend is the one its probes lead to. -/
theorem switch_of_run {actions : List (LiveAction F)} (run : Run (Step config) s actions t) (b : BackendId)
    {history : List Bool} (h : (s.router.backends b).switch =
      .run config.healthyThreshold.toNat config.unhealthyThreshold.toNat history) :
    (t.router.backends b).switch = .run config.healthyThreshold.toNat config.unhealthyThreshold.toNat
      (history ++ actions.filterMap (LiveAction.probeOf b)) := by
  induction run generalizing history with
  | nil => rwa [List.filterMap_nil, List.append_nil]
  | @cons _ _ _ action actions first _ ih =>
      have hNext := first.switch b
      cases hProbe : action.probeOf b with
      | none =>
          rw [hProbe, Option.elim_none, h] at hNext
          rw [List.filterMap_cons_none hProbe]
          exact ih hNext
      | some healthy =>
          rw [hProbe, Option.elim_some, h, ← Switch.run_concat] at hNext
          rw [List.filterMap_cons_some hProbe, ← List.singleton_append, ← List.append_assoc]
          exact ih hNext

/-- A circuit that a run opened, it opened at the clock reading of a step. -/
theorem openedAt_of_run {actions : List (LiveAction F)} (run : Run (Step config) s actions t) {b : BackendId}
    {opened : Nat} (h : (t.router.backends b).breaker.control.openedAt = some opened) :
    (s.router.backends b).breaker.control.openedAt = some opened ∨ ∃ action ∈ actions, action.now = opened := by
  induction run with
  | nil => exact .inl h
  | @cons s _ _ action _ first _ ih =>
      rcases ih h with hMiddle | ⟨other, hMem, hNow⟩
      · rcases first.breaker b with hSame | ⟨call, hServe⟩
        · exact .inl (hSame ▸ hMiddle)
        · rw [hServe, ((s.router.backends b).breaker.serve_control ⟨action.now, call⟩).2] at hMiddle
          rcases Control.serve_openedAt _ _ _ _ with hNone | hStamp | hKept
          · cases hNone.symm.trans hMiddle
          · exact .inr ⟨action, List.mem_cons_self .., Option.some.inj (hStamp.symm.trans hMiddle)⟩
          · exact .inl (hKept.symm.trans hMiddle)
      · exact .inr ⟨other, List.mem_cons_of_mem _ hMem, hNow⟩

end LiveRouter

section Built

variable {F : Type} [FloatArith F] {config : RouterConfig} {hashKey : Hasher}
  {buildClient : UpstreamConfig → Except String Unit} {metricsEnabled : Bool} {now : Nat} {app : App F}

/-- What a configuration builds, given its strategy. -/
theorem RouterConfig.of_buildApp (h : config.buildApp hashKey buildClient metricsEnabled now = .ok app) :
    config.buildStrategy hashKey = .ok app.strategy ∧
      app.pool = .enumerate config.backends.length config.backpressure.maxBackendQueueDepth.toNat ∧
      app.router.router = .start config.backpressure.maxInFlight.toNat config.backpressure.maxInFlight.toNat_lt
        (config.backendAt now) := by
  rw [RouterConfig.buildApp] at h
  cases hStrategy : config.buildStrategy (F := F) hashKey with
  | error message =>
      rw [hStrategy] at h
      cases h
  | ok strategy =>
      cases hClient : buildClient config.upstream with
      | error message =>
          rw [hStrategy, hClient] at h
          cases h
      | ok client =>
          rw [hStrategy, hClient] at h
          obtain rfl := Except.ok.inj h
          exact ⟨rfl, rfl, rfl⟩

namespace LiveRouter

variable {actions : List (LiveAction F)} {s : LiveRouter app}

/-- A backend is built with a closed circuit, marked healthy and idle. -/
theorem backends_start (hBuilt : config.buildApp hashKey buildClient metricsEnabled now = .ok app) (b : BackendId) :
    ∃ url weight, (start app).router.backends b = .new b url weight (.fromConfig now config.circuitBreaker) := by
  obtain ⟨-, -, hRouter⟩ := RouterConfig.of_buildApp hBuilt
  obtain ⟨url, weight, hBackend, -⟩ := config.backendAt_eq now b
  refine ⟨url, weight, (congrFun (congrArg Router.backends hRouter) b).trans ?_⟩
  simp only [Router.start, hBackend]
  rfl

/-- The flag of a backend says whether it is down. -/
theorem healthy_eq_false_iff (hBuilt : config.buildApp hashKey buildClient metricsEnabled now = .ok app)
    (run : Run (Step config.healthCheck) (start app) actions s) (b : BackendId) :
    (s.router.backends b).healthy = false ↔ LiveAction.Down config.healthCheck actions b := by
  obtain ⟨url, weight, hBackend⟩ := backends_start hBuilt b
  have hStart : ((start app).router.backends b).switch =
      .run config.healthCheck.healthyThreshold.toNat config.healthCheck.unhealthyThreshold.toNat [] := by
    rw [hBackend]
    rfl
  have hSwitch := switch_of_run run b hStart
  exact (congrArg (fun switch => switch.on = false) hSwitch).to_iff.trans (Switch.run_on_eq_false_iff ..)

theorem balanced_of_run (hBuilt : config.buildApp hashKey buildClient metricsEnabled now = .ok app)
    (run : Run (Step config.healthCheck) (start app) actions s) :
    s.router.Balanced ∧ s.router.backpressure.maxInFlight = config.backpressure.maxInFlight.toNat := by
  obtain ⟨-, -, hRouter⟩ := RouterConfig.of_buildApp hBuilt
  obtain ⟨actions', hRefines⟩ := refines run
  rw [hRefines]
  refine replay_invariant (fun router : Router => router.Balanced ∧
    router.backpressure.maxInFlight = config.backpressure.maxInFlight.toNat) ?_ ?_ actions'
  · exact fun router action h => ⟨(h.1.act app.state action).1, (Router.act_maxInFlight ..).trans h.2⟩
  · have hStart : (start app).router = _ := hRouter
    rw [hStart]
    exact ⟨Router.Balanced.start .., rfl⟩

end LiveRouter

end Built

end InferenceRouter
