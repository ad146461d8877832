import InferenceRouter.Server.ProbesHeld

/-! Whatever came before, a router at rest holds nothing, and is in service after an
open period. -/
namespace InferenceRouter

open Semantics Program

/-- A quiet selection whose breakers all let traffic through succeeds if a backend of
the pool is healthy, and on such a backend. -/
theorem selectBackend_of_healthy {F : Type} {strategy : RoutingStrategy F} {numBackends : Nat} {pool : BackendPool}
    (hHonours : strategy.Honours numBackends) (hPool : ∀ b ∈ pool.backends, b < numBackends)
    {incoming : IncomingRequest} {s t : Shared strategy.State}
    {accesses : List (Access (Shared strategy.State) SelectionOp.Answer)} {result : Option (BackendId × Admission)}
    (hRoutable : ∀ b now, s.clock ≤ now → ((s.backends b).breaker.isRoutable now).1 = true)
    (exec : Selection.Execution strategy QuietlyInterferes (selectBackend pool incoming) s accesses result t) :
    (result = none ↔ ∀ b ∈ pool.backends, (s.backends b).healthy = false) ∧
      ∀ b adm, result = some (b, adm) → b ∈ pool.backends ∧ (s.backends b).healthy = true := by
  obtain ⟨snapshot, middle, examination, rest, rfl, hExamine, hTry⟩ := exec.of_bind
  obtain ⟨found, depth, hExamination⟩ := examination_of_routable framing_untouched hExamine
  have hFound : ∀ b ∈ pool.backends, found b = (s.backends b).healthy := by
    intro b hMem
    rw [Bool.eq_iff_iff, hExamination.found_iff hExamine hMem]
    refine ⟨fun h => h.1, fun hHealthy => ⟨hHealthy, ?_⟩⟩
    obtain ⟨x, y, hAsked⟩ := hExamination.asked_of_healthy hExamine hMem hHealthy
    have hClock : s.clock ≤ x.clock := (hExamination.agrees _ hAsked).2.1.2.2
    exact ⟨x, found b, y, hAsked, hClock, hRoutable b x.clock hClock⟩
  refine ⟨?_, ?_⟩
  · have hEmpty : snapshot = [] ↔ ∀ b ∈ pool.backends, (s.backends b).healthy = false := by
      rw [hExamination.snapshot_eq, BackendPool.routableWith_eq_nil_iff]
      exact forall₂_congr fun b hMem => by rw [hFound b hMem]
    rw [← hEmpty]
    rcases hExamination.loop_of_quiet hExamine hTry hHonours hPool with
      ⟨hNil, hNone, -⟩ | ⟨hSome, _, _, _, _, _, hResult, -⟩
    · exact iff_of_true hNone hNil
    · exact iff_of_false (hResult ▸ nofun) hSome
  · rintro b adm rfl
    obtain ⟨hPicked, -⟩ := (attempts_of_tryCandidates hTry).of_some
    obtain ⟨hInPool, hPickedFound⟩ := hExamination.of_mem_snapshot hPicked
    exact ⟨hInPool, hFound b hInPool ▸ hPickedFound⟩

section Built

variable {F : Type} [FloatArith F] {config : RouterConfig} {hashKey : Hasher}
  {buildClient : UpstreamConfig → Except String Unit} {metricsEnabled : Bool} {now : Nat} {app : App F}

namespace LiveRouter

variable {actions : List (LiveAction F)} {s : LiveRouter app}

/-- After an open period with nobody at work, every breaker lets traffic through. -/
theorem isRoutable_of_ended (hBuilt : config.buildApp hashKey buildClient metricsEnabled now = .ok app)
    (run : Run (Step config.healthCheck) (start app) actions s)
    (hEnded : ∀ request ∈ s.router.requests, request.Ended) {later : Nat}
    (hLater : ∀ action ∈ actions, action.now + fromSecs config.circuitBreaker.openDurationSecs.toNat ≤ later)
    (b : BackendId) : ((s.router.backends b).breaker.isRoutable later).1 = true := by
  have hSound := (sound_start hBuilt).run run
  have hNone := hSound.breakers b
  rw [hSound.probesOn_of_ended hEnded b] at hNone
  refine hNone.isRoutable fun opened hOpened => ?_
  rcases openedAt_of_run run hOpened with hStart | ⟨action, hMem, rfl⟩
  · obtain ⟨url, weight, hBackend⟩ := backends_start hBuilt b
    rw [hBackend] at hStart
    cases hStart
  · exact hLater action hMem

/-- Nothing that has happened locks a backend out. When every request has ended, no
slot, no connection and no probe is left in use. And an open period after the last
step, a selection fails exactly if all backends are down by their probes, and else
ends on one that is not. -/
theorem recovers (hBuilt : config.buildApp hashKey buildClient metricsEnabled now = .ok app)
    (run : Run (Step config.healthCheck) (start app) actions s)
    (hEnded : ∀ request ∈ s.router.requests, request.Ended) {later : Nat}
    (hLater : ∀ action ∈ actions, action.now + fromSecs config.circuitBreaker.openDurationSecs.toNat ≤ later) :
    s.router.backpressure.inFlight = 0 ∧
    (∀ b, (s.router.backends b).activeConnections = 0 ∧
      (s.router.backends b).breaker.inner.probeInFlight = false) ∧
    ∀ incoming accesses result t,
      Selection.Execution app.strategy QuietlyInterferes (selectBackend app.pool incoming) (s.shared later)
        accesses result t →
      (result = none ↔ ∀ b < config.backends.length, LiveAction.Down config.healthCheck actions b) ∧
      ∀ b adm, result = some (b, adm) →
        b < config.backends.length ∧ ¬LiveAction.Down config.healthCheck actions b := by
  have hSound := (sound_start hBuilt).run run
  obtain ⟨hBalanced, -⟩ := balanced_of_run hBuilt run
  obtain ⟨hStrategy, hPool, -⟩ := RouterConfig.of_buildApp hBuilt
  have hMember (b : BackendId) : b ∈ app.pool.backends ↔ b < config.backends.length := by
    rw [hPool]
    exact List.mem_range
  refine ⟨?_, fun b => ⟨?_, ?_⟩, ?_⟩
  · rw [hBalanced.inFlight, sumOver_eq_zero_iff]
    exact fun request hMem => (hEnded request hMem).permits_eq_zero
  · rw [hBalanced.active b, sumOver_eq_zero_iff]
    exact fun request hMem => (hEnded request hMem).guardsOn_eq_zero b
  · exact (hSound.breakers b).coherent.eq_zero_iff.mp (hSound.probesOn_of_ended hEnded b)
  · intro incoming accesses result t exec
    obtain ⟨hFails, hSucceeds⟩ := selectBackend_of_healthy (createStrategy_honours hStrategy)
      (fun b => (hMember b).mp) (fun b x hClock => isRoutable_of_ended hBuilt run hEnded
        (fun action hMem => (hLater action hMem).trans hClock) b) exec
    refine ⟨hFails.trans (forall_congr' fun b => ?_), fun b adm hResult => ?_⟩
    · rw [hMember b]
      exact imp_congr_right fun _ => healthy_eq_false_iff hBuilt run b
    · obtain ⟨hMem, hHealthy⟩ := hSucceeds b adm hResult
      refine ⟨(hMember b).mp hMem, fun hDown => ?_⟩
      exact Bool.false_ne_true (((healthy_eq_false_iff hBuilt run b).mpr hDown).symm.trans hHealthy)

instance : DecidablePred Request.Ended
  | ⟨.replied (.error _), pending⟩ => decidable_of_iff (pending = []) (and_iff_right trivial).symm
  | ⟨.gone, pending⟩ => decidable_of_iff (pending = []) (and_iff_right trivial).symm
  | ⟨.replied (.ok response), pending⟩ =>
      inferInstanceAs (Decidable ((Phase.replied (.ok response)).accounting = none ∧ pending = []))
  | ⟨.arrived, _⟩ | ⟨.readingBody, _⟩ | ⟨.selecting, _⟩ | ⟨.forwarding _, _⟩ => .isFalse fun h => h.1

/-- One backend opens its circuit, and the other one fails its health checks. -/
theorem recovers_outage :
    let config := touchyConfig [⟨"http://a:8000", 1⟩, ⟨"http://b:8000", 1⟩]
    let outage : List (LiveAction ℚ) := unanswered 0 8 0 ++ List.replicate 3 (.probed 1 false)
    ∃ app : App ℚ, config.buildApp keySize (fun _ => .ok ()) true 0 = .ok app ∧
      ∃ s : LiveRouter app, Run (Step config.healthCheck) (start app) outage s ∧
        (s.router.backends 0).breaker.inner.state = .open ∧
        ∀ incoming accesses result t,
          Selection.Execution app.strategy QuietlyInterferes (selectBackend app.pool incoming)
            (s.shared (fromSecs 30)) accesses result t → ∃ adm, result = some (0, adm) := by
  intro config outage
  obtain ⟨app, hBuilt⟩ : ∃ app : App ℚ, config.buildApp keySize (fun _ => .ok ()) true 0 = .ok app := ⟨_, rfl⟩
  have hRuns : (outage.foldlM (act config.healthCheck) (start app)).map (fun s =>
      (decide ((s.router.backends 0).breaker.inner.state = .open),
        decide (∀ request ∈ s.router.requests, request.Ended))) = some (true, true) := by
    cases hBuilt
    decide +kernel
  obtain ⟨s, hState, hSeen⟩ := Option.map_eq_some_iff.mp hRuns
  simp only [Prod.mk.injEq, decide_eq_true_eq] at hSeen
  obtain ⟨hOpen, hEnded⟩ := hSeen
  have hRun := Run.of_foldlM hState
  have hUp : ¬LiveAction.Down config.healthCheck outage 0 := fun hDown =>
    absurd ((Switch.run_on_eq_false_iff ..).mpr hDown) (by decide +kernel)
  have hDown : LiveAction.Down config.healthCheck outage 1 :=
    (Switch.run_on_eq_false_iff ..).mp (by decide +kernel)
  have hLater : ∀ action ∈ outage, action.now + fromSecs config.circuitBreaker.openDurationSecs.toNat ≤
      fromSecs 30 := by decide +kernel
  obtain ⟨-, -, hSelects⟩ := recovers hBuilt hRun hEnded hLater
  refine ⟨app, hBuilt, s, hRun, hOpen, fun incoming accesses result t exec => ?_⟩
  obtain ⟨hFails, hPicks⟩ := hSelects incoming accesses result t exec
  cases result with
  | none => exact absurd (hFails.mp rfl 0 (by decide)) hUp
  | some picked =>
      obtain ⟨b, adm⟩ := picked
      obtain ⟨hBelow, hNotDown⟩ := hPicks b adm rfl
      rcases Nat.le_one_iff_eq_zero_or_eq_one.mp (Nat.le_of_lt_succ hBelow) with rfl | rfl
      · exact ⟨adm, rfl⟩
      · exact absurd hDown hNotDown

end LiveRouter

end Built

end InferenceRouter
