import InferenceRouter.Server.LiveRouter

/-! Every probe of the whole router is somewhere, and nowhere twice: what the
breakers gave away is what requests and selections hold. -/
namespace InferenceRouter

open Semantics Program

/-- What a selection is given is what the breaker gave away. -/
theorem Shared.perform_accountable {F : Type} {strategy : RoutingStrategy F} (draw : F)
    (counters : BackendId → Counters) (self : Shared strategy.State) (op : SelectionOp) {b : BackendId}
    {d tokens : Nat} (h : (self.backends b).breaker.Accountable d tokens) :
    ((self.perform draw counters op).2.backends b).breaker.Accountable d
      (tokens + op.grants b (self.perform draw counters op).1) := by
  rcases self.perform_breaker draw counters op b with ⟨hSame, hNone⟩ | ⟨e, -, hSpent, hServe, hIssued⟩
  · rwa [hSame, hNone]
  · have hNext := h.serve e (hSpent ▸ Nat.zero_le tokens)
    rwa [hSpent, Nat.sub_zero, hIssued, ← hServe] at hNext

/-- A verdict that an effect delivers is one probe fewer. -/
theorem Router.execute_accountable (s : Router) (now : Nat) {effect : Effect} {b : BackendId} {d tokens left : Nat}
    (h : (s.backends b).breaker.Accountable d tokens) (hClaim : effect.isClaim = false)
    (hTokens : left + (if effect.spendsProbe b then 1 else 0) = tokens) :
    ((s.execute now effect).backends b).breaker.Accountable d left := by
  rcases s.execute_breaker now effect b with ⟨hSame, hSpends⟩ | ⟨call, rfl, hServe⟩
  · rw [hSpends] at hTokens
    obtain rfl : left = tokens := by simpa using hTokens
    rwa [hSame]
  · rw [hServe]
    refine h.deliver now ?_ (by simpa [Effect.spendsProbe] using hTokens)
    rintro rfl
    exact absurd hClaim (by simp [Effect.isClaim])

namespace LiveRouter

variable {F : Type} {app : App F} {config : HealthCheckConfig} {d : Nat} {s t : LiveRouter app} {action : LiveAction F}
  {selections : List (Selection (Option (BackendId × Admission)))}

/-- The probes of backend `b` that are out, with requests or with selections. -/
def probesOn (b : BackendId) (self : LiveRouter app) : Nat :=
  self.router.probesOn b + sumOver (Selection.probesOn b) self.selections

/-- What holds of a system at any time. -/
structure Sound (d : Nat) (s : LiveRouter app) : Prop where
  breakers : ∀ b, (s.router.backends b).breaker.Accountable d (s.probesOn b)
  claimless : s.router.Claimless
  accounts : ∀ p ∈ s.selections, ∀ b, Selection.Accounts b p
  selecting : ∀ i p, s.selections[i]? = some p → p ≠ .done none → s.router.Selecting i
  length : s.selections.length = s.router.requests.length

/-- A step of a request delivers at most one verdict, and hands on the other probes. -/
theorem Sound.handle_breakers (h : Sound d s) {action : RouterAction} (hEnv : action.isEnvironment = false)
    {b : BackendId} (hProbes : (s.router.act app.state action).2.probesOn b +
      (s.router.act app.state action).1.toList.countP (Effect.spendsProbe b) +
        sumOver (Selection.probesOn b) selections = s.probesOn b) :
    ((s.handle action hEnv selections).router.backends b).breaker.Accountable d
      ((s.handle action hEnv selections).probesOn b) := by
  have hClaim := (h.claimless.act app.state action).2
  have hTokens : (s.handle action hEnv selections).probesOn b +
      (s.router.act app.state action).1.toList.countP (Effect.spendsProbe b) = s.probesOn b := by
    simp only [probesOn, LiveRouter.handle] at hProbes ⊢
    omega
  have hBackends : (s.handle action hEnv selections).router.backends =
      (s.router.act app.state action).1.elim s.router.backends
        fun effect => (s.router.execute action.now effect).backends :=
    Router.act_backends app.state s.router hEnv
  rw [hBackends]
  generalize (s.router.act app.state action).1 = effect at hClaim hTokens ⊢
  cases effect with
  | none =>
      have hSame : (s.handle action hEnv selections).probesOn b = s.probesOn b := by simpa using hTokens
      exact hSame ▸ h.breakers b
  | some effect =>
      have hOne : (s.handle action hEnv selections).probesOn b + (if effect.spendsProbe b then 1 else 0) =
          s.probesOn b := by simpa [List.countP_singleton] using hTokens
      exact s.router.execute_accountable action.now (h.breakers b) (hClaim effect rfl) hOne

/-- A step of a request keeps the system sound, if what becomes of the selections
accounts for the probes. -/
theorem Sound.handle (h : Sound d s) {action : RouterAction} (hEnv : action.isEnvironment = false)
    (hProbes : ∀ b, (s.router.act app.state action).2.probesOn b +
      (s.router.act app.state action).1.toList.countP (Effect.spendsProbe b) +
        sumOver (Selection.probesOn b) selections = s.probesOn b)
    (hAccounts : ∀ p ∈ selections, ∀ b, Selection.Accounts b p)
    (hSelecting : ∀ i p, selections[i]? = some p → p ≠ .done none →
      (s.router.act app.state action).2.Selecting i)
    (hLength : selections.length = s.router.requests.length + if action.isArrival then 1 else 0) :
    Sound d (s.handle action hEnv selections) where
  breakers b := h.handle_breakers hEnv (hProbes b)
  claimless := (h.claimless.act app.state action).1
  accounts := hAccounts
  selecting := hSelecting
  length := hLength.trans (Router.length_requests_act ..).symm

/-- A step that no selection takes part in. -/
theorem Sound.handle_self (h : Sound d s) {action : RouterAction} (hEnv : action.isEnvironment = false)
    (hAction : ∀ i choice startedAt now, action ≠ .react i (.selected choice startedAt) now)
    (hArrival : action.isArrival = false) : Sound d (s.handle action hEnv s.selections) := by
  have hNone (b : BackendId) : action.probesOn b = 0 := by
    cases action with
    | react i event now =>
        cases event with
        | selected choice startedAt => exact absurd rfl (hAction i choice startedAt now)
        | _ => rfl
    | _ => rfl
  refine h.handle hEnv (fun b => ?_) h.accounts (fun i p hSelection hLeft => ?_) ?_
  · rw [Router.act_probes app.state s.router (hNone b)]
    rfl
  · exact (h.selecting i p hSelection hLeft).act app.state (hAction i)
  · rw [hArrival]
    exact h.length

/-- Other backends keep the system sound, if their breakers account for the probes. -/
theorem Sound.share (h : Sound d s) {shared : Shared app.strategy.State}
    (hBreakers : ∀ b, (shared.backends b).breaker.Accountable d
      (s.router.probesOn b + sumOver (Selection.probesOn b) selections))
    (hAccounts : ∀ p ∈ selections, ∀ b, Selection.Accounts b p)
    (hSelecting : ∀ i p, selections[i]? = some p → p ≠ .done none → s.router.Selecting i)
    (hLength : selections.length = s.selections.length) : Sound d (s.share shared selections) :=
  ⟨hBreakers, h.claimless, hAccounts, hSelecting, hLength.trans h.length⟩

/-- A health check touches no breaker. -/
theorem Sound.check (h : Sound d s) (b : BackendId) {f : Backend → Backend} (hId : ∀ x, (f x).id = x.id)
    (hBreaker : ∀ x, (f x).breaker = x.breaker) (now : Nat) :
    Sound d (s.share ((s.shared now).modify b f hId) s.selections) := by
  refine h.share (fun other => ?_) h.accounts h.selecting rfl
  rw [Shared.modify_field Backend.breaker (s.shared now) b hId hBreaker]
  exact h.breakers other

/-- A scrape of the router is a call that claims nothing. -/
theorem Sound.observe (h : Sound d s) (b : BackendId) (now : Nat) :
    Sound d (s.share ((s.shared now).setBreaker b ((s.router.backends b).breaker.state now).2) s.selections) := by
  refine h.share (fun other => ?_) h.accounts h.selecting rfl
  by_cases hOther : other = b
  · subst hOther
    rw [Shared.setBreaker_self]
    exact (h.breakers other).deliver now (nofun : Call.state ≠ .tryBegin) rfl
  · rw [Shared.setBreaker_of_ne _ hOther]
    exact h.breakers other

/-- A selection that goes on has claimed what it holds. -/
theorem Sound.select (h : Sound d s) {i : Nat} {op : SelectionOp}
    {next : op.Answer → Selection (Option (BackendId × Admission))}
    (hSelection : s.selections[i]? = some (.ask op next)) (draw : F)
    (counters : BackendId → Counters) (now : Nat) :
    let performed := (s.shared now).perform draw counters op
    Sound d (s.share performed.2 (s.selections.set i (next performed.1))) := by
  intro performed
  have hKeeps (b : BackendId) := h.accounts _ (List.mem_of_getElem? hSelection) b performed.1
  have hSum (b : BackendId) := sumOver_set (Selection.probesOn b) hSelection (next performed.1)
  refine h.share (fun b => ?_) (fun p hMem b => ?_) (fun j p hAt hLeft => ?_) (List.length_set ..)
  · have hTokens : s.router.probesOn b + sumOver (Selection.probesOn b) (s.selections.set i (next performed.1)) =
        s.probesOn b + op.grants b performed.1 := by
      have hHeld : Selection.probesOn b (next performed.1) = op.grants b performed.1 := (hKeeps b).1
      have hBefore : Selection.probesOn b (.ask op next) = 0 := rfl
      have hSumOn := hSum b
      simp only [probesOn]
      omega
    rw [hTokens]
    exact (s.shared now).perform_accountable draw counters op (h.breakers b)
  · rcases List.mem_or_eq_of_mem_set hMem with hOld | rfl
    · exact h.accounts p hOld b
    · exact (hKeeps b).2
  · by_cases hSame : i = j
    · exact hSame ▸ h.selecting i _ hSelection nofun
    · rw [List.getElem?_set_ne hSame] at hAt
      exact h.selecting j p hAt hLeft

/-- What is left at a position where nothing was changes the probes by what it holds. -/
theorem Sound.sumOver_selections (h : Sound d s) {i : Nat} {request : Request}
    (hRequest : s.router.requests[i]? = some request) (hPhase : request.phase ≠ .selecting)
    (p : Selection (Option (BackendId × Admission))) (b : BackendId) :
    sumOver (Selection.probesOn b) (s.selections.set i p) =
      sumOver (Selection.probesOn b) s.selections + Selection.probesOn b p := by
  have hBound : i < s.selections.length := h.length ▸ (List.getElem?_eq_some_iff.mp hRequest).1
  have hOld : s.selections[i]? = some s.selections[i] := List.getElem?_eq_getElem hBound
  have hNothing : s.selections[i] = .done none := by
    by_contra hLeft
    obtain ⟨other, hOther, hSelecting⟩ := h.selecting i _ hOld hLeft
    rw [Option.some.inj (hRequest.symm.trans hOther)] at hPhase
    exact hPhase hSelecting
  have hSum := sumOver_set (Selection.probesOn b) hOld p
  have hNone : Selection.probesOn b s.selections[i] = 0 := by rw [hNothing]; rfl
  omega

/-- A handler that has read its body begins its selection with nothing in hand. -/
theorem Sound.read (h : Sound d s) {i : Nat} (hRequest : s.router.requests[i]? = some ⟨.readingBody, []⟩)
    (incoming : IncomingRequest) (now : Nat) :
    Sound d (s.handle (.react i (.bodyRead none) now) rfl (s.selections.set i (selectBackend app.pool incoming))) := by
  refine h.handle rfl (fun b => ?_) (fun p hMem b => ?_) (fun j p hAt hLeft => ?_) ?_
  · rw [Router.act_probes app.state s.router rfl, h.sumOver_selections hRequest nofun,
      (accounts_selectBackend b app.pool incoming).1]
    rfl
  · rcases List.mem_or_eq_of_mem_set hMem with hOld | rfl
    · exact h.accounts p hOld b
    · exact (accounts_selectBackend b app.pool incoming).2
  · by_cases hSame : i = j
    · subst hSame
      have hBound : i < s.router.requests.length := (List.getElem?_eq_some_iff.mp hRequest).1
      have hReact : Phase.react app.state .readingBody (.bodyRead none) = some ([], .selecting) := rfl
      rw [Router.act_react hRequest hReact nofun]
      exact ⟨⟨.selecting, []⟩, List.getElem?_set_self hBound, rfl⟩
    · rw [List.getElem?_set_ne hSame] at hAt
      exact (h.selecting j p hAt hLeft).act app.state nofun
  · rw [List.length_set]
    exact h.length

/-- The handler takes over what its selection holds. -/
theorem Sound.selected (h : Sound d s) {i : Nat} {choice : Option (BackendId × Admission)}
    (hRequest : s.router.requests[i]? = some ⟨.selecting, []⟩) (hSelection : s.selections[i]? = some (.done choice))
    (startedAt now : Nat) :
    Sound d (s.handle (.react i (.selected choice startedAt) now) rfl (s.selections.set i (pure none))) := by
  obtain ⟨effects, next, hReact⟩ : ∃ effects next,
      Phase.react app.state .selecting (.selected choice startedAt) = some (effects, next) := by
    cases choice <;> exact ⟨_, _, rfl⟩
  refine h.handle rfl (fun b => ?_) (fun p hMem b => ?_) (fun j p hAt hLeft => ?_) ?_
  · have hStep : Phase.Step app.state .selecting (.selected choice startedAt, effects) next := hReact
    have hHandsOn : next.probesOn b + effects.countP (Effect.spendsProbe b) =
        (Request.mk .selecting []).probesOn b + grantOn b choice := hStep.handsOn.probes b
    have hProbes := Router.commit_probes hRequest hHandsOn now
    have hSum := sumOver_set (Selection.probesOn b) hSelection (pure none)
    have hHeld : Selection.probesOn b (.done choice) = grantOn b choice := rfl
    have hNone : Selection.probesOn b (pure none) = 0 := rfl
    rw [Router.act_react hRequest hReact nofun]
    simp only [probesOn]
    omega
  · rcases List.mem_or_eq_of_mem_set hMem with hOld | rfl
    · exact h.accounts p hOld b
    · trivial
  · by_cases hSame : i = j
    · subst hSame
      have hBound : i < s.selections.length := (List.getElem?_eq_some_iff.mp hSelection).1
      rw [List.getElem?_set_self hBound] at hAt
      exact absurd (Option.some.inj hAt).symm hLeft
    · rw [List.getElem?_set_ne hSame] at hAt
      refine (h.selecting j p hAt hLeft).act app.state ?_
      rintro _ _ _ ⟨⟩
      exact hSame rfl
  · rw [List.length_set]
    exact h.length

theorem Sound.arrive (h : Sound d s) : Sound d (s.handle .arrive rfl (s.selections ++ [pure none])) := by
  refine h.handle rfl (fun b => ?_) (fun p hMem b => ?_) (fun i p hAt hLeft => ?_) ?_
  · rw [Router.act_probes app.state s.router rfl, sumOver_append]
    rfl
  · rcases List.mem_append.mp hMem with hOld | hNew
    · exact h.accounts p hOld b
    · rw [List.mem_singleton.mp hNew]
      trivial
  · rw [List.getElem?_append] at hAt
    split at hAt
    · exact (h.selecting i p hAt hLeft).act app.state nofun
    · exact absurd (List.mem_singleton.mp (List.mem_of_getElem? hAt)) hLeft
  · rw [List.length_append, h.length]
    rfl

/-- Every step keeps the system sound. -/
theorem Sound.step (h : Sound d s) (step : Step config s action t) : Sound d t := by
  cases step.move with
  | handle handled =>
      cases handled with
      | arrive => exact h.arrive
      | read hRequest incoming now => exact h.read hRequest incoming now
      | selected hRequest hSelection startedAt now => exact h.selected hRequest hSelection startedAt now
      | other _ hArrival hAction => exact h.handle_self _ hAction hArrival
  | select hSelection draw counters => exact h.select hSelection draw counters action.now
  | probed b healthy =>
      exact h.check b _ (fun x => congrArg Traffic.breaker (x.recordProbe_keeps config healthy).2) 0
  | scraped b reply =>
      exact h.check b _ (fun x => congrArg Traffic.breaker (x.recordScrape_keeps reply).2) 0
  | observed b => exact h.observe b action.now

theorem Sound.run {actions : List (LiveAction F)} (h : Sound d s) (run : Run (Step config) s actions t) : Sound d t :=
  run.invariant (Sound d) (fun _ _ _ hSound step => hSound.step step) h

/-- At rest no probe is out. -/
theorem Sound.probesOn_of_ended (h : Sound d s) (hEnded : ∀ request ∈ s.router.requests, request.Ended)
    (b : BackendId) : s.probesOn b = 0 := by
  have hRequests : s.router.probesOn b = 0 :=
    (sumOver_eq_zero_iff _).mpr fun request hMem => (hEnded request hMem).probesOn_eq_zero b
  have hSelections : sumOver (Selection.probesOn b) s.selections = 0 := by
    refine (sumOver_eq_zero_iff _).mpr fun p hMem => ?_
    obtain ⟨i, hAt⟩ := List.mem_iff_getElem?.mp hMem
    by_cases hLeft : p = .done none
    · rw [hLeft]
      rfl
    · obtain ⟨request, hRequest, hPhase⟩ := h.selecting i p hAt hLeft
      have hOver := (hEnded request (List.mem_of_getElem? hRequest)).1
      rw [hPhase] at hOver
      exact hOver.elim
  rw [probesOn, hRequests, hSelections]

end LiveRouter

section Built

variable {F : Type} [FloatArith F] {config : RouterConfig} {hashKey : Hasher}
  {buildClient : UpstreamConfig → Except String Unit} {metricsEnabled : Bool} {now : Nat} {app : App F}

namespace LiveRouter

variable {actions : List (LiveAction F)} {s : LiveRouter app}

theorem sound_start (hBuilt : config.buildApp hashKey buildClient metricsEnabled now = .ok app) :
    Sound (fromSecs config.circuitBreaker.openDurationSecs.toNat) (start app) := by
  obtain ⟨-, -, hRouter⟩ := RouterConfig.of_buildApp hBuilt
  have hRequests : (start app).router.requests = [] := congrArg Router.requests hRouter
  refine ⟨fun b => ?_, ?_, List.forall_mem_nil _, fun i p hAt => ?_, congrArg List.length hRequests.symm⟩
  · obtain ⟨url, weight, hBackend⟩ := backends_start hBuilt b
    have hProbes : (start app).probesOn b = 0 := by
      rw [probesOn, Router.probesOn, hRequests]
      rfl
    rw [hProbes, hBackend]
    exact ⟨rfl, ⟨rfl, fun hProbe => absurd hProbe Bool.false_ne_true⟩, fun hNot => absurd rfl hNot⟩
  · rw [Router.Claimless, hRequests]
    exact List.forall_mem_nil _
  · cases hAt

/-- Of every backend at most one probe is out: with a selection that has just claimed
it, in a guard, or in a verdict that is still to be delivered. It is out exactly while
the flag of its breaker is up, which is in `HalfOpen` only. The slots and connections
in use are those that the requests hold. -/
theorem probes_held_once (hBuilt : config.buildApp hashKey buildClient metricsEnabled now = .ok app)
    (run : Run (Step config.healthCheck) (start app) actions s) :
    (∀ b, s.probesOn b ≤ 1 ∧ (s.probesOn b = 1 ↔ (s.router.backends b).breaker.inner.probeInFlight = true) ∧
      (s.probesOn b = 1 → (s.router.backends b).breaker.inner.state = .halfOpen)) ∧
    s.router.backpressure.inFlight = sumOver Request.permits s.router.requests ∧
    s.router.backpressure.inFlight ≤ config.backpressure.maxInFlight.toNat ∧
    ∀ b, (s.router.backends b).activeConnections = sumOver (Request.guardsOn b) s.router.requests := by
  have hSound := (sound_start hBuilt).run run
  obtain ⟨hBalanced, hMax⟩ := balanced_of_run hBuilt run
  refine ⟨fun b => ?_, hBalanced.inFlight, hMax ▸ hBalanced.bounded, hBalanced.active⟩
  have hCoherent := (hSound.breakers b).coherent
  exact ⟨hCoherent.le_one, hCoherent.eq_one_iff, fun hOne => (hCoherent.of_token (by omega)).1⟩

/-- A request, up to operation `n` of its selection. -/
def begun (i n now : Nat) : List (LiveAction ℚ) :=
  [.arrive, .acquire i, .read i promptRequest now] ++ List.replicate n (.select i 0 (fun _ => ⟨0, 0, 0, 0⟩) now)

/-- A request that its backend does not answer. -/
def unanswered (i n now : Nat) : List (LiveAction ℚ) :=
  begun i n now ++ [.selected i now now, .react i (.answered .failed ⟨now, now⟩) now] ++
    List.replicate 4 (.perform i now)

/-- Circuits that open on the first failure. -/
def touchyConfig (backends : List BackendConfig) : RouterConfig where
  routing := { strategy := "least_load" }
  backends
  circuitBreaker := { minRequests := 1 }

/-- The second request is the probe, and its selection has just claimed it. -/
theorem probes_held_once_claimed :
    let config := touchyConfig [⟨"http://a:8000", 1⟩]
    ∃ app : App ℚ, config.buildApp keySize (fun _ => .ok ()) true 0 = .ok app ∧
      ∃ s : LiveRouter app,
        Run (Step config.healthCheck) (start app) (unanswered 0 5 0 ++ begun 1 5 (fromSecs 30)) s ∧
        s.probesOn 0 = 1 ∧ s.router.probesOn 0 = 0 ∧ (s.router.backends 0).breaker.inner.probeInFlight = true ∧
        s.router.backpressure.inFlight = 1 := by
  intro config
  obtain ⟨app, hBuilt⟩ : ∃ app : App ℚ, config.buildApp keySize (fun _ => .ok ()) true 0 = .ok app := ⟨_, rfl⟩
  have hRuns : ((unanswered 0 5 0 ++ begun 1 5 (fromSecs 30)).foldlM (act config.healthCheck) (start app)).map
      (fun s => (s.probesOn 0, s.router.probesOn 0, sumOver Request.permits s.router.requests)) = some (1, 0, 1) := by
    cases hBuilt
    decide +kernel
  obtain ⟨s, hState, hSeen⟩ := Option.map_eq_some_iff.mp hRuns
  simp only [Prod.mk.injEq] at hSeen
  obtain ⟨hProbes, hRequests, hPermits⟩ := hSeen
  have hRun := Run.of_foldlM hState
  obtain ⟨hHeld, hInFlight, -⟩ := probes_held_once hBuilt hRun
  exact ⟨app, hBuilt, s, hRun, hProbes, hRequests, (hHeld 0).2.1.mp hProbes, hInFlight.trans hPermits⟩

end LiveRouter

end Built

end InferenceRouter
