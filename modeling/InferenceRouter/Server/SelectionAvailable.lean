import InferenceRouter.Server.Selection

/-! A backend that stays available is never the reason for a refusal. Among any
steps of others one such backend is enough for a selection; without breaker calls
and health verdicts of others the first pick of the strategy is admitted. -/
namespace InferenceRouter

open Semantics Program

variable {F : Type} {strategy : RoutingStrategy F}
  {Steps : Shared strategy.State → Interference strategy.State → Shared strategy.State → Prop}
  {s t : Shared strategy.State} {b : BackendId} {pool : BackendPool} {incoming : IncomingRequest}
  {accesses : List (Access (Shared strategy.State) SelectionOp.Answer)} {numBackends : Nat}

/-- A strategy that honours its contract picks a candidate, whatever counters it
reads. -/
theorem Performs.select_mem {candidates : List BackendId} {choice : Option BackendId}
    (h : Performs strategy s (.select incoming candidates) choice t)
    (hHonours : strategy.Honours numBackends) (hNonempty : candidates ≠ [])
    (hPool : ∀ b ∈ candidates, b < numBackends) : ∃ id ∈ candidates, choice = some id := by
  obtain ⟨⟨draw, counters, rfl⟩, -⟩ := h.select
  have hIds : ∀ seen ∈ s.view counters candidates, seen.id ∈ candidates := by
    intro seen hSeen
    rw [← s.ids_view counters candidates]
    exact List.mem_map_of_mem hSeen
  have hView : s.view counters candidates ≠ [] := by
    simpa [Shared.view] using hNonempty
  obtain ⟨seen, hSeen, hChoice⟩ := hHonours s.strategy incoming draw _ hView
    fun seen hSeen => hPool _ (hIds seen hSeen)
  exact ⟨seen.id, hIds seen hSeen, hChoice⟩

/-- Whenever the selection looks at the backend it is healthy, under the queue
limit and, for its breaker, closed. -/
structure Steady (accesses : List (Access (Shared strategy.State) SelectionOp.Answer))
    (maxQueueDepth : Nat) (b : BackendId) : Prop where
  healthy : ∀ access ∈ accesses, access.op = .isHealthy b → (access.before.backends b).healthy = true
  underLimit : ∀ access ∈ accesses, access.op = .queueDepth b →
    (access.before.backends b).queueDepth ≤ maxQueueDepth
  closed : ∀ access ∈ accesses, access.op = .breakerIsRoutable b ∨ access.op = .tryBegin b →
    (access.before.backends b).breaker.control.state = .closed

theorem Steady.of_subset {accesses' : List (Access (Shared strategy.State) SelectionOp.Answer)}
    {maxQueueDepth : Nat} (h : Steady accesses maxQueueDepth b) (hSub : accesses' ⊆ accesses) :
    Steady accesses' maxQueueDepth b where
  healthy access hMem := h.healthy access (hSub hMem)
  underLimit access hMem := h.underLimit access (hSub hMem)
  closed access hMem := h.closed access (hSub hMem)

/-- The snapshot does not miss a steady backend. -/
theorem Steady.mem_snapshot {snapshot : List BackendId} (h : Steady accesses pool.maxQueueDepth b)
    (exec : Selection.Execution strategy Steps pool.routable s accesses snapshot t)
    (hPool : b ∈ pool.backends) : b ∈ snapshot := by
  obtain ⟨found, depth, hExamination⟩ := examination_of_routable Framing.trivial exec
  obtain ⟨x, answer, y, hHealthy, -, hAsked⟩ := hExamination.asked b hPool
  have hAnswer : answer = true :=
    (exec.performs_of_mem hHealthy).isHealthy.1.trans (h.healthy _ hHealthy rfl)
  obtain ⟨x', y', hRoutable⟩ := hAsked hAnswer
  have hFound : found b = true := calc
    found b = ((x'.backends b).breaker.isRoutable x'.clock).1 :=
      (exec.performs_of_mem hRoutable).breakerIsRoutable.1
    _ = ((x'.backends b).breaker.tryBegin x'.clock).1.isSome := (CircuitBreaker.tryBegin_isSome ..).symm
    _ = true := by rw [CircuitBreaker.tryBegin_of_closed (h.closed _ hRoutable (.inl rfl))]; rfl
  obtain ⟨x'', y'', hRead⟩ := hExamination.read b hPool hFound
  have hDepth : depth b ≤ pool.maxQueueDepth :=
    (exec.performs_of_mem hRead).queueDepth.1.trans_le (h.underLimit _ hRead rfl)
  rw [hExamination.snapshot_eq]
  exact BackendPool.mem_routableWith_of_le hPool hFound hDepth

namespace Attempts

variable {candidates : List BackendId} {result : Option (BackendId × Admission)}

/-- The loop does not end without an admission while a steady backend is a candidate. -/
theorem isSome_of_steady (h : Attempts strategy Steps incoming candidates s accesses result t)
    {maxQueueDepth : Nat} (hSteady : Steady accesses maxQueueDepth b)
    (hHonours : strategy.Honours numBackends) (hPool : ∀ c ∈ candidates, c < numBackends)
    (hMem : b ∈ candidates) : result.isSome = true := by
  induction h with
  | exhausted => cases hMem
  | declined nonempty _ asked =>
      obtain ⟨id, -, hChoice⟩ := asked.select_mem hHonours nonempty hPool
      cases hChoice
  | outside nonempty _ asked notMem =>
      obtain ⟨id, hIn, hChoice⟩ := asked.select_mem hHonours nonempty hPool
      cases hChoice
      exact absurd hIn notMem
  | admitted => rfl
  | @refused candidates _ x x' y y' _ _ _ id later _ _ _ _ _ begun _ ih =>
      have hOther : b ≠ id := by
        rintro rfl
        have hClosed := hSteady.closed ⟨y, .tryBegin b, none, y'⟩ (by simp) (.inr rfl)
        have hAnswer := begun.tryBegin.1
        rw [CircuitBreaker.tryBegin_of_closed hClosed] at hAnswer
        cases hAnswer
      exact ih (hSteady.of_subset fun access hLater =>
          List.mem_cons_of_mem _ (List.mem_cons_of_mem _ hLater))
        (fun c hc => hPool c (mem_without_iff.mp hc).1) (mem_without_iff.mpr ⟨hMem, hOther⟩)

end Attempts

/-- The health flag and the breaker of a backend are as they were, and the clock
has not gone back. -/
def Untouched {State : Type} (b : BackendId) (s t : Shared State) : Prop :=
  (t.backends b).healthy = (s.backends b).healthy ∧ (t.backends b).breaker = (s.backends b).breaker ∧
    s.clock ≤ t.clock

theorem framing_untouched : Framing strategy QuietlyInterferes Untouched where
  refl b s := ⟨rfl, rfl, Nat.le_refl _⟩
  trans b s t u hFirst hLater :=
    ⟨hLater.1.trans hFirst.1, hLater.2.1.trans hFirst.2.1, hFirst.2.2.trans hLater.2.2⟩
  steps b s action t hStep := by
    obtain ⟨rfl, hQuiet⟩ := hStep
    cases action with
    | breaker | health => exact hQuiet.elim
    | counters backend counters =>
        refine ⟨?_, ?_, Nat.le_refl _⟩ <;>
          by_cases hSame : b = backend <;>
            simp [Shared.interfere, Shared.modify, Backend.withCounters, hSame]
    | strategy state => exact ⟨rfl, rfl, Nat.le_refl _⟩
    | clock now => exact ⟨rfl, rfl, hQuiet⟩
  others b s op answer t hPerformed hOther :=
    ⟨(hPerformed.healthy_clock b).1, hPerformed.breaker hOther, (hPerformed.healthy_clock b).2.ge⟩

theorem Attempts.of_nil {result : Option (BackendId × Admission)}
    (h : Attempts strategy Steps incoming [] s accesses result t) : accesses = [] ∧ result = none := by
  cases h with
  | exhausted => exact ⟨rfl, rfl⟩
  | declined nonempty | outside nonempty => exact absurd rfl nonempty
  | admitted _ _ mem | refused _ _ mem => cases mem

/-- When others are quiet and every candidate would admit, the first pick is
admitted. -/
theorem Attempts.first_pick {candidates : List BackendId} {result : Option (BackendId × Admission)}
    (h : Attempts strategy QuietlyInterferes incoming candidates s accesses result t)
    (hHonours : strategy.Honours numBackends) (hPool : ∀ b ∈ candidates, b < numBackends)
    (hReady : ∀ b ∈ candidates, ∀ now, ((s.backends b).breaker.tryBegin now).1.isSome)
    (hNonempty : candidates ≠ []) :
    ∃ b adm x x' y, result = some (b, adm) ∧
      accesses = [⟨x, .select incoming candidates, some b, x'⟩, ⟨y, .tryBegin b, some adm, t⟩] := by
  cases h with
  | exhausted => exact absurd rfl hNonempty
  | declined _ _ asked =>
      obtain ⟨id, -, hChoice⟩ := asked.select_mem hHonours hNonempty hPool
      cases hChoice
  | outside _ _ asked notMem =>
      obtain ⟨id, hIn, hChoice⟩ := asked.select_mem hHonours hNonempty hPool
      cases hChoice
      exact absurd hIn notMem
  | admitted => exact ⟨_, _, _, _, _, rfl, rfl⟩
  | @refused _ _ x x' y y' _ _ _ id _ _ before asked mem between begun _ =>
      have hBefore : Untouched id s x := framing_untouched.of_run id before
      have hAsked : x'.backends = x.backends := asked.select.2.2
      have hBetween : Untouched id x' y := framing_untouched.of_run id between
      have hSame : (y.backends id).breaker = (s.backends id).breaker := by
        rw [hBetween.2.1, hAsked, hBefore.2.1]
      have hRefused := hReady id mem y.clock
      rw [← hSame, ← begun.tryBegin.1] at hRefused
      cases hRefused

/-- Of a quiet examination every backend of the snapshot would admit. -/
theorem Examination.ready {snapshot : List BackendId} {found : BackendId → Bool}
    {depth : BackendId → Nat} (h : Examination pool Untouched s accesses snapshot t found depth)
    (exec : Selection.Execution strategy QuietlyInterferes pool.routable s accesses snapshot t)
    (hMem : b ∈ snapshot) (now : Nat) : ((t.backends b).breaker.tryBegin now).1.isSome := by
  obtain ⟨hPool, hFound⟩ := h.of_mem_snapshot hMem
  obtain ⟨x, answer, y, -, hNot, hAsked⟩ := h.asked b hPool
  have hAnswer : answer = true := by
    cases answer with
    | false => exact (hNot rfl).symm.trans hFound
    | true => rfl
  obtain ⟨x', y', hRoutable⟩ := hAsked hAnswer
  have hPerformed : Performs strategy x' (.breakerIsRoutable b) (found b) y' :=
    exec.performs_of_mem hRoutable
  obtain ⟨hTrue, rfl⟩ := hPerformed.breakerIsRoutable
  obtain ⟨-, -, hAfter⟩ := h.agrees _ hRoutable
  rw [hAfter.2.1, Shared.setBreaker_self]
  exact CircuitBreaker.tryBegin_of_isRoutable (hTrue.symm.trans hFound) now

/-- Of a quiet examination every healthy backend's breaker is asked. -/
theorem Examination.asked_of_healthy {snapshot : List BackendId} {found : BackendId → Bool}
    {depth : BackendId → Nat} (h : Examination pool Untouched s accesses snapshot t found depth)
    (exec : Selection.Execution strategy QuietlyInterferes pool.routable s accesses snapshot t)
    (hPool : b ∈ pool.backends) (hHealthy : (s.backends b).healthy = true) :
    ∃ x y, ⟨x, .breakerIsRoutable b, found b, y⟩ ∈ accesses := by
  obtain ⟨x, answer, y, hMem, -, hAsked⟩ := h.asked b hPool
  have hUntouched : Untouched b s x := (h.agrees _ hMem).2
  refine hAsked ?_
  calc
    answer = (x.backends b).healthy := (exec.performs_of_mem hMem).isHealthy.1
    _ = (s.backends b).healthy := hUntouched.1
    _ = true := hHealthy

/-- A quiet examination finds what was there before it. -/
theorem Examination.found_iff {snapshot : List BackendId} {found : BackendId → Bool}
    {depth : BackendId → Nat} (h : Examination pool Untouched s accesses snapshot t found depth)
    (exec : Selection.Execution strategy QuietlyInterferes pool.routable s accesses snapshot t)
    (hPool : b ∈ pool.backends) :
    found b = true ↔ (s.backends b).healthy = true ∧
      ∃ x answer y, ⟨x, .breakerIsRoutable b, answer, y⟩ ∈ accesses ∧ s.clock ≤ x.clock ∧
        ((s.backends b).breaker.isRoutable x.clock).1 = true := by
  have hAnswer : ∀ x answer y, ⟨x, .breakerIsRoutable b, answer, y⟩ ∈ accesses →
      s.clock ≤ x.clock ∧ found b = ((s.backends b).breaker.isRoutable x.clock).1 := by
    intro x answer y hMem
    obtain ⟨hFound, hUntouched, -⟩ := h.agrees _ hMem
    refine ⟨hUntouched.2.2, ?_⟩
    calc
      found b = answer := hFound.symm
      _ = ((x.backends b).breaker.isRoutable x.clock).1 :=
        (exec.performs_of_mem hMem).breakerIsRoutable.1
      _ = ((s.backends b).breaker.isRoutable x.clock).1 := by rw [hUntouched.2.1]
  constructor
  · intro hFound
    obtain ⟨x, answer, y, hMem, -, -⟩ := h.asked b hPool
    obtain ⟨hTrue, hUntouched⟩ := h.agrees _ hMem
    have hHealthy : (s.backends b).healthy = true := calc
      (s.backends b).healthy = (x.backends b).healthy := hUntouched.1.symm
      _ = answer := (exec.performs_of_mem hMem).isHealthy.1.symm
      _ = true := hTrue hFound
    obtain ⟨x', y', hRoutable⟩ := h.asked_of_healthy exec hPool hHealthy
    obtain ⟨hClock, hSame⟩ := hAnswer _ _ _ hRoutable
    exact ⟨hHealthy, x', found b, y', hRoutable, hClock, hSame ▸ hFound⟩
  · rintro ⟨-, x, answer, y, hMem, -, hRoutable⟩
    exact (hAnswer _ _ _ hMem).2.trans hRoutable

/-- After a quiet examination the loop has nothing to try, or its first try is
its last. -/
theorem Examination.loop_of_quiet {examination rest : List (Access (Shared strategy.State) SelectionOp.Answer)}
    {snapshot : List BackendId} {found : BackendId → Bool} {depth : BackendId → Nat}
    {middle : Shared strategy.State} {result : Option (BackendId × Admission)}
    (h : Examination pool Untouched s examination snapshot middle found depth)
    (hExamine : Selection.Execution strategy QuietlyInterferes pool.routable s examination snapshot middle)
    (hTry : Selection.Execution strategy QuietlyInterferes (tryCandidates incoming snapshot) middle rest
      result t)
    (hHonours : strategy.Honours numBackends) (hPool : ∀ b ∈ pool.backends, b < numBackends) :
    (snapshot = [] ∧ result = none ∧ rest = []) ∨
      snapshot ≠ [] ∧ ∃ b adm x x' y, result = some (b, adm) ∧
        rest = [⟨x, .select incoming snapshot, some b, x'⟩, ⟨y, .tryBegin b, some adm, t⟩] := by
  have hLoop := attempts_of_tryCandidates hTry
  by_cases hEmpty : snapshot = []
  · subst hEmpty
    exact .inl ⟨rfl, hLoop.of_nil.2, hLoop.of_nil.1⟩
  · have hBelow : ∀ b ∈ snapshot, b < numBackends := fun b hMem => hPool b (h.of_mem_snapshot hMem).1
    have hReady : ∀ b ∈ snapshot, ∀ now, ((middle.backends b).breaker.tryBegin now).1.isSome :=
      fun b hMem => h.ready hExamine hMem
    exact .inr ⟨hEmpty, hLoop.first_pick hHonours hBelow hReady hEmpty⟩

/-- Selection is available. Among any steps of others, a backend that is healthy,
under the queue limit and closed whenever it is looked at is enough for an
admission. And if others make no breaker call and give no health verdict, every
healthy backend is examined, a selection succeeds exactly when the breaker of one
of them lets traffic through then, and the first pick of the strategy is admitted. -/
theorem selectBackend_available [FloatArith F] {hashKey : Hasher} {name : String}
    {prefixTokenCount numBackends : Nat} {strategy : RoutingStrategy F}
    (hStrategy : createStrategy hashKey name prefixTokenCount numBackends = .ok strategy)
    {pool : BackendPool} (hPool : ∀ b ∈ pool.backends, b < numBackends) (incoming : IncomingRequest) :
    (∀ s accesses result t,
      Selection.Execution strategy Interferes (selectBackend pool incoming) s accesses result t →
      ∀ b ∈ pool.backends, Steady accesses pool.maxQueueDepth b → result.isSome = true) ∧
    ∀ s accesses result t,
      Selection.Execution strategy QuietlyInterferes (selectBackend pool incoming) s accesses result t →
      (∀ b ∈ pool.backends, (s.backends b).healthy = true →
        ∃ x answer y, ⟨x, .breakerIsRoutable b, answer, y⟩ ∈ accesses) ∧
      (result.isSome = true ↔
        ∃ b ∈ pool.backends, (s.backends b).healthy = true ∧
          ∃ x answer y, ⟨x, .breakerIsRoutable b, answer, y⟩ ∈ accesses ∧ s.clock ≤ x.clock ∧
            ((s.backends b).breaker.isRoutable x.clock).1 = true) ∧
      ∀ b adm, result = some (b, adm) →
        ∃ examination snapshot x x' y,
          accesses = examination ++
            [⟨x, .select incoming snapshot, some b, x'⟩, ⟨y, .tryBegin b, some adm, t⟩] ∧
          ∀ access ∈ examination, access.op.isSelect = false := by
  have hHonours := createStrategy_honours hStrategy
  constructor
  · intro s accesses result t exec b hMem hSteady
    obtain ⟨snapshot, middle, examination, rest, rfl, hExamine, hTry⟩ := exec.of_bind
    obtain ⟨found, depth, hExamination⟩ := examination_of_routable Framing.trivial hExamine
    have hSnapshot : b ∈ snapshot :=
      (hSteady.of_subset (List.subset_append_left ..)).mem_snapshot hExamine hMem
    exact (attempts_of_tryCandidates hTry).isSome_of_steady
      (hSteady.of_subset (List.subset_append_right ..)) hHonours
      (fun c hc => hPool c (hExamination.of_mem_snapshot hc).1) hSnapshot
  · intro s accesses result t exec
    obtain ⟨snapshot, middle, examination, rest, rfl, hExamine, hTry⟩ := exec.of_bind
    obtain ⟨found, depth, hExamination⟩ := examination_of_routable framing_untouched hExamine
    have hRest := hExamination.loop_of_quiet hExamine hTry hHonours hPool
    have hExamined : ∀ b x answer y, ⟨x, .breakerIsRoutable b, answer, y⟩ ∈ examination ++ rest ↔
        ⟨x, .breakerIsRoutable b, answer, y⟩ ∈ examination := by
      intro b x answer y
      rcases hRest with ⟨-, -, rfl⟩ | ⟨-, b', adm, z, z', z'', -, rfl⟩ <;> simp
    refine ⟨fun b hMem hHealthy => ?_, ?_, ?_⟩
    · obtain ⟨x, y, hRoutable⟩ := hExamination.asked_of_healthy hExamine hMem hHealthy
      exact ⟨x, found b, y, List.mem_append_left _ hRoutable⟩
    · have hSome : result.isSome = true ↔ snapshot ≠ [] := by
        rcases hRest with ⟨hEmpty, rfl, -⟩ | ⟨hNonempty, b, adm, x, x', y, rfl, -⟩
        · simp [hEmpty]
        · simp [hNonempty]
      simp only [hSome, hExamination.snapshot_ne_nil_iff, hExamined]
      refine exists_congr fun b => and_congr_right fun hMem => ?_
      exact hExamination.found_iff hExamine hMem
    · rintro b adm rfl
      rcases hRest with ⟨-, hNone, -⟩ | ⟨-, b', adm', x, x', y, hResult, rfl⟩
      · cases hNone
      · cases hResult
        exact ⟨examination, snapshot, x, x', y, rfl, hExamination.no_select⟩

/-- A pool of two, the circuit of the first open: it is skipped. -/
theorem selectBackend_available_open :
    let pool := BackendPool.enumerate 2 50
    let incoming : IncomingRequest := ⟨"/v1/completions", none⟩
    let failed : CircuitBreaker := (CircuitBreaker.new 0 (1 / 2) 1 10 30).recordFailure .normal 0
    let backends (id : BackendId) : Backend :=
      .new id "http://b" 1 (if id = 0 then failed else .new 0 (1 / 2) 1 10 30)
    let strategy : RoutingStrategy ℚ :=
      ⟨RoundRobin, .new, fun state _ _ routable => state.select routable⟩
    let s : Shared strategy.State := ⟨0, backends, fun _ => rfl, strategy.start⟩
    let run := alone (Shared.perform 0 fun _ => ⟨0, 0, 0, 0⟩) (selectBackend pool incoming) s
    run.2.1 = some (1, .normal) ∧ ∃ examination snapshot x x' y,
      run.1 = examination ++ [⟨x, .select incoming snapshot, some 1, x'⟩,
        ⟨y, .tryBegin 1, some .normal, run.2.2⟩] := by
  intro pool incoming failed backends strategy s run
  have hResult : run.2.1 = some (1, .normal) := by decide +kernel
  have hPool : ∀ b ∈ pool.backends, b < 2 := fun b hMem => List.mem_range.mp hMem
  have hStrategy : createStrategy (fun _ => ⟨0, by decide⟩) "round_robin" 256 2 = .ok strategy := rfl
  obtain ⟨-, hQuiet⟩ := selectBackend_available hStrategy hPool incoming
  obtain ⟨-, -, hFirst⟩ := hQuiet s run.1 run.2.1 run.2.2
    (execution_alone (Shared.performs_perform 0 fun _ => ⟨0, 0, 0, 0⟩) _ s)
  obtain ⟨examination, snapshot, x, x', y, hAccesses, -⟩ := hFirst 1 .normal hResult
  exact ⟨hResult, examination, snapshot, x, x', y, hAccesses⟩

end InferenceRouter
