import InferenceRouter.Server.Selection

/-! A selection is bounded, returns what it was admitted to, and leaves nothing
else behind, whatever the strategy answers and whatever others do in between. -/
namespace InferenceRouter

open Semantics Program

variable {F : Type} {strategy : RoutingStrategy F}
  {Steps : Shared strategy.State → Interference strategy.State → Shared strategy.State → Prop}
  {s t : Shared strategy.State} {b : BackendId} {pool : BackendPool} {incoming : IncomingRequest}
  {accesses : List (Access (Shared strategy.State) SelectionOp.Answer)}

/-- The loop asks the strategy and one breaker for each candidate at most. -/
theorem returns_tryCandidates (incoming : IncomingRequest) (candidates : List BackendId) :
    (tryCandidates incoming candidates).Returns fun n _ => n ≤ 2 * candidates.length := by
  induction hLength : candidates.length using Nat.strong_induction_on generalizing candidates with
  | _ n ih =>
      subst hLength
      rw [tryCandidates]
      split
      · exact Nat.zero_le _
      · rename_i hNonempty
        have hPos : 0 < candidates.length := by
          rw [List.length_pos_iff]
          simpa using hNonempty
        intro choice
        cases choice with
        | none => exact Nat.mul_pos Nat.two_pos hPos
        | some id =>
            show Returns (if _ : id ∈ candidates then _ else _) _
            split
            · rename_i hMem
              intro answer
              cases answer with
              | some adm => show 2 ≤ _; omega
              | none =>
                  have hShorter := length_without_lt hMem
                  exact (ih _ hShorter _ rfl).mono fun n _ hRest => by omega
            · exact Nat.mul_pos Nat.two_pos hPos

theorem returns_isRoutable (b : BackendId) :
    (Backend.isRoutable b).Returns fun n _ => n ≤ 2 := by
  intro healthy
  cases healthy with
  | false => exact Nat.le_succ 1
  | true => exact fun _ => Nat.le_refl 2

theorem returns_routable (pool : BackendPool) :
    pool.routable.Returns fun n snapshot =>
      n ≤ 3 * pool.backends.length ∧ snapshot.length ≤ pool.backends.length := by
  refine ((returns_filter returns_isRoutable pool.backends).mono fun n available hFirst => ?_).bind
  have hUnder : ∀ b, (pool.isUnderLimit b).Returns fun n _ => n ≤ 1 := fun _ _ => Nat.le_refl 1
  refine ((returns_filter hUnder available).mono fun n' underLimit hSecond => ?_).bind
  constructor
  · omega
  · split <;> omega

/-- A selection does at most five operations for each backend, however they are
answered. -/
theorem returns_selectBackend (pool : BackendPool) (incoming : IncomingRequest) :
    (selectBackend pool incoming).Returns fun n _ => n ≤ 5 * pool.backends.length := by
  refine ((returns_routable pool).mono fun n snapshot hExamined => ?_).bind
  refine (returns_tryCandidates incoming snapshot).mono fun n' _ hTried => ?_
  omega

namespace Attempts

variable {candidates : List BackendId} {result : Option (BackendId × Admission)}

/-- Every refusal costs one question and one candidate. -/
theorem countP_isSelect_le (h : Attempts strategy Steps incoming candidates s accesses result t) :
    (accesses.countP fun access => access.op.isSelect) ≤ candidates.length := by
  induction h with
  | exhausted => exact Nat.zero_le _
  | declined nonempty | outside nonempty => exact List.length_pos_iff.mpr nonempty
  | admitted _ _ mem => exact List.length_pos_of_mem mem
  | refused _ _ mem _ _ _ ih =>
      simp only [List.countP_cons, SelectionOp.isSelect, if_true, Bool.false_eq_true, if_false]
      exact Nat.lt_of_le_of_lt ih (length_without_lt mem)

/-- The loop returns the one admission it got, if it got one. -/
theorem admissions_eq (h : Attempts strategy Steps incoming candidates s accesses result t) :
    admissions accesses = result.toList := by
  induction h with
  | exhausted | declined | outside | admitted => rfl
  | refused _ _ _ _ _ _ ih => exact ih

/-- A result is a candidate, and its admission came last. -/
theorem of_some {adm : Admission}
    (h : Attempts strategy Steps incoming candidates s accesses (some (b, adm)) t) :
    b ∈ candidates ∧ ∃ x, ⟨x, .tryBegin b, some adm, t⟩ ∈ accesses ∧
      ((x.backends b).breaker.tryBegin x.clock).1 = some adm := by
  generalize hResult : some (b, adm) = result at h
  induction h with
  | exhausted | declined | outside => cases hResult
  | @admitted _ _ _ _ y _ _ _ _ _ _ _ mem _ begun =>
      cases hResult
      exact ⟨mem, y, by simp, begun.tryBegin.1.symm⟩
  | refused _ _ _ _ _ _ ih =>
      obtain ⟨hMem, x, hLast, hBegun⟩ := ih hResult
      exact ⟨(mem_without_iff.mp hMem).1, x, by simp [hLast], hBegun⟩

end Attempts

/-- The examination found the backend healthy and its breaker routable. -/
def FoundRoutable (accesses : List (Access (Shared strategy.State) SelectionOp.Answer))
    (b : BackendId) : Prop :=
  (∃ x y, ⟨x, .isHealthy b, true, y⟩ ∈ accesses) ∧
    ∃ x y, ⟨x, .breakerIsRoutable b, true, y⟩ ∈ accesses

/-- The examination read a queue depth over the limit. -/
def FoundOverLimit (accesses : List (Access (Shared strategy.State) SelectionOp.Answer))
    (maxQueueDepth : Nat) (b : BackendId) : Prop :=
  ∃ x depth y, ⟨x, .queueDepth b, depth, y⟩ ∈ accesses ∧ maxQueueDepth < depth

/-- `select_backend` is bounded, whatever it is answered. Among any steps of
others, its questions to the strategy do not outnumber the routable backends; it
returns the one admission it got, none if it got none; it raises no probe flag
but that of the backend it returns; and it goes over the queue limit only when
everything it found routable is over. -/
theorem selectBackend_sound (strategy : RoutingStrategy F) (pool : BackendPool)
    (incoming : IncomingRequest) :
    ((selectBackend pool incoming).Returns fun n _ => n ≤ 5 * pool.backends.length) ∧
    ∀ s accesses result t,
      Selection.Execution strategy Interferes (selectBackend pool incoming) s accesses result t →
      ∃ examination attempts snapshot middle, accesses = examination ++ attempts ∧
        Selection.Execution strategy Interferes pool.routable s examination snapshot middle ∧
        (accesses.countP fun access => access.op.isSelect) ≤ snapshot.length ∧
        admissions accesses = result.toList ∧
        (∀ access ∈ accesses, ∀ b,
          (access.before.backends b).breaker.control.probeInFlight = false →
          (access.after.backends b).breaker.control.probeInFlight = true → result = some (b, .probe)) ∧
        ∀ b adm, result = some (b, adm) →
          b ∈ snapshot ∧
          (∃ x, ⟨x, .tryBegin b, some adm, t⟩ ∈ accesses ∧
            ((x.backends b).breaker.tryBegin x.clock).1 = some adm) ∧
          (FoundOverLimit examination pool.maxQueueDepth b →
            ∀ c ∈ pool.backends, FoundRoutable examination c →
              FoundOverLimit examination pool.maxQueueDepth c) := by
  refine ⟨returns_selectBackend pool incoming, fun s accesses result t exec => ?_⟩
  obtain ⟨snapshot, middle, examination, rest, rfl, hExamine, hTry⟩ := exec.of_bind
  obtain ⟨found, depth, hExamination⟩ := examination_of_routable Framing.trivial hExamine
  have hAttempts := attempts_of_tryCandidates hTry
  have hNone : admissions examination = [] := List.filterMap_eq_nil_iff.mpr hExamination.admits_nothing
  have hNoSelect : (examination.countP fun access => access.op.isSelect) = 0 :=
    List.countP_eq_zero.mpr fun access hMem => by simp [hExamination.no_select access hMem]
  have hAdmissions : admissions (examination ++ rest) = result.toList := by
    rw [admissions, List.filterMap_append, ← admissions, ← admissions, hNone, hAttempts.admissions_eq]
    rfl
  refine ⟨examination, rest, snapshot, middle, rfl, hExamine, ?_, hAdmissions, ?_, ?_⟩
  · rw [List.countP_append, hNoSelect, Nat.zero_add]
    exact hAttempts.countP_isSelect_le
  · intro access hMem b hBefore hAfter
    have hAdmission := (exec.performs_of_mem hMem).raises_probe hBefore hAfter
    have hIssued : (b, Admission.probe) ∈ admissions (examination ++ rest) :=
      List.mem_filterMap.mpr ⟨access, hMem, hAdmission⟩
    rw [hAdmissions, Option.mem_toList] at hIssued
    exact hIssued
  · rintro b adm rfl
    obtain ⟨hSnapshot, x, hLast, hBegun⟩ := hAttempts.of_some
    refine ⟨hSnapshot, ⟨x, List.mem_append_right _ hLast, hBegun⟩, ?_⟩
    rintro ⟨x', depth', y', hRead, hOver⟩ c hPool ⟨-, x'', y'', hRoutable⟩
    have hDepth : depth' = depth b := hExamination.agrees _ hRead
    have hFound : true = found c := (hExamination.agrees _ hRoutable).1
    rw [hExamination.snapshot_eq] at hSnapshot
    obtain ⟨z, z', hReadC⟩ := hExamination.read c hPool hFound.symm
    exact ⟨z, depth c, z', hReadC,
      BackendPool.all_over_of_mem_routableWith hSnapshot (hDepth ▸ hOver) c hPool hFound.symm⟩

/-- A pool of two, the first over the queue limit. -/
theorem selectBackend_sound_two :
    let pool := BackendPool.enumerate 2 50
    let incoming : IncomingRequest := ⟨"/v1/completions", none⟩
    let backend (id : BackendId) : Backend := .new id "http://b" 1 (.new 0 (1 / 2) 10 10 30)
    let backends (id : BackendId) : Backend :=
      { backend id with queueDepth := if id = 0 then 60 else 0 }
    let strategy : RoutingStrategy ℚ :=
      ⟨RoundRobin, .new, fun state _ _ routable => state.select routable⟩
    let s : Shared strategy.State := ⟨0, backends, fun _ => rfl, strategy.start⟩
    let run := alone (Shared.perform 0 fun _ => ⟨0, 0, 0, 0⟩) (selectBackend pool incoming) s
    run.2.1 = some (1, .normal) ∧ admissions run.1 = [(1, .normal)] := by
  intro pool incoming backend backends strategy s run
  have hResult : run.2.1 = some (1, .normal) := by decide +kernel
  obtain ⟨examination, attempts, snapshot, middle, -, -, -, hAdmissions, -⟩ :=
    (selectBackend_sound strategy pool incoming).2 s run.1 run.2.1 run.2.2
      (execution_alone (Shared.performs_perform 0 fun _ => ⟨0, 0, 0, 0⟩) _ s)
  refine ⟨hResult, ?_⟩
  rw [hAdmissions, hResult]
  rfl

end InferenceRouter
