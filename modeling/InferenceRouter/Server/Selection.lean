import InferenceRouter.Server.SelectBackend

/-! What the executions of a selection look like, among whatever steps of others:
the examination of the pool computes the plain filter of the answers it got, and
the loop goes through its candidates one refusal at a time. -/
namespace InferenceRouter

open Semantics Program

variable {F : Type} {strategy : RoutingStrategy F}
  {Steps : Shared strategy.State → Interference strategy.State → Shared strategy.State → Prop}
  {s t x y : Shared strategy.State} {b : BackendId} {pool : BackendPool} {incoming : IncomingRequest}
  {accesses : List (Access (Shared strategy.State) SelectionOp.Answer)}

namespace SelectionOp

/-- The operation goes to the breaker of `b`. -/
def CallsBreaker (b : BackendId) (op : SelectionOp) : Prop :=
  op = .breakerIsRoutable b ∨ op = .tryBegin b

/-- What the operation admits the request to. -/
def admission : (op : SelectionOp) → op.Answer → Option (BackendId × Admission)
  | .tryBegin b, answer => answer.map fun adm => (b, adm)
  | _, _ => none

def isSelect : SelectionOp → Bool
  | .select _ _ => true
  | _ => false

end SelectionOp

/-- All admissions that a selection got. -/
def admissions (accesses : List (Access (Shared strategy.State) SelectionOp.Answer)) :
    List (BackendId × Admission) :=
  accesses.filterMap fun access => access.op.admission access.answer

namespace Performs

theorem isHealthy {answer : Bool} (h : Performs strategy s (.isHealthy b) answer t) :
    answer = (s.backends b).healthy ∧ t = s := by
  obtain ⟨draw, counters, hPerform⟩ := h
  cases hPerform
  exact ⟨rfl, rfl⟩

theorem breakerIsRoutable {answer : Bool} (h : Performs strategy s (.breakerIsRoutable b) answer t) :
    answer = ((s.backends b).breaker.isRoutable s.clock).1 ∧
      t = s.setBreaker b ((s.backends b).breaker.isRoutable s.clock).2 := by
  obtain ⟨draw, counters, hPerform⟩ := h
  cases hPerform
  exact ⟨rfl, rfl⟩

theorem queueDepth {answer : Nat} (h : Performs strategy s (.queueDepth b) answer t) :
    answer = (s.backends b).queueDepth ∧ t = s := by
  obtain ⟨draw, counters, hPerform⟩ := h
  cases hPerform
  exact ⟨rfl, rfl⟩

theorem select {candidates : List BackendId} {answer : Option BackendId}
    (h : Performs strategy s (.select incoming candidates) answer t) :
    (∃ draw counters, answer =
      (strategy.select s.strategy incoming draw (s.view counters candidates)).1) ∧
      t.clock = s.clock ∧ t.backends = s.backends := by
  obtain ⟨draw, counters, hPerform⟩ := h
  cases hPerform
  exact ⟨⟨draw, counters, rfl⟩, rfl, rfl⟩

theorem tryBegin {answer : Option Admission} (h : Performs strategy s (.tryBegin b) answer t) :
    answer = ((s.backends b).breaker.tryBegin s.clock).1 ∧
      t = s.setBreaker b ((s.backends b).breaker.tryBegin s.clock).2 := by
  obtain ⟨draw, counters, hPerform⟩ := h
  cases hPerform
  exact ⟨rfl, rfl⟩

/-- No operation of a selection touches a health flag or the clock. -/
theorem healthy_clock {op : SelectionOp} {answer : op.Answer} (h : Performs strategy s op answer t)
    (b : BackendId) : (t.backends b).healthy = (s.backends b).healthy ∧ t.clock = s.clock := by
  cases op with
  | isHealthy backend =>
      obtain ⟨-, rfl⟩ := h.isHealthy
      exact ⟨rfl, rfl⟩
  | queueDepth backend =>
      obtain ⟨-, rfl⟩ := h.queueDepth
      exact ⟨rfl, rfl⟩
  | breakerIsRoutable backend =>
      rw [h.breakerIsRoutable.2]
      simp
  | select incoming candidates => exact ⟨by rw [h.select.2.2], h.select.2.1⟩
  | tryBegin backend =>
      rw [h.tryBegin.2]
      simp

/-- An operation touches no breaker but the one it calls. -/
theorem breaker {op : SelectionOp} {answer : op.Answer} (h : Performs strategy s op answer t)
    (hOther : ¬op.CallsBreaker b) : (t.backends b).breaker = (s.backends b).breaker := by
  cases op with
  | isHealthy backend => rw [h.isHealthy.2]
  | queueDepth backend => rw [h.queueDepth.2]
  | select incoming candidates => rw [h.select.2.2]
  | breakerIsRoutable backend =>
      have hNe : b ≠ backend := fun hSame => hOther (.inl (by rw [hSame]))
      rw [h.breakerIsRoutable.2, Shared.setBreaker_of_ne _ hNe]
  | tryBegin backend =>
      have hNe : b ≠ backend := fun hSame => hOther (.inr (by rw [hSame]))
      rw [h.tryBegin.2, Shared.setBreaker_of_ne _ hNe]

/-- Only an admission as the probe raises a probe flag. -/
theorem raises_probe {op : SelectionOp} {answer : op.Answer} (h : Performs strategy s op answer t)
    (hBefore : (s.backends b).breaker.control.probeInFlight = false)
    (hAfter : (t.backends b).breaker.control.probeInFlight = true) :
    op.admission answer = some (b, .probe) := by
  by_cases hOther : op.CallsBreaker b
  · rcases hOther with rfl | rfl
    · rw [h.breakerIsRoutable.2, Shared.setBreaker_self] at hAfter
      simp [CircuitBreaker.isRoutable_probeInFlight, hBefore] at hAfter
    · obtain ⟨rfl, rfl⟩ := h.tryBegin
      rw [Shared.setBreaker_self] at hAfter
      rw [SelectionOp.admission, CircuitBreaker.tryBegin_raises_probe hBefore hAfter]
      rfl
  · rw [h.breaker hOther, hBefore] at hAfter
    cases hAfter

end Performs

/-- The ways an execution of the loop can go. -/
inductive Attempts (strategy : RoutingStrategy F)
    (Steps : Shared strategy.State → Interference strategy.State → Shared strategy.State → Prop)
    (incoming : IncomingRequest) :
    List BackendId → Shared strategy.State → List (Access (Shared strategy.State) SelectionOp.Answer) →
      Option (BackendId × Admission) → Shared strategy.State → Prop where
  | exhausted (s : Shared strategy.State) : Attempts strategy Steps incoming [] s [] none s
  | declined {candidates : List BackendId} {s x t : Shared strategy.State}
      {labels : List (Interference strategy.State)} (nonempty : candidates ≠ [])
      (before : Run Steps s labels x) (asked : Performs strategy x (.select incoming candidates) none t) :
      Attempts strategy Steps incoming candidates s [⟨x, .select incoming candidates, none, t⟩] none t
  | outside {candidates : List BackendId} {s x t : Shared strategy.State}
      {labels : List (Interference strategy.State)} {id : BackendId} (nonempty : candidates ≠ [])
      (before : Run Steps s labels x)
      (asked : Performs strategy x (.select incoming candidates) (some id) t) (notMem : id ∉ candidates) :
      Attempts strategy Steps incoming candidates s [⟨x, .select incoming candidates, some id, t⟩] none t
  | admitted {candidates : List BackendId} {s x x' y t : Shared strategy.State}
      {labels labels' : List (Interference strategy.State)} {id : BackendId} {adm : Admission}
      (before : Run Steps s labels x)
      (asked : Performs strategy x (.select incoming candidates) (some id) x') (mem : id ∈ candidates)
      (between : Run Steps x' labels' y) (begun : Performs strategy y (.tryBegin id) (some adm) t) :
      Attempts strategy Steps incoming candidates s
        [⟨x, .select incoming candidates, some id, x'⟩, ⟨y, .tryBegin id, some adm, t⟩] (some (id, adm)) t
  | refused {candidates : List BackendId} {s x x' y y' t : Shared strategy.State}
      {labels labels' : List (Interference strategy.State)} {id : BackendId}
      {later : List (Access (Shared strategy.State) SelectionOp.Answer)}
      {result : Option (BackendId × Admission)} (before : Run Steps s labels x)
      (asked : Performs strategy x (.select incoming candidates) (some id) x') (mem : id ∈ candidates)
      (between : Run Steps x' labels' y) (begun : Performs strategy y (.tryBegin id) none y')
      (rest : Attempts strategy Steps incoming (without candidates id) y' later result t) :
      Attempts strategy Steps incoming candidates s
        (⟨x, .select incoming candidates, some id, x'⟩ :: ⟨y, .tryBegin id, none, y'⟩ :: later) result t

/-- One execution of the loop, whatever it is, is one of these. -/
theorem attempts_of_tryCandidates {candidates : List BackendId} {result : Option (BackendId × Admission)}
    (exec : Selection.Execution strategy Steps (tryCandidates incoming candidates) s accesses result t) :
    Attempts strategy Steps incoming candidates s accesses result t := by
  induction hLength : candidates.length using Nat.strong_induction_on
    generalizing candidates s accesses with
  | _ n ih =>
      subst hLength
      rw [tryCandidates] at exec
      split at exec
      · rename_i hEmpty
        obtain ⟨rfl, rfl, rfl⟩ := exec.of_done
        rw [List.isEmpty_iff.mp hEmpty]
        exact .exhausted t
      · rename_i hNonempty
        rw [List.isEmpty_iff] at hNonempty
        obtain ⟨choice, x', first, later, rfl, hAsk, hRest⟩ := exec.of_bind
        obtain ⟨labels, x, hBefore, hAsked, rfl⟩ := hAsk.of_call
        cases choice with
        | none =>
            obtain ⟨rfl, rfl, rfl⟩ := hRest.of_done
            exact .declined hNonempty hBefore hAsked
        | some id =>
            dsimp only at hRest
            split at hRest
            · rename_i hMem
              obtain ⟨answer, y', attempt, rest, rfl, hTry, hLater⟩ := hRest.of_bind
              obtain ⟨labels', y, hBetween, hBegun, rfl⟩ := hTry.of_call
              cases answer with
              | some adm =>
                  obtain ⟨rfl, rfl, rfl⟩ := hLater.of_done
                  exact .admitted hBefore hAsked hMem hBetween hBegun
              | none =>
                  exact .refused hBefore hAsked hMem hBetween hBegun
                    (ih _ (length_without_lt hMem) hLater rfl)
            · rename_i hNotMem
              obtain ⟨rfl, rfl, rfl⟩ := hRest.of_done
              exact .outside hNonempty hBefore hAsked hNotMem

/-- What `routable` makes of its answers: `found` says that a backend is healthy
and its breaker lets traffic through, `depth` is the depth of its queue. -/
def BackendPool.routableWith (self : BackendPool) (found : BackendId → Bool) (depth : BackendId → Nat) :
    List BackendId :=
  let available := self.backends.filter found
  let underLimit := available.filter fun b => decide (depth b ≤ self.maxQueueDepth)
  if underLimit.isEmpty then available else underLimit

namespace BackendPool

variable {found : BackendId → Bool} {depth : BackendId → Nat}

theorem routableWith_cases (self : BackendPool) (found : BackendId → Bool) (depth : BackendId → Nat) :
    ((∀ b ∈ self.backends, found b = true → self.maxQueueDepth < depth b) ∧
        self.routableWith found depth = self.backends.filter found) ∨
      ((∃ b ∈ self.backends, found b = true ∧ depth b ≤ self.maxQueueDepth) ∧
        self.routableWith found depth =
          (self.backends.filter found).filter fun b => decide (depth b ≤ self.maxQueueDepth)) := by
  simp only [routableWith]
  split
  · rename_i hEmpty
    refine .inl ⟨fun b hPool hFound => ?_, rfl⟩
    rw [List.isEmpty_iff, List.filter_eq_nil_iff] at hEmpty
    simpa using hEmpty b (List.mem_filter.mpr ⟨hPool, hFound⟩)
  · rename_i hNonempty
    rw [List.isEmpty_iff] at hNonempty
    obtain ⟨b, hMem⟩ := List.exists_mem_of_ne_nil _ hNonempty
    obtain ⟨hAvailable, hUnder⟩ := List.mem_filter.mp hMem
    obtain ⟨hPool, hFound⟩ := List.mem_filter.mp hAvailable
    exact .inr ⟨⟨b, hPool, hFound, of_decide_eq_true hUnder⟩, rfl⟩

theorem of_mem_routableWith (h : b ∈ pool.routableWith found depth) :
    b ∈ pool.backends ∧ found b = true := by
  rcases pool.routableWith_cases found depth with ⟨-, hAll⟩ | ⟨-, hUnder⟩
  · rw [hAll] at h
    exact List.mem_filter.mp h
  · rw [hUnder] at h
    exact List.mem_filter.mp (List.mem_filter.mp h).1

theorem mem_routableWith_of_le (hPool : b ∈ pool.backends) (hFound : found b = true)
    (hUnder : depth b ≤ pool.maxQueueDepth) : b ∈ pool.routableWith found depth := by
  have hAvailable : b ∈ pool.backends.filter found := List.mem_filter.mpr ⟨hPool, hFound⟩
  rcases pool.routableWith_cases found depth with ⟨-, hAll⟩ | ⟨-, hFiltered⟩
  · rwa [hAll]
  · rw [hFiltered]
    exact List.mem_filter.mpr ⟨hAvailable, decide_eq_true hUnder⟩

/-- Over the limit only together. -/
theorem all_over_of_mem_routableWith (h : b ∈ pool.routableWith found depth)
    (hOver : pool.maxQueueDepth < depth b) :
    ∀ c ∈ pool.backends, found c = true → pool.maxQueueDepth < depth c := by
  rcases pool.routableWith_cases found depth with ⟨hAll, -⟩ | ⟨-, hUnder⟩
  · exact hAll
  · rw [hUnder] at h
    exact absurd (of_decide_eq_true (List.mem_filter.mp h).2) (Nat.not_le_of_lt hOver)

theorem routableWith_eq_nil_iff :
    pool.routableWith found depth = [] ↔ ∀ b ∈ pool.backends, found b = false := by
  constructor
  · intro hEmpty b hPool
    rcases pool.routableWith_cases found depth with ⟨-, hAll⟩ | ⟨⟨c, hPoolC, hFoundC, hUnderC⟩, -⟩
    · rw [hAll, List.filter_eq_nil_iff] at hEmpty
      simpa using hEmpty b hPool
    · have hMem := mem_routableWith_of_le hPoolC hFoundC hUnderC
      rw [hEmpty] at hMem
      cases hMem
  · intro hNone
    rw [List.eq_nil_iff_forall_not_mem]
    intro b hMem
    obtain ⟨hPool, hFound⟩ := of_mem_routableWith hMem
    rw [hNone b hPool] at hFound
    cases hFound

end BackendPool

/-- A preorder for each backend that others respect, and the selection too where
it does not call the breaker of that backend. -/
structure Framing (strategy : RoutingStrategy F)
    (Steps : Shared strategy.State → Interference strategy.State → Shared strategy.State → Prop)
    (Frame : BackendId → Shared strategy.State → Shared strategy.State → Prop) : Prop where
  refl : ∀ b s, Frame b s s
  trans : ∀ b s t u, Frame b s t → Frame b t u → Frame b s u
  steps : ∀ b s action t, Steps s action t → Frame b s t
  others : ∀ b s op answer t, Performs strategy s op answer t → ¬op.CallsBreaker b → Frame b s t

/-- An access of an examination, from `s` to `t`, with the answers it found. -/
def Agrees (Frame : BackendId → Shared strategy.State → Shared strategy.State → Prop)
    (found : BackendId → Bool) (depth : BackendId → Nat) (s t : Shared strategy.State) :
    Access (Shared strategy.State) SelectionOp.Answer → Prop
  | ⟨x, .isHealthy b, answer, _⟩ => (found b = true → answer = true) ∧ Frame b s x
  | ⟨x, .breakerIsRoutable b, answer, y⟩ => answer = found b ∧ Frame b s x ∧ Frame b y t
  | ⟨_, .queueDepth b, answer, _⟩ => answer = depth b
  | ⟨_, .select _ _, _, _⟩ => False
  | ⟨_, .tryBegin _, _, _⟩ => False

namespace Framing

variable {Frame : BackendId → Shared strategy.State → Shared strategy.State → Prop}

theorem of_run (framing : Framing strategy Steps Frame) (b : BackendId)
    {labels : List (Interference strategy.State)} (run : Run Steps s labels t) : Frame b s t :=
  run.invariant (Frame b s)
    (fun _ _ _ hPrior hStep => framing.trans _ _ _ _ hPrior (framing.steps _ _ _ _ hStep)) (framing.refl b s)

theorem of_execution (framing : Framing strategy Steps Frame) {α : Type} {p : Selection α} {a : α}
    (exec : Selection.Execution strategy Steps p s accesses a t)
    (hOthers : ∀ access ∈ accesses, ¬access.op.CallsBreaker b) : Frame b s t :=
  (exec.related (Frame b) (framing.refl b) (framing.trans b) (framing.steps b)
    fun access hMem => framing.others b _ _ _ _ (exec.performs_of_mem hMem) (hOthers access hMem)).1

/-- Of every backend nothing is known. -/
theorem trivial : Framing strategy Steps fun _ _ _ => True where
  refl _ _ := .intro
  trans _ _ _ _ _ _ := .intro
  steps _ _ _ _ _ := .intro
  others _ _ _ _ _ _ _ := .intro

theorem of_isRoutable (framing : Framing strategy Steps Frame) {answer : Bool}
    (exec : Selection.Execution strategy Steps (Backend.isRoutable b) s accesses answer t) :
    (∃ x, accesses = [⟨x, .isHealthy b, false, t⟩] ∧ answer = false ∧ Frame b s x) ∨
      ∃ x y z, accesses = [⟨x, .isHealthy b, true, y⟩, ⟨z, .breakerIsRoutable b, answer, t⟩] ∧
        Frame b s x ∧ Frame b s z := by
  obtain ⟨healthy, y, first, later, rfl, hHealthy, hLater⟩ := exec.of_bind
  obtain ⟨labels, x, hBefore, hPerformed, rfl⟩ := hHealthy.of_call
  cases healthy with
  | false =>
      obtain ⟨rfl, rfl, rfl⟩ := hLater.of_done
      exact .inl ⟨x, rfl, rfl, framing.of_run b hBefore⟩
  | true =>
      obtain ⟨labels', z, hBetween, -, rfl⟩ := Execution.of_call hLater
      have hOther : ¬(SelectionOp.isHealthy b).CallsBreaker b := by simp [SelectionOp.CallsBreaker]
      have hBoth := framing.trans b _ _ _ (framing.of_run b hBefore)
        (framing.others b _ _ _ _ hPerformed hOther)
      exact .inr ⟨x, y, z, rfl, framing.of_run b hBefore,
        framing.trans b _ _ _ hBoth (framing.of_run b hBetween)⟩

/-- Examining one backend is nothing to the others. -/
theorem isRoutable_of_ne (framing : Framing strategy Steps Frame) {a : BackendId} (hNe : a ≠ b)
    {answer : Bool}
    (exec : Selection.Execution strategy Steps (Backend.isRoutable b) s accesses answer t) : Frame a s t := by
  refine framing.of_execution exec ?_
  rcases framing.of_isRoutable exec with ⟨x, rfl, -⟩ | ⟨x, y, z, rfl, -⟩ <;>
    simp [SelectionOp.CallsBreaker, hNe.symm]

theorem agrees_of_isRoutable (framing : Framing strategy Steps Frame) {found : BackendId → Bool}
    {v v' : Shared strategy.State}
    (exec : Selection.Execution strategy Steps (Backend.isRoutable b) v accesses (found b) v')
    (hStart : Frame b s v) (hFinish : Frame b v' t) (depth : BackendId → Nat) :
    ∀ access ∈ accesses, Agrees Frame found depth s t access := by
  intro access hMem
  rcases framing.of_isRoutable exec with ⟨x, rfl, hNot, hX⟩ | ⟨x, y, z, rfl, hX, hZ⟩
  · rw [List.mem_singleton.mp hMem]
    exact ⟨by simp [hNot], framing.trans b _ _ _ hStart hX⟩
  · rcases List.mem_cons.mp hMem with rfl | hMem
    · exact ⟨fun _ => rfl, framing.trans b _ _ _ hStart hX⟩
    · rw [List.mem_singleton.mp hMem]
      exact ⟨rfl, framing.trans b _ _ _ hStart hZ, hFinish⟩

end Framing

/-- The flag is read, and the breaker is asked if the flag is up. -/
theorem asked_of_isRoutable {answer : Bool}
    (exec : Selection.Execution strategy Steps (Backend.isRoutable b) s accesses answer t) :
    ∃ x healthy y, ⟨x, .isHealthy b, healthy, y⟩ ∈ accesses ∧ (healthy = false → answer = false) ∧
      (healthy = true → ∃ x y, ⟨x, .breakerIsRoutable b, answer, y⟩ ∈ accesses) := by
  rcases Framing.trivial.of_isRoutable exec with ⟨x, rfl, hNot, -⟩ | ⟨x, y, z, rfl, -⟩
  · exact ⟨x, false, t, by simp, fun _ => hNot, fun h => by cases h⟩
  · exact ⟨x, true, y, by simp, fun h => (by cases h), fun _ => ⟨z, t, by simp⟩⟩

theorem isUnderLimit_cases {answer : Bool}
    (exec : Selection.Execution strategy Steps (pool.isUnderLimit b) s accesses answer t) :
    ∃ x depth, accesses = [⟨x, .queueDepth b, depth, t⟩] ∧
      answer = decide (depth ≤ pool.maxQueueDepth) := by
  obtain ⟨depth, y, first, later, rfl, hRead, hLater⟩ := exec.of_bind
  obtain ⟨labels, x, -, -, rfl⟩ := hRead.of_call
  obtain ⟨rfl, rfl, rfl⟩ := hLater.of_done
  exact ⟨x, depth, rfl, rfl⟩

/-- Reading queue depths is nothing to any backend. -/
theorem Framing.isUnderLimit {Frame : BackendId → Shared strategy.State → Shared strategy.State → Prop}
    (framing : Framing strategy Steps Frame) (a : BackendId) {answer : Bool}
    (exec : Selection.Execution strategy Steps (pool.isUnderLimit b) s accesses answer t) : Frame a s t := by
  refine framing.of_execution exec ?_
  obtain ⟨x, depth, rfl, -⟩ := isUnderLimit_cases exec
  simp [SelectionOp.CallsBreaker]

/-- The depths that were read, as one function. -/
theorem exists_depth {available : List BackendId} {under : BackendId → Bool}
    {part : BackendId → List (Access (Shared strategy.State) SelectionOp.Answer)}
    (hParts : ∀ b ∈ available, ∃ v v',
      Selection.Execution strategy Steps (pool.isUnderLimit b) v (part b) (under b) v') :
    ∃ depth : BackendId → Nat, ∀ b ∈ available,
      (∃ x y, part b = [⟨x, .queueDepth b, depth b, y⟩]) ∧
        under b = decide (depth b ≤ pool.maxQueueDepth) := by
  have hDepth : ∀ b, ∃ depth, b ∈ available →
      (∃ x y, part b = [⟨x, .queueDepth b, depth, y⟩]) ∧
        under b = decide (depth ≤ pool.maxQueueDepth) := by
    intro b
    by_cases hMem : b ∈ available
    · obtain ⟨v, v', exec⟩ := hParts b hMem
      obtain ⟨x, depth, hPart, hUnder⟩ := isUnderLimit_cases exec
      exact ⟨depth, fun _ => ⟨⟨x, v', hPart⟩, hUnder⟩⟩
    · exact ⟨0, fun h => absurd h hMem⟩
  choose depth hDepth using hDepth
  exact ⟨depth, hDepth⟩

/-- The whole examination of a pool: its snapshot, and the accesses behind it. -/
structure Examination (pool : BackendPool)
    (Frame : BackendId → Shared strategy.State → Shared strategy.State → Prop)
    (s : Shared strategy.State) (accesses : List (Access (Shared strategy.State) SelectionOp.Answer))
    (snapshot : List BackendId) (t : Shared strategy.State) (found : BackendId → Bool)
    (depth : BackendId → Nat) : Prop where
  snapshot_eq : snapshot = pool.routableWith found depth
  agrees : ∀ access ∈ accesses, Agrees Frame found depth s t access
  asked : ∀ b ∈ pool.backends, ∃ x answer y, ⟨x, .isHealthy b, answer, y⟩ ∈ accesses ∧
    (answer = false → found b = false) ∧
    (answer = true → ∃ x y, ⟨x, .breakerIsRoutable b, found b, y⟩ ∈ accesses)
  read : ∀ b ∈ pool.backends, found b = true → ∃ x y, ⟨x, .queueDepth b, depth b, y⟩ ∈ accesses

namespace Examination

variable {Frame : BackendId → Shared strategy.State → Shared strategy.State → Prop}
  {snapshot : List BackendId} {found : BackendId → Bool} {depth : BackendId → Nat}

theorem no_select (h : Examination pool Frame s accesses snapshot t found depth) :
    ∀ access ∈ accesses, access.op.isSelect = false := by
  intro access hMem
  have hAgrees := h.agrees access hMem
  obtain ⟨x, op, answer, y⟩ := access
  cases op with
  | select => exact hAgrees.elim
  | _ => rfl

theorem admits_nothing (h : Examination pool Frame s accesses snapshot t found depth) :
    ∀ access ∈ accesses, access.op.admission access.answer = none := by
  intro access hMem
  have hAgrees := h.agrees access hMem
  obtain ⟨x, op, answer, y⟩ := access
  cases op with
  | tryBegin => exact hAgrees.elim
  | _ => rfl

theorem of_mem_snapshot (h : Examination pool Frame s accesses snapshot t found depth)
    (hMem : b ∈ snapshot) : b ∈ pool.backends ∧ found b = true := by
  rw [h.snapshot_eq] at hMem
  exact BackendPool.of_mem_routableWith hMem

theorem snapshot_ne_nil_iff (h : Examination pool Frame s accesses snapshot t found depth) :
    snapshot ≠ [] ↔ ∃ b ∈ pool.backends, found b = true := by
  rw [h.snapshot_eq, Ne, BackendPool.routableWith_eq_nil_iff]
  simp

end Examination

/-- Every execution of `routable` is such an examination. -/
theorem examination_of_routable {Frame : BackendId → Shared strategy.State → Shared strategy.State → Prop}
    (framing : Framing strategy Steps Frame) {snapshot : List BackendId}
    (exec : Selection.Execution strategy Steps pool.routable s accesses snapshot t) :
    ∃ found depth, Examination pool Frame s accesses snapshot t found depth := by
  obtain ⟨available, middle, first, rest, rfl, hFirst, hRest⟩ := exec.of_bind
  obtain ⟨underLimit, last, second, nothing, rfl, hSecond, hDone⟩ := hRest.of_bind
  obtain ⟨rfl, rfl, rfl⟩ := hDone.of_done
  obtain ⟨found, part, rfl, rfl, hParts⟩ := hFirst.of_filter framing.refl framing.trans
    (fun a b hNe _ _ _ _ hExec => framing.isRoutable_of_ne hNe hExec) pool.nodup
  have hEnd : ∀ b, Frame b middle t := fun b =>
    hSecond.filter_frame (framing.refl b) (framing.trans b) fun a _ _ _ _ _ hExec =>
      framing.isUnderLimit b hExec
  obtain ⟨under, part', rfl, rfl, hParts'⟩ := hSecond.of_filter framing.refl framing.trans
    (fun a b _ _ _ _ _ hExec => framing.isUnderLimit a hExec) (pool.nodup.filter found)
  obtain ⟨depth, hDepth⟩ := exists_depth fun b hMem => by
    obtain ⟨v, v', -, hExec, -⟩ := hParts' b hMem
    exact ⟨v, v', hExec⟩
  rw [List.append_nil]
  refine ⟨found, depth, ?_, ?_, ?_, ?_⟩
  · have hUnder : (pool.backends.filter found).filter under =
        (pool.backends.filter found).filter fun b => decide (depth b ≤ pool.maxQueueDepth) :=
      List.filter_congr fun b hMem => (hDepth b hMem).2
    rw [hUnder]
    rfl
  · intro access hMem
    rw [List.mem_append, List.mem_flatMap, List.mem_flatMap] at hMem
    rcases hMem with ⟨b, hPool, hPart⟩ | ⟨b, hFound, hPart⟩
    · obtain ⟨v, v', hStart, hExec, hFinish⟩ := hParts b hPool
      have hRest := framing.trans b _ _ _ hFinish (hEnd b)
      exact framing.agrees_of_isRoutable hExec hStart hRest depth access hPart
    · obtain ⟨⟨x, y, hAll⟩, -⟩ := hDepth b hFound
      rw [hAll, List.mem_singleton] at hPart
      subst hPart
      rfl
  · intro b hPool
    obtain ⟨v, v', -, hExec, -⟩ := hParts b hPool
    have hMem : part b ⊆ pool.backends.flatMap part ++ (pool.backends.filter found).flatMap part' :=
      fun access hPart => List.mem_append_left _ (List.mem_flatMap.mpr ⟨b, hPool, hPart⟩)
    obtain ⟨x, healthy, y, hFlag, hNot, hAsked⟩ := asked_of_isRoutable hExec
    refine ⟨x, healthy, y, hMem hFlag, hNot, fun hHealthy => ?_⟩
    obtain ⟨x', y', hRoutable⟩ := hAsked hHealthy
    exact ⟨x', y', hMem hRoutable⟩
  · intro b hPool hFound
    have hAvailable : b ∈ pool.backends.filter found := List.mem_filter.mpr ⟨hPool, hFound⟩
    obtain ⟨⟨x, y, hAll⟩, -⟩ := hDepth b hAvailable
    refine ⟨x, y, List.mem_append_right _ (List.mem_flatMap.mpr ⟨b, hAvailable, ?_⟩)⟩
    rw [hAll]
    exact List.mem_singleton_self _

end InferenceRouter
