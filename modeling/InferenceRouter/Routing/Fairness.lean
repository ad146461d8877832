import InferenceRouter.Routing.LatencyAware
import InferenceRouter.Semantics.Tickets

/-! Weighted round robin among concurrent calls. A call reads the list, takes one
number from the counter and picks the owner of its slot, so whatever the calls
do in between, the numbers decide who is served how often. -/
namespace InferenceRouter

open Semantics

/-- `select` as its atomic operations. -/
def RoundRobin.selectProgram (routable : List Backend) :
    Program CounterOp CounterOp.Answer (Option BackendId) :=
  let total := totalWeight routable
  if total = 0 then pure none
  else do
    let slot ← Program.call .fetchAdd
    pure (weightedPick (slot % total) routable)

/-- `select` as its atomic operations on the counter. The latencies are those it saw. -/
def LatencyAware.selectProgram {F : Type} [FloatArith F] (draw : F) (routable : List Backend) :
    Program CounterOp CounterOp.Answer (Option BackendId) :=
  if routable.isEmpty then pure none
  else
    let latencies : List F := latencies (routable.map Backend.ewmaLatencyUs)
    if isFlat latencies then do
      let slot ← Program.call .fetchAdd
      pure (weightedPick (slot % totalWeight routable) routable)
    else
      let weights := weights routable latencies
      let total := weights.foldl FloatArith.add FloatArith.zero
      let picked := pickByWeight (FloatArith.mul draw total) (routable.zip weights)
      pure (picked.or (routable.getLast?.map Backend.id))

/-- Without other calls, the operations amount to `select`. -/
theorem RoundRobin.alone_selectProgram (self : RoundRobin) (routable : List Backend) :
    (Program.alone (CounterOp.perform wordSize) (selectProgram routable) self.counter).2 =
      ((self.select routable).1, (self.select routable).2.counter) := by
  unfold selectProgram select
  dsimp only
  split
  · rfl
  · rfl

theorem LatencyAware.alone_selectProgram {F : Type} [FloatArith F] (self : LatencyAware) (draw : F)
    (routable : List Backend) :
    (Program.alone (CounterOp.perform wordSize) (selectProgram draw routable) self.fallbackCounter).2 =
      ((self.select draw routable).1, (self.select draw routable).2.fallbackCounter) := by
  unfold selectProgram select
  dsimp only
  split
  · rfl
  · split
    · rfl
    · rfl

/-- A backend owns as many slots as it has weight. -/
theorem count_weightedPick {routable : List Backend} (hIds : (ids routable).Nodup) {b : Backend}
    (hMem : b ∈ routable) :
    Nat.count (fun slot => weightedPick slot routable = some b.id) (totalWeight routable) = b.slots := by
  induction routable with
  | nil => cases hMem
  | cons first rest ih =>
      obtain ⟨hFresh, hIds⟩ := List.nodup_cons.mp hIds
      have hOwn : ∀ slot < first.slots, weightedPick slot (first :: rest) = some first.id :=
        fun slot hSlot => if_pos hSlot
      have hRest : (fun slot => weightedPick (first.slots + slot) (first :: rest) = some b.id) =
          fun slot => weightedPick slot rest = some b.id := by
        funext slot
        rw [weightedPick, if_neg (by omega), Nat.add_sub_cancel_left]
      rw [totalWeight_cons, Nat.count_add]
      simp only [hRest]
      rcases List.mem_cons.mp hMem with rfl | hLater
      · rw [Nat.count_of_forall hOwn, Nat.count_of_forall_not, Nat.add_zero]
        intro slot hSlot hPick
        obtain ⟨owner, hOwner, hOwned⟩ := weightedPick_of_lt hSlot
        have hEq : owner.id = b.id := Option.some.inj (hOwned.symm.trans hPick)
        exact hFresh (hEq ▸ List.mem_map_of_mem hOwner)
      · have hNe : first.id ≠ b.id := fun hEq => hFresh (hEq ▸ List.mem_map_of_mem hLater)
        rw [ih hIds hLater, Nat.count_of_forall_not, Nat.zero_add]
        intro slot hSlot hPick
        exact hNe (Option.some.inj ((hOwn slot hSlot).symm.trans hPick))

/-- The list as one call sees it: the backends and their weights are fixed, the
values of their counters are those at that time. -/
structure View (routable : List Backend) where
  backends : List Backend
  same : backends.map (fun b => (b.id, b.weight)) = routable.map fun b => (b.id, b.weight)

/-- A call with its random draw that sees latencies close to each other. -/
structure FlatView (F : Type) [FloatArith F] (routable : List Backend) extends View routable where
  draw : F
  flat : LatencyAware.isFlat (LatencyAware.latencies (F := F) (backends.map Backend.ewmaLatencyUs)) = true

theorem totalWeight_eq (routable : List Backend) :
    totalWeight routable = ((routable.map fun b => (b.id, b.weight)).map fun b => max b.2 1).sum := by
  rw [List.map_map]
  rfl

theorem weightedPick_congr {these those : List Backend}
    (h : these.map (fun b => (b.id, b.weight)) = those.map fun b => (b.id, b.weight)) (slot : Nat) :
    weightedPick slot these = weightedPick slot those := by
  induction these generalizing those slot with
  | nil => rw [List.map_eq_nil_iff.mp h.symm]
  | cons first rest ih =>
      cases those with
      | nil => cases h
      | cons first' rest' =>
          obtain ⟨hFirst, hRest⟩ := List.cons.inj h
          obtain ⟨hId, hWeight⟩ := Prod.mk.inj hFirst
          have hSlots : first.slots = first'.slots := congrArg (max · 1) hWeight
          rw [weightedPick, weightedPick, hSlots, hId, ih hRest]

namespace View

variable {routable : List Backend} (view : View routable)

theorem totalWeight_eq : totalWeight view.backends = totalWeight routable := by
  rw [InferenceRouter.totalWeight_eq, view.same, ← InferenceRouter.totalWeight_eq]

theorem backends_ne_nil (h : routable ≠ []) : view.backends ≠ [] := by
  intro hNil
  have hSame := view.same
  rw [hNil] at hSame
  exact h (List.map_eq_nil_iff.mp hSame.symm)

/-- What a number is used for does not depend on the view. -/
theorem use_eq : (fun slot => weightedPick (slot % totalWeight view.backends) view.backends) =
    fun slot => weightedPick (slot % totalWeight routable) routable := by
  funext slot
  rw [view.totalWeight_eq, weightedPick_congr view.same]

theorem roundRobin_ticket (h : routable ≠ []) : RoundRobin.selectProgram view.backends =
    ticket fun slot => weightedPick (slot % totalWeight routable) routable := by
  rw [← view.use_eq]
  exact if_neg (totalWeight_pos (view.backends_ne_nil h)).ne'

end View

theorem FlatView.latencyAware_ticket {F : Type} [FloatArith F] {routable : List Backend}
    (view : FlatView F routable) (h : routable ≠ []) :
    LatencyAware.selectProgram view.draw view.backends =
      ticket fun slot => weightedPick (slot % totalWeight routable) routable := by
  have hNonempty : view.backends.isEmpty = false := by
    rw [Bool.eq_false_iff, Ne, List.isEmpty_iff]
    exact view.backends_ne_nil h
  rw [← view.use_eq, LatencyAware.selectProgram, hNonempty]
  exact if_pos view.flat

/-- Every call is served, and every backend as often as its weight says. -/
def Fair (routable : List Backend) (times : Nat) (served : List (Option BackendId)) : Prop :=
  served.length = times * totalWeight routable ∧ (∀ answer ∈ served, answer.isSome) ∧
    ∀ b ∈ routable, served.count (some b.id) = times * max b.weight 1

theorem fair_of_dispensed {routable : List Backend} (hNonempty : routable ≠ [])
    (hIds : (ids routable).Nodup) {modulus first times : Nat}
    {s : Threads Nat CounterOp CounterOp.Answer (Option BackendId)}
    (h : s.Dispensed (fun slot => weightedPick (slot % totalWeight routable) routable) modulus first)
    (hLength : s.results.length = times * totalWeight routable) : Fair routable times s.results := by
  have hServed := h.results
  rw [hLength] at hServed
  refine ⟨hLength, fun answer hMem => ?_, fun b hMem => ?_⟩
  · obtain ⟨slot, _, rfl⟩ := List.mem_map.mp (hServed.mem_iff.mp hMem)
    obtain ⟨b, _, hPick⟩ := weightedPick_mod slot hNonempty
    rw [hPick]
    rfl
  · have hPeriodic : Function.Periodic (fun slot =>
        weightedPick (slot % totalWeight routable) routable = some b.id) (totalWeight routable) := by
      intro slot
      simp only [Nat.add_mod_right]
    have hCycle : Nat.count (fun slot => weightedPick (slot % totalWeight routable) routable = some b.id)
        (totalWeight routable) = b.slots := by
      rw [← count_weightedPick hIds hMem]
      refine List.countP_congr fun slot hSlot => ?_
      simp only [Nat.mod_eq_of_lt (List.mem_range.mp hSlot)]
    calc s.results.count (some b.id)
        = (List.range' first (times * totalWeight routable)).countP
            (fun slot => weightedPick (slot % totalWeight routable) routable = some b.id) := by
          rw [hServed.count_eq, List.count, List.countP_map]
          refine List.countP_congr fun slot _ => ?_
          simp
      _ = times * b.slots := by rw [countP_range'_of_periodic hPeriodic, hCycle]

theorem fair_of_body {Call : Type} {routable : List Backend} (hNonempty : routable ≠ [])
    (hIds : (ids routable).Nodup) {body : Call → Program CounterOp CounterOp.Answer (Option BackendId)}
    (hBody : ∀ call, body call = ticket fun slot => weightedPick (slot % totalWeight routable) routable)
    {first times : Nat} (hFits : first + times * totalWeight routable ≤ wordSize)
    {schedule : List (Turn Call)} (hCalls : (calls schedule).length = times * totalWeight routable)
    (hFinished : (Threads.run body (CounterOp.perform wordSize) first schedule).Finished) :
    Fair routable times (Threads.run body (CounterOp.perform wordSize) first schedule).results := by
  apply fair_of_dispensed hNonempty hIds (Threads.run_tickets hBody schedule (hCalls ▸ hFits))
  rw [Threads.length_results_of_finished hFinished, Threads.length_programs_run, hCalls]

/-- Weighted round robin is exactly fair: of `times` rounds of concurrent calls,
each backend gets `times` rounds' worth of its weight, in any interleaving and
from any value of the counter that leaves room for them. -/
theorem fair_of_any_interleaving {F : Type} [FloatArith F] {routable : List Backend}
    (hNonempty : routable ≠ []) (hIds : (ids routable).Nodup) {first times : Nat}
    (hFits : first + times * totalWeight routable ≤ wordSize) :
    (∀ schedule : List (Turn (View routable)),
      (calls schedule).length = times * totalWeight routable →
      let s := Threads.run (fun view => RoundRobin.selectProgram view.backends)
        (CounterOp.perform wordSize) first schedule
      s.Finished → Fair routable times s.results) ∧
    ∀ schedule : List (Turn (FlatView F routable)),
      (calls schedule).length = times * totalWeight routable →
      let s := Threads.run (fun view => LatencyAware.selectProgram view.draw view.backends)
        (CounterOp.perform wordSize) first schedule
      s.Finished → Fair routable times s.results := by
  constructor
  · intro schedule hCalls s hFinished
    exact fair_of_body hNonempty hIds (fun view => view.roundRobin_ticket hNonempty) hFits hCalls hFinished
  · intro schedule hCalls s hFinished
    exact fair_of_body hNonempty hIds (fun view => view.latencyAware_ticket hNonempty) hFits hCalls hFinished

/-- Two backends with weights 1 and 3 and the given latencies. -/
def oneAndThree (latency latency' : Nat) : List Backend :=
  let backend (id : BackendId) (weight ewmaLatencyUs : Nat) : Backend :=
    { Backend.new id "http://b" weight (.new 0 (1 / 2) 10 10 30) with ewmaLatencyUs }
  [backend 0 1 latency, backend 1 3 latency']

/-- Four calls that overlap, the second of which takes the first number. -/
def overlapping {Call : Type} (call : Call) : List (Turn Call) :=
  [.start call, .start call, .resume 1, .start call, .resume 0, .start call, .resume 3, .resume 2]

theorem fair_of_any_interleaving_overlapping :
    let roundRobin := Threads.run (fun view => RoundRobin.selectProgram view.backends)
      (CounterOp.perform wordSize) 7 (overlapping (⟨oneAndThree 0 0, rfl⟩ : View (oneAndThree 0 0)))
    let latencyAware := Threads.run
      (fun view => LatencyAware.selectProgram view.draw view.backends) (CounterOp.perform wordSize) 7
      (overlapping (⟨⟨oneAndThree 100 105, rfl⟩, 1 / 2, by decide +kernel⟩ : FlatView ℚ (oneAndThree 0 0)))
    Fair (oneAndThree 0 0) 1 roundRobin.results ∧ Fair (oneAndThree 0 0) 1 latencyAware.results := by
  intro roundRobin latencyAware
  have hNonempty : oneAndThree 0 0 ≠ [] := List.cons_ne_nil _ _
  have hFits : 7 + 1 * totalWeight (oneAndThree 0 0) ≤ wordSize := by decide
  obtain ⟨hRound, hLatency⟩ := fair_of_any_interleaving (F := ℚ) hNonempty (by decide) hFits
  exact ⟨hRound _ rfl (by decide +kernel), hLatency _ rfl (by decide +kernel)⟩

end InferenceRouter
