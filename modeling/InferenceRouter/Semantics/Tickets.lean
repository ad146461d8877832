import InferenceRouter.Semantics.Threads
import Mathlib.Data.Nat.Periodic

/-! Threads that take numbers from one counter. The counter wraps, and until it
does, every number is handed out once and in order, whoever takes it. -/
namespace Semantics

universe u v

inductive CounterOp where
  | fetchAdd

/-- The value that was found. -/
abbrev CounterOp.Answer (_ : CounterOp) : Type := Nat

def CounterOp.perform (modulus counter : Nat) : (op : CounterOp) → op.Answer × Nat
  | .fetchAdd => (counter, (counter + 1) % modulus)

/-- The program that takes a number and uses it. -/
def ticket {Result : Type u} (use : Nat → Result) : Program CounterOp CounterOp.Answer Result :=
  .ask .fetchAdd fun number => .done (use number)

namespace Threads

variable {Call : Type v} {Result : Type u} {use : Nat → Result}
  {body : Call → Program CounterOp CounterOp.Answer Result}

/-- The numbers from `first` on have been handed out, one to each thread that is over. -/
structure Dispensed (use : Nat → Result) (modulus first : Nat)
    (s : Threads Nat CounterOp CounterOp.Answer Result) : Prop where
  programs : ∀ program ∈ s.programs, program = ticket use ∨ ∃ result, program = .done result
  next : first + s.results.length < modulus → s.world = first + s.results.length
  results : s.results.Perm ((List.range' first s.results.length).map use)

theorem Dispensed.start {modulus first : Nat} {s : Threads Nat CounterOp CounterOp.Answer Result}
    (h : Dispensed use modulus first s) :
    Dispensed use modulus first { s with programs := s.programs ++ [ticket use] } := by
  have hResults : Threads.results { s with programs := s.programs ++ [ticket use] } = s.results :=
    results_start rfl s
  refine ⟨?_, hResults ▸ h.next, hResults ▸ h.results⟩
  exact List.forall_mem_append.mpr ⟨h.programs, List.forall_mem_singleton.mpr (.inl rfl)⟩

/-- The next number goes to the thread whose turn it is. -/
theorem Dispensed.take {modulus first world : Nat}
    {before after : List (Program CounterOp CounterOp.Answer Result)}
    (h : Dispensed use modulus first { world, programs := before ++ ticket use :: after })
    (hFits : first + (before ++ ticket use :: after).length ≤ modulus) :
    Dispensed use modulus first
      { world := (world + 1) % modulus, programs := before ++ .done (use world) :: after } := by
  set taken := before.filterMap Program.result? ++ after.filterMap Program.result? with hTaken
  have hBefore : Threads.results { world, programs := before ++ ticket use :: after } = taken :=
    results_append world before _
  have hAfter : (Threads.results
      { world := (world + 1) % modulus, programs := before ++ .done (use world) :: after }).Perm
        (use world :: taken) := by
    rw [results_append]
    exact List.perm_middle
  have hLeft : first + taken.length < modulus := by
    have hLength := length_results_le { world, programs := before ++ after }
    rw [results_append, ← hTaken] at hLength
    simp only [List.length_append, List.length_cons] at hFits hLength
    omega
  have hWorld : world = first + taken.length := hBefore ▸ h.next (hBefore ▸ hLeft)
  refine ⟨forall_programs_replace h.programs (.inr ⟨_, rfl⟩), fun hMore => ?_, ?_⟩
  · rw [hAfter.length_eq, List.length_cons] at hMore ⊢
    rw [← Nat.add_assoc, ← hWorld, Nat.mod_eq_of_lt (by omega)]
  · have hOld := h.results
    rw [hBefore] at hOld
    rw [hAfter.length_eq, List.length_cons, List.range'_1_concat, List.map_append, ← hWorld]
    exact hAfter.trans ((hOld.cons (use world)).trans (List.perm_append_singleton _ _).symm)

/-- As long as the counter does not wrap, the results are those of the numbers
from the first on, each used once. -/
theorem run_tickets (hBody : ∀ call, body call = ticket use) {modulus first : Nat}
    (schedule : List (Turn Call)) (hFits : first + (calls schedule).length ≤ modulus) :
    Dispensed use modulus first (run body (CounterOp.perform modulus) first schedule) := by
  refine run_invariant (fun (schedule : List (Turn Call)) s => s.programs.length = (calls schedule).length ∧
    (first + (calls schedule).length ≤ modulus → Dispensed use modulus first s)) ?_ ?_ ?_ ?_ schedule |>.2 hFits
  · exact ⟨rfl, fun _ => ⟨by simp, fun _ => rfl, .refl _⟩⟩
  · rintro schedule call s ⟨hLength, h⟩
    rw [calls_start, List.length_append, List.length_append, hLength, hBody]
    exact ⟨rfl, fun hFits => (h (Nat.le_of_lt hFits)).start⟩
  · rintro schedule thread s h
    rwa [calls_resume]
  · rintro schedule thread world before op next after ⟨hLength, h⟩
    rw [calls_resume, ← hLength] at *
    refine ⟨by simp only [List.length_append, List.length_cons], fun hFits => ?_⟩
    rcases (h hFits).programs _ (List.mem_append_right _ (List.mem_cons_self ..)) with hTicket | ⟨_, hDone⟩
    · obtain rfl : op = .fetchAdd := rfl
      obtain rfl : next = fun number => .done (use number) := by injection hTicket
      exact (h hFits).take hFits
    · cases hDone

end Threads

section Periodic

variable {p : Nat → Prop} [DecidablePred p] {period : Nat}

theorem count_mul_of_periodic (h : Function.Periodic p period) (times : Nat) :
    Nat.count p (times * period) = times * Nat.count p period := by
  induction times with
  | zero => simp
  | succ times ih =>
      have hLast : (fun k => p (times * period + k)) = p := by
        funext k
        rw [Nat.add_comm]
        exact h.nat_mul times k
      rw [Nat.succ_mul, Nat.succ_mul, Nat.count_add, ih]
      simp only [hLast]

/-- Over whole periods, a periodic property has its share of any interval. -/
theorem countP_range'_of_periodic (h : Function.Periodic p period) (first times : Nat) :
    (List.range' first (times * period)).countP p = times * Nat.count p period := by
  rw [← count_mul_of_periodic h, List.countP_eq_length_filter,
    ← Nat.filter_multiset_Ico_card_eq_of_periodic first (times * period) p (h.nat_mul times)]
  change _ = (List.filter _ (List.range' first (first + times * period - first))).length
  rw [Nat.add_sub_cancel_left]

end Periodic

end Semantics
