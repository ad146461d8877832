import Mathlib.Algebra.BigOperators.Group.List.Basic
import Mathlib.Algebra.Order.Group.Defs
import Mathlib.Algebra.Order.BigOperators.Group.List
import Mathlib.Algebra.Order.Field.Basic

/-! A choice among weights by a point on the line from 0 to their sum. The weights
are subtracted one by one until the point is used up, which finds the part of
the line it lies on. Nothing here refers to a particular program. -/
namespace Semantics

universe u

/-- Where the part of the weight at `i` begins. -/
def partialSum {K : Type u} [Add K] [Zero K] (weights : List K) (i : Nat) : K := (weights.take i).sum

/-- The first weight that uses up the point. -/
def scan {K : Type u} [Sub K] [Zero K] [LE K] [DecidableLE K] (point : K) : List K → Option Nat
  | [] => none
  | weight :: rest => if point - weight ≤ 0 then some 0 else (scan (point - weight) rest).map (· + 1)

section Group

variable {K : Type u} [AddCommGroup K]

@[simp] theorem partialSum_zero (weights : List K) : partialSum weights 0 = 0 := rfl

theorem partialSum_cons_succ (weight : K) (rest : List K) (i : Nat) :
    partialSum (weight :: rest) (i + 1) = weight + partialSum rest i := List.sum_cons

/-- A part is as long as its weight. -/
theorem partialSum_succ {weights : List K} {i : Nat} (h : i < weights.length) :
    partialSum weights (i + 1) = partialSum weights i + weights[i] :=
  List.sum_take_succ weights i h

variable [LinearOrder K] [IsOrderedAddMonoid K] {weights : List K} {point : K} {i : Nat}

theorem partialSum_nonneg (h : ∀ weight ∈ weights, 0 ≤ weight) (i : Nat) : 0 ≤ partialSum weights i :=
  List.sum_nonneg fun weight hMem => h weight (List.mem_of_mem_take hMem)

/-- The scan stops at the part of the line on which the point lies. Nothing lies
in front of the first part. -/
theorem scan_eq_some_iff (h : ∀ weight ∈ weights, 0 ≤ weight) :
    scan point weights = some i ↔
      i < weights.length ∧ (i = 0 ∨ partialSum weights i < point) ∧ point ≤ partialSum weights (i + 1) := by
  induction weights generalizing point i with
  | nil => simp [scan]
  | cons weight rest ih =>
      obtain ⟨_, hRest⟩ := List.forall_mem_cons.mp h
      rw [scan, partialSum_cons_succ]
      split
      · rename_i hUsed
        rw [sub_nonpos] at hUsed
        cases i with
        | zero => simpa using hUsed
        | succ i =>
            have hBefore : weight ≤ partialSum (weight :: rest) (i + 1) := by
              rw [partialSum_cons_succ]
              exact le_add_of_nonneg_right (partialSum_nonneg hRest i)
            simp [(hUsed.trans hBefore).not_gt]
      · rename_i hLeft
        rw [sub_nonpos, not_le] at hLeft
        cases i with
        | zero => simpa using hLeft
        | succ i =>
            have hFirst : i = 0 → weight + partialSum rest i < point := by
              rintro rfl
              simpa using hLeft
            have hIndex : (scan (point - weight) rest).map (· + 1) = some (i + 1) ↔
                scan (point - weight) rest = some i := by
              simp [Option.map_eq_some_iff]
            rw [hIndex, ih hRest, partialSum_cons_succ, lt_sub_iff_add_lt', sub_le_iff_le_add',
              List.length_cons, Nat.add_lt_add_iff_right, or_iff_right_of_imp hFirst,
              or_iff_right (Nat.succ_ne_zero i)]

/-- A point on the line is on some part of it. -/
theorem scan_isSome_iff (h : ∀ weight ∈ weights, 0 ≤ weight) (hNonempty : weights ≠ []) :
    (scan point weights).isSome ↔ point ≤ weights.sum := by
  induction weights generalizing point with
  | nil => exact absurd rfl hNonempty
  | cons weight rest ih =>
      obtain ⟨_, hRest⟩ := List.forall_mem_cons.mp h
      rw [scan, List.sum_cons]
      split
      · rename_i hUsed
        rw [sub_nonpos] at hUsed
        exact iff_of_true rfl (hUsed.trans (le_add_of_nonneg_right (List.sum_nonneg hRest)))
      · rename_i hLeft
        rw [Option.isSome_map]
        cases rest with
        | nil => simpa [scan] using hLeft
        | cons next rest => rw [ih hRest (List.cons_ne_nil next rest), sub_le_iff_le_add']

end Group

/-- Drawn uniformly, a point lies on a part as often as its weight says. -/
theorem partialSum_div_sub {K : Type u} [Field K] {weights : List K} {i : Nat} (h : i < weights.length) :
    partialSum weights (i + 1) / weights.sum - partialSum weights i / weights.sum =
      weights[i] / weights.sum := by
  rw [partialSum_succ h, add_div, add_sub_cancel_left]

end Semantics
