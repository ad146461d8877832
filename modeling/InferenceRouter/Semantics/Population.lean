import Mathlib.Algebra.BigOperators.Group.Finset.Basic
import Mathlib.Algebra.Order.BigOperators.Group.List
import Mathlib.Algebra.Order.Monoid.NatCast
import Mathlib.Algebra.Order.Ring.Nat

/-! A measure summed over a population of concurrent activities, when one of
them changes, ends or begins. -/
namespace Semantics

universe u

variable {α : Type u} (measure : α → Nat) {population : List α} {i : Nat} {before : α}

/-- The measure of a whole population. -/
def sumOver (population : List α) : Nat := (population.map measure).sum

@[simp] theorem sumOver_nil : sumOver measure ([] : List α) = 0 := rfl

@[simp] theorem sumOver_cons (first : α) (rest : List α) :
    sumOver measure (first :: rest) = measure first + sumOver measure rest := by
  simp [sumOver]

@[simp] theorem sumOver_append (left right : List α) :
    sumOver measure (left ++ right) = sumOver measure left + sumOver measure right := by
  simp [sumOver]

/-- A member and the others. -/
theorem sumOver_split (hMember : population[i]? = some before) :
    sumOver measure population =
      sumOver measure (population.take i) + (measure before + sumOver measure (population.drop (i + 1))) := by
  obtain ⟨hLt, rfl⟩ := List.getElem?_eq_some_iff.mp hMember
  rw [← sumOver_cons, ← List.drop_eq_getElem_cons hLt, ← sumOver_append, List.take_append_drop]

/-- One member changes. -/
theorem sumOver_set (hMember : population[i]? = some before) (after : α) :
    sumOver measure (population.set i after) + measure before =
      sumOver measure population + measure after := by
  have hLt : i < population.length := (List.getElem?_eq_some_iff.mp hMember).1
  rw [sumOver_split measure hMember, List.set_eq_take_append_cons_drop, if_pos hLt, sumOver_append, sumOver_cons]
  omega

/-- One member leaves. -/
theorem sumOver_eraseIdx (hMember : population[i]? = some before) :
    sumOver measure (population.eraseIdx i) + measure before = sumOver measure population := by
  rw [sumOver_split measure hMember, List.eraseIdx_eq_take_drop_succ, sumOver_append]
  omega

theorem le_sumOver (hMember : before ∈ population) :
    measure before ≤ sumOver measure population :=
  List.single_le_sum (by simp) _ (List.mem_map_of_mem hMember)

theorem sumOver_eq_zero_iff : sumOver measure population = 0 ↔ ∀ a ∈ population, measure a = 0 := by
  simp [sumOver, List.sum_eq_zero_iff_forall_eq_nat]

/-- A measure bounded member by member is bounded as a whole. -/
theorem sumOver_le_sumOver {measure' : α → Nat} (h : ∀ a ∈ population, measure a ≤ measure' a) :
    sumOver measure population ≤ sumOver measure' population :=
  List.sum_le_sum h

/-- Where the members stand that pass a test. -/
def positions (test : α → Bool) (population : List α) : List Nat :=
  (List.range population.length).filter fun i => population[i]?.any test

theorem mem_positions_iff {test : α → Bool} : i ∈ positions test population ↔ ∃ a, population[i]? = some a ∧ test a := by
  rw [positions, List.mem_filter, List.mem_range, Option.any_eq_true]
  constructor
  · exact And.right
  · rintro ⟨a, hMember, hTest⟩
    exact ⟨(List.getElem?_eq_some_iff.mp hMember).1, a, hMember, hTest⟩

theorem positions_sorted (test : α → Bool) (population : List α) : (positions test population).Pairwise (· < ·) :=
  List.pairwise_lt_range.filter _

/-- One member joins. -/
theorem positions_concat (test : α → Bool) (population : List α) (a : α) :
    positions test (population ++ [a]) = positions test population ++ if test a then [population.length] else [] := by
  have hOld : (List.range population.length).filter (fun i => (population ++ [a])[i]?.any test) =
      positions test population := by
    refine List.filter_congr fun i hi => ?_
    rw [List.getElem?_append_left (List.mem_range.mp hi)]
  rw [positions, List.length_append, List.length_singleton, List.range_succ, List.filter_append, hOld,
    List.filter_singleton, List.getElem?_concat_length, Option.any_some, Bool.cond_eq_ite]

/-- One member stops passing, or never did. -/
theorem positions_set {test : α → Bool} {after : α} (hAfter : test after = false) (population : List α) (i : Nat) :
    positions test (population.set i after) = (positions test population).erase i := by
  have hNodup : (positions test population).Nodup := (positions_sorted test population).imp fun h => h.ne
  rw [hNodup.erase_eq_filter, positions, positions, List.filter_filter, List.length_set]
  refine List.filter_congr fun j hj => ?_
  by_cases hSame : j = i
  · subst hSame
    rw [List.getElem?_set_self (List.mem_range.mp hj)]
    simp [hAfter]
  · rw [List.getElem?_set_ne (Ne.symm hSame)]
    simp [hSame]

theorem length_positions (test : α → Bool) (population : List α) :
    (positions test population).length = population.countP test := by
  induction population using List.reverseRecOn with
  | nil => rfl
  | append_singleton population a ih =>
      rw [positions_concat, List.length_append, ih, List.countP_append, List.countP_singleton]
      split <;> rfl

/-- The measures of a family, summed up member by member. -/
theorem sum_sumOver {ι : Type} (family : Finset ι) (measure : ι → α → Nat) (population : List α) :
    ∑ k ∈ family, sumOver (measure k) population =
      sumOver (fun a => ∑ k ∈ family, measure k a) population := by
  induction population with
  | nil => simp
  | cons first rest ih => simp [Finset.sum_add_distrib, ih]

end Semantics
