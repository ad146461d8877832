import Mathlib.Data.List.Nodup

/-! Repeated choice. A choice that does not depend on the candidates it passes over
ranks them once and for all: whoever chooses again after each refusal walks down
that ranking. Nothing here refers to a particular program. -/
namespace Semantics

universe u

variable {α : Type u} [DecidableEq α] {choose : List α → Option α} {candidates l : List α} {a : α}

/-- What is chosen from more candidates is chosen from fewer, if it is among them. -/
def Consistent (choose : List α → Option α) : Prop :=
  ∀ fewer more a, fewer ⊆ more → a ∈ fewer → choose more = some a → choose fewer = some a

/-- From any of the candidates, one of them is chosen. -/
def Decisive (choose : List α → Option α) (candidates : List α) : Prop :=
  ∀ l ⊆ candidates, l ≠ [] → ∃ a ∈ l, choose l = some a

/-- The first `n` choices, each taken away before the next. -/
def choices (choose : List α → Option α) : Nat → List α → List α
  | 0, _ => []
  | n + 1, l =>
      match choose l with
      | some a => a :: choices choose n (l.filter (· ≠ a))
      | none => []

/-- The candidates in the order in which they are chosen. -/
def ranking (choose : List α → Option α) (l : List α) : List α := choices choose l.length l

theorem length_filter_ne (hNodup : l.Nodup) (hMem : a ∈ l) :
    (l.filter (· ≠ a)).length + 1 = l.length := by
  have hErase : l.erase a = l.filter (· ≠ a) := by
    rw [hNodup.erase_eq_filter]
    congr 1
    funext b
    simp [bne, Bool.beq_eq_decide_eq]
  have hPos := List.length_pos_of_mem hMem
  rw [← hErase, List.length_erase_of_mem hMem]
  omega

theorem ranking_of_choice (hNodup : l.Nodup) (hMem : a ∈ l) (hChoice : choose l = some a) :
    ranking choose l = a :: ranking choose (l.filter (· ≠ a)) := by
  simp only [ranking, ← length_filter_ne hNodup hMem, choices, hChoice]

/-- A decisive choice ranks every candidate once. -/
theorem ranking_perm (hDecisive : Decisive choose candidates) (hNodup : l.Nodup) (hSub : l ⊆ candidates) :
    (ranking choose l).Perm l := by
  induction hLength : l.length generalizing l with
  | zero =>
      rw [List.length_eq_zero_iff.mp hLength]
      exact .refl _
  | succ n ih =>
      have hNonempty : l ≠ [] := by
        rintro rfl
        cases hLength
      obtain ⟨a, hMem, hChoice⟩ := hDecisive l hSub hNonempty
      have hFewer := length_filter_ne hNodup hMem
      have hRest := ih (hNodup.filter (· ≠ a)) (List.Subset.trans List.filter_sublist.subset hSub) (by omega)
      rw [ranking_of_choice hNodup hMem hChoice]
      refine (hRest.cons a).trans ?_
      have hErase := List.perm_cons_erase hMem
      rw [hNodup.erase_eq_filter] at hErase
      simpa [bne, Bool.beq_eq_decide_eq] using hErase.symm

/-- Consistently, the ranking of some candidates is that of all, restricted to them. -/
theorem ranking_filter (hConsistent : Consistent choose) (hDecisive : Decisive choose candidates)
    (hNodup : l.Nodup) (hSub : l ⊆ candidates) (keep : α → Bool) :
    ranking choose (l.filter keep) = (ranking choose l).filter keep := by
  induction hLength : l.length generalizing l with
  | zero =>
      rw [List.length_eq_zero_iff.mp hLength]
      rfl
  | succ n ih =>
      have hNonempty : l ≠ [] := by
        rintro rfl
        cases hLength
      obtain ⟨a, hMem, hChoice⟩ := hDecisive l hSub hNonempty
      have hFewer := length_filter_ne hNodup hMem
      have hRest := ih (hNodup.filter (· ≠ a)) (List.Subset.trans List.filter_sublist.subset hSub) (by omega)
      rw [List.filter_comm] at hRest
      rw [ranking_of_choice hNodup hMem hChoice]
      cases hKeep : keep a with
      | true =>
          have hKept : a ∈ l.filter keep := List.mem_filter.mpr ⟨hMem, hKeep⟩
          have hSame := hConsistent _ l a List.filter_sublist.subset hKept hChoice
          rw [ranking_of_choice (hNodup.filter keep) hKept hSame, hRest, List.filter_cons_of_pos hKeep]
      | false =>
          have hGone : (l.filter keep).filter (· ≠ a) = l.filter keep := by
            refine List.filter_eq_self.mpr fun b hb => decide_eq_true ?_
            rintro rfl
            simp [hKeep] at hb
          rw [List.filter_cons_of_neg (by simp [hKeep]), ← hRest, hGone]

end Semantics
