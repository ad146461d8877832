import Mathlib.Algebra.BigOperators.Fin
import Mathlib.Algebra.BigOperators.Group.Finset.Basic
import Mathlib.Algebra.Group.Fin.Basic
import Mathlib.Algebra.Group.Units.Equiv
import Mathlib.Tactic.Abel

/-! A ring of `n` cells as a sliding window over a log of weighted entries.
The head cell collects the entries of the current tick, the cell `age` places
behind it those of `age` ticks ago. Moving the head blanks the cells it enters,
so an entry is forgotten exactly when it is `n` ticks old. -/
namespace Semantics.SlidingWindow

variable {n : Nat} [NeZero n] {α M : Type*}

/-- The slot `k` places ahead of `head`, wrapping around. -/
def slot (head : Fin n) (k : Nat) : Fin n := Fin.ofNat n (head.val + k)

/-- Blank the slots `1 .. k` ahead of `head`, in this order. -/
def clearAhead (blank : α) (head : Fin n) : Nat → (Fin n → α) → Fin n → α
  | 0, cells => cells
  | k + 1, cells => Function.update (clearAhead blank head k cells) (slot head (k + 1)) blank

@[simp] theorem slot_zero (head : Fin n) : slot head 0 = head := by
  simp [slot]

theorem slot_succ (head : Fin n) (k : Nat) : slot head (k + 1) = slot head k + 1 := by
  simp only [slot, Fin.ext_iff, Fin.val_add, Fin.val_ofNat, Fin.val_one', Nat.add_mod_mod,
    Nat.mod_add_mod, Nat.add_assoc]

theorem comp_clearAhead {β : Type*} (f : α → β) (blank : α) (head : Fin n) (k : Nat)
    (cells : Fin n → α) (i : Fin n) :
    f (clearAhead blank head k cells i) =
      clearAhead (f blank) head k (fun i => f (cells i)) i := by
  induction k with
  | zero => rfl
  | succ k ih =>
      simp only [clearAhead, Function.update_apply, ← ih]
      split <;> rfl

variable [AddCommMonoid M]

/-- The ring holds, tick by tick, the weight of the log entries that are
younger than `n` ticks at `tick`. -/
structure Holds (cells : Fin n → M) (head : Fin n) (tick : Nat) (log : List (Nat × M)) : Prop where
  past : ∀ entry ∈ log, entry.1 ≤ tick
  cell : ∀ age : Fin n, cells (head - age) =
    (log.map fun entry => if entry.1 + age.val = tick then entry.2 else 0).sum

namespace Holds

variable {cells : Fin n → M} {head : Fin n} {tick : Nat} {log : List (Nat × M)}

omit [NeZero n] in
theorem empty (head : Fin n) (tick : Nat) : Holds (fun _ => (0 : M)) head tick [] where
  past := by simp
  cell := by simp

/-- An entry of the current tick goes to the head cell. -/
theorem record (h : Holds cells head tick log) (weight : M) :
    Holds (Function.update cells head (cells head + weight)) head tick ((tick, weight) :: log) where
  past := by
    intro entry hm
    rcases List.mem_cons.mp hm with rfl | hm
    · exact Nat.le_refl _
    · exact h.past entry hm
  cell := by
    intro age
    have hCell := h.cell age
    by_cases hAge : age = 0
    · subst age
      simp only [sub_zero] at hCell ⊢
      simp [hCell, add_comm]
    · have hValue : age.val ≠ 0 := fun he => hAge (Fin.val_eq_zero_iff.mp he)
      simp [sub_eq_self, hAge, hValue, hCell]

/-- One tick: the head enters the next cell, which held the oldest entries. -/
theorem tick_succ (h : Holds cells head tick log) :
    Holds (Function.update cells (head + 1) 0) (head + 1) (tick + 1) log where
  past := fun entry hm => Nat.le_succ_of_le (h.past entry hm)
  cell := by
    intro age
    by_cases hAge : age = 0
    · subst age
      have hNone : ∀ entry ∈ log, entry.1 ≠ tick + 1 := by
        intro entry hm he
        have hPast := h.past entry hm
        omega
      rw [sub_zero, Function.update_self, eq_comm]
      apply List.sum_eq_zero
      intro value hm
      obtain ⟨entry, he, rfl⟩ := List.mem_map.mp hm
      simp [hNone entry he]
    · have hPred : (age - 1).val + 1 = age.val := by
        have hPos : age.val ≠ 0 := fun he => hAge (Fin.val_eq_zero_iff.mp he)
        rw [Fin.val_sub_one_of_ne_zero hAge]
        omega
      have hSlot : head + 1 - age = head - (age - 1) := by abel
      rw [Function.update_of_ne (by simpa [sub_eq_self] using hAge), hSlot, h.cell (age - 1)]
      congr 1
      apply List.map_congr_left
      intro entry _
      simp only [← hPred, ← Nat.add_assoc, Nat.add_right_cancel_iff]

theorem advance_exact (h : Holds cells head tick log) (k : Nat) :
    Holds (clearAhead 0 head k cells) (slot head k) (tick + k) log := by
  induction k with
  | zero => simpa [clearAhead] using h
  | succ k ih =>
      simpa only [clearAhead, slot_succ, Nat.add_assoc] using ih.tick_succ

/-- All entries are `n` ticks old or older, so no cell has any weight left. -/
theorem cell_eq_zero_of_old (h : Holds cells head tick log)
    (hOld : ∀ entry ∈ log, entry.1 + n ≤ tick) (i : Fin n) : cells i = 0 := by
  have hCell := h.cell (head - i)
  rw [sub_sub_cancel] at hCell
  rw [hCell]
  apply List.sum_eq_zero
  intro value hm
  obtain ⟨entry, he, rfl⟩ := List.mem_map.mp hm
  have hEntry := hOld entry he
  have hLt := (head - i).isLt
  simp only [ite_eq_right_iff]
  omega

/-- Any number of ticks at once: only the last `n` of them need a blank cell,
and after a gap of `n` or more the head may stop anywhere. -/
theorem advance (h : Holds cells head tick log) (elapsed : Nat) :
    Holds (clearAhead 0 head (min elapsed n) cells) (slot head (min elapsed n))
      (tick + elapsed) log := by
  by_cases hGap : elapsed ≤ n
  · rw [Nat.min_eq_left hGap]
    exact h.advance_exact elapsed
  · rw [Nat.min_eq_right (by omega)]
    have hExact := h.advance_exact n
    have hZero := hExact.cell_eq_zero_of_old (fun entry hm => by
      have hPast := h.past entry hm
      omega)
    refine ⟨fun entry hm => (h.past entry hm).trans (Nat.le_add_right _ _), ?_⟩
    intro age
    rw [hZero, eq_comm]
    apply List.sum_eq_zero
    intro value hm
    obtain ⟨entry, he, rfl⟩ := List.mem_map.mp hm
    have hPast := h.past entry he
    have hLt := age.isLt
    simp only [ite_eq_right_iff]
    omega

omit [NeZero n] in
private theorem sum_age (entry : Nat × M) (hPast : entry.1 ≤ tick) :
    (∑ age : Fin n, if entry.1 + age.val = tick then entry.2 else 0) =
      if tick < entry.1 + n then entry.2 else 0 := by
  by_cases hYoung : tick < entry.1 + n
  · rw [if_pos hYoung, Finset.sum_eq_single (⟨tick - entry.1, by omega⟩ : Fin n)]
    · simp [Nat.add_sub_cancel' hPast]
    · intro age _ hNe
      rw [if_neg]
      intro he
      exact hNe (Fin.ext (by simp only; omega))
    · simp
  · rw [if_neg hYoung]
    apply Finset.sum_eq_zero
    intro age _
    have hLt := age.isLt
    rw [if_neg (by omega)]

/-- The whole ring weighs as much as the log entries younger than `n` ticks. -/
theorem total (h : Holds cells head tick log) :
    ∑ i, cells i = (log.map fun entry => if tick < entry.1 + n then entry.2 else 0).sum := by
  have hReindex : ∑ i, cells i = ∑ age, cells (head - age) :=
    (Equiv.sum_comp (Equiv.subLeft head) cells).symm
  rw [hReindex, Finset.sum_congr rfl (fun age _ => h.cell age)]
  have hPast := h.past
  clear h hReindex
  induction log with
  | nil => simp
  | cons entry log ih =>
      simp only [List.map_cons, List.sum_cons, Finset.sum_add_distrib]
      rw [sum_age entry (hPast entry (List.mem_cons_self ..)),
        ih (fun entry hm => hPast entry (List.mem_cons_of_mem _ hm))]

end Holds

end Semantics.SlidingWindow
