import Mathlib.Data.List.DropRight
import Mathlib.Data.List.Infix
import Mathlib.Order.MinMax

/-! A switch with hysteresis: enough bad observations in a row turn it off,
enough good ones in a row turn it on again. It counts the two runs that are
under way, and its position is a fact about the whole history. -/
namespace Semantics

universe u

section Trailing

variable {α : Type u} [DecidableEq α] {a b : α}

/-- How often a history repeats `a` at its end. -/
def trailing (a : α) (history : List α) : Nat := (history.rtakeWhile (· = a)).length

@[simp] theorem trailing_nil (a : α) : trailing a [] = 0 := rfl

@[simp] theorem trailing_concat_self (a : α) (history : List α) :
    trailing a (history ++ [a]) = trailing a history + 1 := by
  simp [trailing]

theorem trailing_concat_of_ne (h : b ≠ a) (history : List α) : trailing a (history ++ [b]) = 0 := by
  simp [trailing, h]

/-- A history has one value at its end. -/
theorem trailing_eq_zero_or (h : a ≠ b) (history : List α) :
    trailing a history = 0 ∨ trailing b history = 0 := by
  induction history using List.reverseRecOn with
  | nil => exact .inl rfl
  | append_singleton history last ih =>
      by_cases hLast : last = a
      · exact .inr (trailing_concat_of_ne (hLast ▸ h) history)
      · exact .inl (trailing_concat_of_ne hLast history)

/-- A history ends in `n` times `a` if the repetition at its end is that long. -/
theorem replicate_suffix_iff (n : Nat) (a : α) (history : List α) :
    List.replicate n a <:+ history ↔ n ≤ trailing a history := by
  induction history using List.reverseRecOn generalizing n with
  | nil => simp
  | append_singleton history b ih =>
      cases n with
      | zero => simp
      | succ n =>
          rw [List.replicate_succ', List.suffix_concat_iff]
          by_cases hEq : b = a
          · subst hEq
            simp [ih]
          · simp [trailing_concat_of_ne hEq, Ne.symm hEq]

end Trailing

/-- The position and the lengths of the two runs. -/
structure Switch where
  on : Bool
  goods : Nat
  bads : Nat

namespace Switch

def start : Switch where
  on := true
  goods := 0
  bads := 0

/-- One observation, good or bad. It breaks the run of the other kind. -/
def observe (rise fall : Nat) (self : Switch) : Bool → Switch
  | true => { on := self.on || decide (rise ≤ self.goods + 1), goods := self.goods + 1, bads := 0 }
  | false => { on := self.on && !decide (fall ≤ self.bads + 1), goods := 0, bads := self.bads + 1 }

def run (rise fall : Nat) (history : List Bool) : Switch := history.foldl (observe rise fall) start

variable {rise fall : Nat}

theorem run_concat (rise fall : Nat) (history : List Bool) (good : Bool) :
    run rise fall (history ++ [good]) = (run rise fall history).observe rise fall good := by
  simp [run]

/-- The counters are the lengths of the runs at the end of the history. -/
theorem run_counts (rise fall : Nat) (history : List Bool) :
    (run rise fall history).goods = trailing true history ∧
      (run rise fall history).bads = trailing false history := by
  induction history using List.reverseRecOn with
  | nil => exact ⟨rfl, rfl⟩
  | append_singleton history good ih =>
      rw [run_concat]
      cases good <;> simp [observe, ih, trailing_concat_of_ne]

/-- Some part of the history, from its beginning, ends in `fall` bad observations,
and after it there are no `rise` good ones in a row. -/
def OffAfter (rise fall : Nat) (history : List Bool) : Prop :=
  ∃ before after, history = before ++ after ∧ List.replicate fall false <:+ before ∧
    ¬List.replicate rise true <:+: after

/-- A bad observation ends no run of bad ones, and no run of good ones with it. -/
theorem offAfter_concat_false (hRise : 0 < rise) (history : List Bool) :
    OffAfter rise fall (history ++ [false]) ↔
      OffAfter rise fall history ∨ fall ≤ trailing false history + 1 := by
  constructor
  · rintro ⟨before, after, hSplit, hFell, hRose⟩
    rcases List.eq_nil_or_concat after with rfl | ⟨after, last, rfl⟩
    · rw [List.append_nil] at hSplit
      rw [← hSplit, replicate_suffix_iff, trailing_concat_self] at hFell
      exact .inr hFell
    · rw [List.concat_eq_append, ← List.append_assoc] at hSplit
      rw [List.concat_eq_append] at hRose
      obtain ⟨rfl, _⟩ := List.append_inj' hSplit rfl
      exact .inl ⟨before, after, rfl, hFell, fun h => hRose (h.trans (List.prefix_append _ _).isInfix)⟩
  · rintro (⟨before, after, rfl, hFell, hRose⟩ | hFell)
    · refine ⟨before, after ++ [false], List.append_assoc .., hFell, fun h => ?_⟩
      rcases List.infix_concat_iff.mp h with hEnd | hInfix
      · rw [replicate_suffix_iff, trailing_concat_of_ne Bool.false_ne_true] at hEnd
        omega
      · exact hRose hInfix
    · refine ⟨history ++ [false], [], (List.append_nil _).symm, ?_, fun h => ?_⟩
      · rwa [replicate_suffix_iff, trailing_concat_self]
      · have hLength := h.length_le
        simp only [List.length_replicate, List.length_nil] at hLength
        omega

/-- A good observation keeps the switch off, unless it completes a run. -/
theorem offAfter_concat_true (hFall : 0 < fall) (history : List Bool) :
    OffAfter rise fall (history ++ [true]) ↔
      OffAfter rise fall history ∧ trailing true history + 1 < rise := by
  constructor
  · rintro ⟨before, after, hSplit, hFell, hRose⟩
    rcases List.eq_nil_or_concat after with rfl | ⟨after, last, rfl⟩
    · rw [List.append_nil] at hSplit
      rw [← hSplit, replicate_suffix_iff, trailing_concat_of_ne Bool.false_ne_true.symm] at hFell
      omega
    · rw [List.concat_eq_append, ← List.append_assoc] at hSplit
      rw [List.concat_eq_append] at hRose
      obtain ⟨rfl, hLast⟩ := List.append_inj' hSplit rfl
      obtain rfl := (List.cons.inj hLast).1
      refine ⟨⟨before, after, rfl, hFell, fun h => hRose (h.trans (List.prefix_append _ _).isInfix)⟩, ?_⟩
      by_contra hLong
      -- The run of good ones is too long to lie behind `before`, and `before` ends in a bad one.
      have hRun : List.replicate rise true <:+ before ++ (after ++ [true]) := by
        rw [← List.append_assoc, replicate_suffix_iff, trailing_concat_self]
        omega
      rcases List.suffix_or_suffix_of_suffix hRun (List.suffix_append before (after ++ [true])) with
        hWithin | ⟨reach, hReach⟩
      · exact hRose hWithin.isInfix
      · have hTrue : reach = List.replicate reach.length true := (List.append_eq_replicate_iff.mp hReach).2.1
        have hBefore : reach <:+ before := by
          obtain ⟨rest, hRest⟩ := hRun
          rw [← hReach, ← List.append_assoc] at hRest
          exact ⟨rest, List.append_cancel_right hRest⟩
        rw [hTrue, replicate_suffix_iff] at hBefore
        rw [replicate_suffix_iff] at hFell
        rcases trailing_eq_zero_or Bool.false_ne_true before with hNone | hNone
        · omega
        · have hEmpty : reach = [] := List.length_eq_zero_iff.mp (by omega)
          rw [hEmpty, List.nil_append] at hReach
          exact hRose (hReach ▸ List.infix_refl _)
  · rintro ⟨⟨before, after, rfl, hFell, hRose⟩, hShort⟩
    refine ⟨before, after ++ [true], List.append_assoc .., hFell, fun h => ?_⟩
    rcases List.infix_concat_iff.mp h with hEnd | hInfix
    · have hWhole : List.replicate rise true <:+ (before ++ after) ++ [true] := by
        rw [List.append_assoc]
        exact hEnd.trans (List.suffix_append _ _)
      rw [replicate_suffix_iff, trailing_concat_self] at hWhole
      omega
    · exact hRose hInfix

/-- The switch is off exactly if its history says so. A threshold of zero acts as one. -/
theorem run_on_eq_false_iff (rise fall : Nat) (history : List Bool) :
    (run rise fall history).on = false ↔ OffAfter (max rise 1) (max fall 1) history := by
  induction history using List.reverseRecOn with
  | nil =>
      refine ⟨fun h => absurd h (by simp [run, start]), ?_⟩
      rintro ⟨before, after, hSplit, hFell, _⟩
      obtain ⟨rfl, _⟩ := List.append_eq_nil_iff.mp hSplit.symm
      have hLength := hFell.length_le
      simp only [List.length_replicate, List.length_nil] at hLength
      omega
  | append_singleton history good ih =>
      obtain ⟨hGoods, hBads⟩ := run_counts rise fall history
      rw [run_concat]
      cases good with
      | true =>
          rw [offAfter_concat_true (by omega), ← ih]
          simp only [observe, hGoods, Bool.or_eq_false_iff, decide_eq_false_iff_not]
          refine and_congr_right fun _ => ?_
          omega
      | false =>
          rw [offAfter_concat_false (by omega), ← ih]
          simp only [observe, hBads, Bool.and_eq_false_iff, Bool.not_eq_false', decide_eq_true_eq]
          refine or_congr_right ?_
          omega

end Switch

end Semantics
