import Mathlib.Algebra.Order.Field.Basic
import Mathlib.Tactic.FieldSimp
import Mathlib.Tactic.Linarith
import Mathlib.Tactic.Ring

/-! Exponential averages, and what becomes of them when every step is rounded down.
Nothing here refers to a particular program. -/
namespace Semantics

universe u

section Average

variable {K : Type u} [Field K] (α : K)

/-- One step of the average. -/
def blend (old new : K) : K := α * new + (1 - α) * old

/-- The average of the samples, oldest first, that started at a first value. -/
def average (first : K) (samples : List K) : K := samples.foldl (blend α) first

/-- What the samples contribute, each the less the more came after it. -/
def weighted : List K → K
  | [] => 0
  | sample :: later => α * (1 - α) ^ later.length * sample + weighted later

/-- The average in closed form. -/
theorem average_eq (first : K) (samples : List K) :
    average α first samples = (1 - α) ^ samples.length * first + weighted α samples := by
  induction samples generalizing first with
  | nil => simp [average, weighted]
  | cons sample later ih =>
      calc average α first (sample :: later) = average α (blend α first sample) later := rfl
        _ = (1 - α) ^ later.length * blend α first sample + weighted α later := ih _
        _ = (1 - α) ^ (sample :: later).length * first + weighted α (sample :: later) := by
          rw [blend, weighted, List.length_cons]
          ring

end Average

section Rounded

variable {K : Type u} [Field K] [LinearOrder K] [IsStrictOrderedRing K] {α : K}

/-- Steps that are each rounded down by less than one. -/
structure RoundsDown (α : K) (step : Nat → Nat → Nat) (old new : Nat) : Prop where
  le : (step old new : K) ≤ blend α old new
  lt : blend α (old : K) new < step old new + 1

variable {step : Nat → Nat → Nat} (hLow : 0 < α) (hHigh : α ≤ 1)

include hLow hHigh

/-- Rounding down never costs more than `1 / α`, since what one step loses the later
steps forget again. -/
theorem lag_step {average : K} {estimate sample : Nat} (hStep : RoundsDown α step estimate sample)
    (hLe : (estimate : K) ≤ average) (hLt : average < estimate + 1 / α) :
    (step estimate sample : K) ≤ blend α average sample ∧ blend α average sample < step estimate sample + 1 / α := by
  have hRest : 0 ≤ 1 - α := sub_nonneg.mpr hHigh
  have hKept : blend α average sample - blend α (estimate : K) sample = (1 - α) * (average - estimate) := by
    rw [blend, blend]
    ring
  have hForgotten : (1 - α) * (average - estimate) ≤ (1 - α) * (1 / α) :=
    mul_le_mul_of_nonneg_left (by linarith) hRest
  have hPart : (1 - α) * (1 / α) = 1 / α - 1 := by
    field_simp
  have hNonneg : 0 ≤ (1 - α) * (average - estimate) := mul_nonneg hRest (sub_nonneg.mpr hLe)
  exact ⟨by linarith [hStep.le], by linarith [hStep.lt]⟩

theorem lag_run {Good : Nat → Prop} {samples : List Nat}
    (hStep : ∀ estimate, Good estimate → ∀ sample ∈ samples,
      RoundsDown α step estimate sample ∧ Good (step estimate sample))
    {average₀ : K} {estimate : Nat} (hGood : Good estimate) (hLe : (estimate : K) ≤ average₀)
    (hLt : average₀ < estimate + 1 / α) :
    ((samples.foldl step estimate : Nat) : K) ≤ average α average₀ (samples.map Nat.cast) ∧
      average α average₀ (samples.map Nat.cast) < (samples.foldl step estimate : Nat) + 1 / α := by
  induction samples generalizing average₀ estimate with
  | nil => exact ⟨hLe, hLt⟩
  | cons sample later ih =>
      obtain ⟨hRounds, hNext⟩ := hStep estimate hGood sample (List.mem_cons_self ..)
      obtain ⟨hLe', hLt'⟩ := lag_step hLow hHigh hRounds hLe hLt
      refine ih (fun estimate hGood sample' hMem => ?_) hNext hLe' hLt'
      exact hStep estimate hGood sample' (List.mem_cons_of_mem _ hMem)

/-- Steps that are rounded down, from the same start as the average. -/
theorem lag_bound {Good : Nat → Prop} {samples : List Nat}
    (hStep : ∀ estimate, Good estimate → ∀ sample ∈ samples,
      RoundsDown α step estimate sample ∧ Good (step estimate sample))
    {first : Nat} (hGood : Good first) :
    ((samples.foldl step first : Nat) : K) ≤ average α (first : K) (samples.map Nat.cast) ∧
      average α (first : K) (samples.map Nat.cast) < (samples.foldl step first : Nat) + 1 / α :=
  lag_run hLow hHigh hStep hGood le_rfl (lt_add_of_pos_right _ (one_div_pos.mpr hLow))

/-- From above the samples a step descends, and it does not climb past them. -/
theorem descend {greatest estimate sample : Nat} (hStep : RoundsDown α step estimate sample)
    (hGreatest : sample ≤ greatest) :
    (greatest < estimate → step estimate sample < estimate) ∧
      (estimate ≤ greatest → step estimate sample ≤ greatest) := by
  have hSample : α * (sample : K) ≤ α * greatest :=
    mul_le_mul_of_nonneg_left (Nat.cast_le.mpr hGreatest) hLow.le
  have hBlend : (step estimate sample : K) ≤ α * greatest + (1 - α) * estimate := by
    calc (step estimate sample : K) ≤ blend α (estimate : K) sample := hStep.le
      _ ≤ α * greatest + (1 - α) * estimate := by rw [blend]; linarith
  constructor
  · intro hAbove
    have hAway : α * (greatest : K) < α * estimate := mul_lt_mul_of_pos_left (Nat.cast_lt.mpr hAbove) hLow
    have hLess : (step estimate sample : K) < estimate := by linarith
    exact_mod_cast hLess
  · intro hBelow
    have hWithin : (1 - α) * (estimate : K) ≤ (1 - α) * greatest :=
      mul_le_mul_of_nonneg_left (Nat.cast_le.mpr hBelow) (sub_nonneg.mpr hHigh)
    have hLe : (step estimate sample : K) ≤ greatest := by linarith
    exact_mod_cast hLe

/-- From far below the samples a step ascends, and it does not fall further behind than
rounding makes it. -/
theorem ascend {least estimate sample : Nat} (hStep : RoundsDown α step estimate sample) (hLeast : least ≤ sample) :
    ((estimate : K) + 1 / α ≤ least → estimate < step estimate sample) ∧
      ((least : K) < estimate + 1 / α → (least : K) < step estimate sample + 1 / α) := by
  have hUnit : α * (1 / α) = 1 := mul_one_div_cancel hLow.ne'
  have hSample : α * (least : K) ≤ α * sample := mul_le_mul_of_nonneg_left (Nat.cast_le.mpr hLeast) hLow.le
  have hBlend : α * least + (1 - α) * (estimate : K) < step estimate sample + 1 := by
    calc α * least + (1 - α) * (estimate : K) ≤ blend α (estimate : K) sample := by rw [blend]; linarith
      _ < step estimate sample + 1 := hStep.lt
  constructor
  · intro hFar
    have hGap : α * ((estimate : K) + 1 / α) ≤ α * least := mul_le_mul_of_nonneg_left hFar hLow.le
    have hMore : (estimate : K) < step estimate sample := by linarith
    exact_mod_cast hMore
  · intro hNear
    have hWithin : (1 - α) * ((least : K) - 1 / α) ≤ (1 - α) * estimate :=
      mul_le_mul_of_nonneg_left (by linarith) (sub_nonneg.mpr hHigh)
    linarith

/-- Enough samples in a range bring the estimate there: not above it, and below it by
what rounding costs at most. -/
theorem settle {Good : Nat → Prop} {samples : List Nat} {least greatest : Nat}
    (hStep : ∀ estimate, Good estimate → ∀ sample ∈ samples,
      RoundsDown α step estimate sample ∧ Good (step estimate sample))
    (hRange : ∀ sample ∈ samples, least ≤ sample ∧ sample ≤ greatest) {first : Nat} (hGood : Good first)
    (hDown : first ≤ greatest + samples.length)
    (hUp : least ≤ first + samples.length ∨ (least : K) < first + 1 / α) :
    samples.foldl step first ≤ greatest ∧ (least : K) < (samples.foldl step first : Nat) + 1 / α := by
  induction samples generalizing first with
  | nil =>
      refine ⟨hDown, hUp.elim (fun hReached => ?_) id⟩
      have hLeast : (least : K) ≤ first := Nat.cast_le.mpr hReached
      exact hLeast.trans_lt (lt_add_of_pos_right _ (one_div_pos.mpr hLow))
  | cons sample later ih =>
      obtain ⟨hRounds, hNext⟩ := hStep first hGood sample (List.mem_cons_self ..)
      obtain ⟨hLeast, hGreatest⟩ := hRange sample (List.mem_cons_self ..)
      obtain ⟨hDescends, hStays⟩ := descend hLow hHigh hRounds hGreatest
      obtain ⟨hAscends, hKeeps⟩ := ascend hLow hHigh hRounds hLeast
      rw [List.length_cons] at hDown hUp
      refine ih (fun estimate hGood sample' hMem => hStep estimate hGood sample' (List.mem_cons_of_mem _ hMem))
        (fun sample' hMem => hRange sample' (List.mem_cons_of_mem _ hMem)) hNext ?_ ?_
      · by_cases hAbove : greatest < first
        · have := hDescends hAbove
          omega
        · have := hStays (by omega)
          omega
      · by_cases hNear : (least : K) < first + 1 / α
        · exact .inr (hKeeps hNear)
        · have := hAscends (not_lt.mp hNear)
          have := hUp.resolve_right hNear
          exact .inl (by omega)

end Rounded

end Semantics
