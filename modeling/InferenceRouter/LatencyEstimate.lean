import InferenceRouter.Config
import InferenceRouter.Semantics.LostUpdates

/-! The latency estimate of a backend under concurrent updates. An update loads
the estimate and stores the next one later, so updates get lost and old
estimates come back; the samples bound them all. -/
namespace InferenceRouter

open Semantics

/-- `update_ewma_latency` as its atomic operations on the estimate. -/
def Backend.updateEwmaLatencyProgram (latencyUs : Nat) (alpha : ℚ) :
    Program (CellOp Nat) CellOp.Answer PUnit := do
  let old : Nat ← Program.call CellOp.load
  Program.call (CellOp.store (smoothedLatency old latencyUs alpha))

/-- Without other updates, the operations amount to `updateEwmaLatency`. -/
theorem Backend.alone_updateEwmaLatencyProgram (self : Backend) (latencyUs : Nat) (alpha : ℚ) :
    (Program.alone CellOp.perform (updateEwmaLatencyProgram latencyUs alpha) self.ewmaLatencyUs).2.2 =
      (self.updateEwmaLatency latencyUs alpha).ewmaLatencyUs := rfl

theorem Backend.updateEwmaLatencyProgram_eq (latencyUs : Nat) (alpha : ℚ) :
    updateEwmaLatencyProgram latencyUs alpha = update fun old => smoothedLatency old latencyUs alpha := rfl

/-- A time to first byte that was measured. -/
structure LatencySample where
  us : Nat
  positive : 1 ≤ us

/-- Between the smallest and the largest sample. -/
def InEnvelope (samples : List LatencySample) (value : Nat) : Prop :=
  ∃ least greatest, (samples.map LatencySample.us).min? = some least ∧
    (samples.map LatencySample.us).max? = some greatest ∧ least ≤ value ∧ value ≤ greatest

theorem inEnvelope_iff {samples : List LatencySample} {value : Nat} :
    InEnvelope samples value ↔ (∃ s ∈ samples, s.us ≤ value) ∧ ∃ s ∈ samples, value ≤ s.us := by
  constructor
  · rintro ⟨least, greatest, hLeast, hGreatest, hLow, hHigh⟩
    obtain ⟨s, hs, rfl⟩ := List.mem_map.mp (List.min?_mem hLeast)
    obtain ⟨t, ht, rfl⟩ := List.mem_map.mp (List.max?_mem hGreatest)
    exact ⟨⟨s, hs, hLow⟩, t, ht, hHigh⟩
  · rintro ⟨⟨s, hs, hLow⟩, t, ht, hHigh⟩
    obtain ⟨least, hLeast⟩ := Option.isSome_iff_exists.mp
      (List.isSome_min?_of_mem (List.mem_map_of_mem hs : s.us ∈ samples.map LatencySample.us))
    obtain ⟨greatest, hGreatest⟩ := Option.isSome_iff_exists.mp
      (List.isSome_max?_of_mem (List.mem_map_of_mem ht : t.us ∈ samples.map LatencySample.us))
    exact ⟨least, greatest, hLeast, hGreatest,
      ((List.min?_eq_some_iff.mp hLeast).2 _ (List.mem_map_of_mem hs)).trans hLow,
      hHigh.trans ((List.max?_eq_some_iff.mp hGreatest).2 _ (List.mem_map_of_mem ht))⟩

theorem InEnvelope.append {samples : List LatencySample} {value : Nat} (h : InEnvelope samples value)
    (later : List LatencySample) : InEnvelope (samples ++ later) value := by
  obtain ⟨⟨s, hs, hLow⟩, t, ht, hHigh⟩ := inEnvelope_iff.mp h
  exact inEnvelope_iff.mpr ⟨⟨s, List.mem_append_left _ hs, hLow⟩, t, List.mem_append_left _ ht, hHigh⟩

theorem InEnvelope.pos {samples : List LatencySample} {value : Nat} (h : InEnvelope samples value) : 0 < value := by
  obtain ⟨⟨s, _, hLow⟩, _⟩ := inEnvelope_iff.mp h
  exact s.positive.trans hLow

section Smoothing

variable {alpha : ℚ} (hLow : 0 < alpha) (hHigh : alpha ≤ 1)

include hLow hHigh

/-- The blend, truncated, is between the two values. -/
theorem smoothedLatency_between {old : Nat} (hOld : old ≠ 0) (latencyUs : Nat) :
    min old latencyUs ≤ Backend.smoothedLatency old latencyUs alpha ∧
      Backend.smoothedLatency old latencyUs alpha ≤ max old latencyUs := by
  have hRest : 0 ≤ 1 - alpha := sub_nonneg.mpr hHigh
  rw [Backend.smoothedLatency, if_neg hOld]
  constructor
  · apply Nat.le_floor
    have hLeft : ((min old latencyUs : Nat) : ℚ) ≤ latencyUs := by exact_mod_cast min_le_right ..
    have hRight : ((min old latencyUs : Nat) : ℚ) ≤ old := by exact_mod_cast min_le_left ..
    calc ((min old latencyUs : Nat) : ℚ)
        = alpha * (min old latencyUs : Nat) + (1 - alpha) * (min old latencyUs : Nat) := by ring
      _ ≤ alpha * latencyUs + (1 - alpha) * old := by gcongr
  · apply Nat.floor_le_of_le
    have hLeft : (latencyUs : ℚ) ≤ (max old latencyUs : Nat) := by exact_mod_cast le_max_right ..
    have hRight : (old : ℚ) ≤ (max old latencyUs : Nat) := by exact_mod_cast le_max_left ..
    calc alpha * latencyUs + (1 - alpha) * old
        ≤ alpha * (max old latencyUs : Nat) + (1 - alpha) * (max old latencyUs : Nat) := by gcongr
      _ = (max old latencyUs : Nat) := by ring

/-- Whatever an update has loaded, what it stores is in the envelope. -/
theorem inEnvelope_smoothedLatency {samples : List LatencySample} {s : LatencySample} (hs : s ∈ samples) {old : Nat}
    (h : old = 0 ∨ InEnvelope samples old) :
    InEnvelope samples (Backend.smoothedLatency old s.us alpha) := by
  rw [inEnvelope_iff]
  by_cases hZero : old = 0
  · rw [Backend.smoothedLatency, if_pos hZero]
    exact ⟨⟨s, hs, le_rfl⟩, s, hs, le_rfl⟩
  · obtain ⟨⟨least, hLeast, hBelow⟩, greatest, hGreatest, hAbove⟩ :=
      inEnvelope_iff.mp (h.resolve_left hZero)
    obtain ⟨hMin, hMax⟩ := smoothedLatency_between hLow hHigh hZero s.us
    constructor
    · rcases min_le_iff.mp hMin with hOld | hNew
      · exact ⟨least, hLeast, hBelow.trans hOld⟩
      · exact ⟨s, hs, hNew⟩
    · rcases le_max_iff.mp hMax with hOld | hNew
      · exact ⟨greatest, hGreatest, hOld.trans hAbove⟩
      · exact ⟨s, hs, hNew⟩

end Smoothing

/-- The estimate of a new backend and its concurrent updates. -/
def updating (alpha : ℚ) (schedule : List (Turn LatencySample)) : Threads Nat (CellOp Nat) CellOp.Answer PUnit :=
  Threads.run (fun sample => Backend.updateEwmaLatencyProgram sample.us alpha) CellOp.perform 0 schedule

theorem updating_spec {alpha : ℚ} (hLow : 0 < alpha) (hHigh : alpha ≤ 1) (schedule : List (Turn LatencySample)) :
    (updating alpha schedule).results = [] ∧ (updating alpha schedule).world = 0 ∨
      (updating alpha schedule).results ≠ [] ∧
        InEnvelope (calls schedule) (updating alpha schedule).world :=
  (Threads.run_updates (f := fun sample old => Backend.smoothedLatency old sample.us alpha)
    (fun sample => Backend.updateEwmaLatencyProgram_eq sample.us alpha) (fun _ call _ h => h.append [call])
    (fun _ _ hs _ h => inEnvelope_smoothedLatency hLow hHigh hs h) schedule).cell

/-- At any moment the estimate is 0, as long as nothing was stored, or between the
samples of the updates started so far, and after that it is not 0 again. -/
theorem ewma_in_envelope {alpha : ℚ} (hLow : 0 < alpha) (hHigh : alpha ≤ 1)
    (schedule : List (Turn LatencySample)) :
    ((updating alpha schedule).world = 0 ↔ (updating alpha schedule).results = []) ∧
    ((updating alpha schedule).world = 0 ∨ InEnvelope (calls schedule) (updating alpha schedule).world) ∧
    ∀ later, (updating alpha schedule).world ≠ 0 → (updating alpha (schedule ++ later)).world ≠ 0 := by
  have hIff (schedule : List (Turn LatencySample)) :
      (updating alpha schedule).world = 0 ↔ (updating alpha schedule).results = [] := by
    rcases updating_spec hLow hHigh schedule with ⟨hNone, hZero⟩ | ⟨hSome, hInside⟩
    · exact iff_of_true hZero hNone
    · exact iff_of_false hInside.pos.ne' hSome
  refine ⟨hIff schedule, (updating_spec hLow hHigh schedule).imp And.right And.right, fun later hStored => ?_⟩
  rw [Ne, hIff] at hStored ⊢
  intro hNone
  have hKept : (updating alpha schedule).results.Sublist (updating alpha (schedule ++ later)).results :=
    Threads.results_sublist_run_append 0 schedule later
  rw [hNone] at hKept
  exact hStored (List.sublist_nil.mp hKept)

/-- Two updates that both load 0, and the first store is lost. -/
theorem ewma_in_envelope_lost :
    let schedule : List (Turn LatencySample) := [.start ⟨100, by decide⟩, .start ⟨200, by decide⟩, .resume 0,
      .resume 1, .resume 0, .resume 1]
    (updating (3 / 10) schedule).world = 200 ∧ InEnvelope (calls schedule) 200 := by
  intro schedule
  have hWorld : (updating (3 / 10) schedule).world = 200 := by decide +kernel
  have hInside := (ewma_in_envelope (by norm_num : (0 : ℚ) < 3 / 10) (by norm_num) schedule).2.1
  rw [hWorld] at hInside
  exact ⟨hWorld, hInside.resolve_left (by decide)⟩

namespace RouterConfig

/-- The factor of a configuration that was accepted is one for which this holds. -/
theorem Accepted.alpha_mem {headerValue : String → Bool} {config : RouterConfig}
    (h : config.Accepted headerValue) :
    0 < config.routing.latencyAware.alpha.toRat ∧ config.routing.latencyAware.alpha.toRat ≤ 1 := by
  have hInside := h.alpha
  cases hAlpha : config.routing.latencyAware.alpha with
  | finite q =>
      rw [hAlpha] at hInside
      simp only [outsideUnit, F64.isFinite, F64.le, F64.lt, Bool.not_true, Bool.false_or,
        Bool.or_eq_false_iff, decide_eq_false_iff_not, not_le, Bool.and_eq_false_iff,
        Bool.not_eq_false', decide_eq_true_eq] at hInside
      exact ⟨hInside.1, hInside.2.elim le_of_lt id⟩
  | _ =>
      rw [hAlpha] at hInside
      cases hInside

end RouterConfig

end InferenceRouter
