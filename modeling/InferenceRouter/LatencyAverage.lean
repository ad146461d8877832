import InferenceRouter.LatencyEstimate
import InferenceRouter.Semantics.ExponentialAverage

/-! What the latency estimate of a backend means. Concurrent updates can lose samples,
and of those that are left it is the exponential average, but for rounding. -/
namespace InferenceRouter

open Semantics

section Rounding

variable {alpha : ℚ} (hLow : 0 < alpha) (hHigh : alpha ≤ 1)

include hLow hHigh

/-- From the first sample on each update is a step of the average, rounded down. -/
theorem roundsDown_smoothedLatency {old latencyUs : Nat} (hOld : old ≠ 0) (hSample : latencyUs ≠ 0) :
    RoundsDown alpha (Backend.smoothedLatency · · alpha) old latencyUs ∧
      Backend.smoothedLatency old latencyUs alpha ≠ 0 := by
  have hRest : 0 ≤ 1 - alpha := sub_nonneg.mpr hHigh
  have hNonneg : 0 ≤ alpha * (latencyUs : ℚ) + (1 - alpha) * old := by positivity
  have hStep : Backend.smoothedLatency old latencyUs alpha = ⌊blend alpha (old : ℚ) latencyUs⌋₊ := by
    rw [Backend.smoothedLatency, if_neg hOld, blend]
  refine ⟨⟨?_, ?_⟩, ?_⟩
  · rw [hStep]
    exact Nat.floor_le hNonneg
  · rw [hStep]
    exact Nat.lt_floor_add_one _
  · have hLeast := (smoothedLatency_between hLow hHigh hOld latencyUs).1
    omega

/-- The estimate after some updates, and the average of the same samples. -/
theorem smoothedLatency_lag {first : Nat} (hFirst : first ≠ 0) {later : List Nat} (hLater : ∀ s ∈ later, s ≠ 0) :
    let estimate := later.foldl (Backend.smoothedLatency · · alpha) first
    let ideal : ℚ := (1 - alpha) ^ later.length * first + weighted alpha (later.map Nat.cast)
    (estimate : ℚ) ≤ ideal ∧ ideal < estimate + 1 / alpha := by
  intro estimate ideal
  have hAverage : ideal = average alpha (first : ℚ) (later.map Nat.cast) := by
    rw [average_eq, List.length_map]
  have hStep (old : Nat) (hOld : old ≠ 0) (sample : Nat) (hMem : sample ∈ later) :=
    roundsDown_smoothedLatency hLow hHigh hOld (hLater sample hMem)
  rw [hAverage]
  exact lag_bound hLow hHigh hStep hFirst

end Rounding

/-- What updates that do not overlap make of the estimate. -/
theorem Backend.foldl_updateEwmaLatency (self : Backend) (samples : List Nat) (alpha : ℚ) :
    (samples.foldl (fun b sample => b.updateEwmaLatency sample alpha) self).ewmaLatencyUs =
      samples.foldl (smoothedLatency · · alpha) self.ewmaLatencyUs := by
  induction samples generalizing self with
  | nil => rfl
  | cons sample later ih => exact ih (self.updateEwmaLatency sample alpha)

theorem updating_serial (alpha : ℚ) (schedule : List (Turn LatencySample)) :
    Threads.Serial (fun sample old => Backend.smoothedLatency old sample.us alpha) 0 (calls schedule)
      (updating alpha schedule) :=
  Threads.run_serial (fun sample => Backend.updateEwmaLatencyProgram_eq sample.us alpha) schedule

/-- Races lose samples and do no other harm. Whatever the schedule, some of the updates
that are over, each counted once, account for the estimate as if they had run one after
the other, and there is one as soon as any update is over. Of their samples the estimate
is the exponential average, less than `1 / alpha` rounded off. -/
theorem ewma_of_survivors {alpha : ℚ} (hLow : 0 < alpha) (hHigh : alpha ≤ 1) (schedule : List (Turn LatencySample)) :
    ∃ who : List Nat, who.Nodup ∧ (∀ i ∈ who, (updating alpha schedule).programs[i]? = some (.done .unit)) ∧
      (who = [] ↔ (updating alpha schedule).results = []) ∧
      let samples := (Threads.callsOf (calls schedule) who).map LatencySample.us
      (updating alpha schedule).world = samples.foldl (Backend.smoothedLatency · · alpha) 0 ∧
      ∀ first later, samples = first :: later →
        let ideal : ℚ := (1 - alpha) ^ later.length * first + weighted alpha (later.map Nat.cast)
        ((updating alpha schedule).world : ℚ) ≤ ideal ∧ ideal < (updating alpha schedule).world + 1 / alpha := by
  obtain ⟨who, hNodup, hOver, hValue⟩ := (updating_serial alpha schedule).cell
  have hWorld : (updating alpha schedule).world =
      ((Threads.callsOf (calls schedule) who).map LatencySample.us).foldl (Backend.smoothedLatency · · alpha) 0 := by
    rw [hValue, List.foldl_map]
    rfl
  refine ⟨who, hNodup, hOver, ⟨fun hNone => ?_, fun hNone => ?_⟩, hWorld, fun first later hSamples => ?_⟩
  · subst hNone
    rcases updating_spec hLow hHigh schedule with ⟨hResults, -⟩ | ⟨-, hInside⟩
    · exact hResults
    · exact absurd hWorld hInside.pos.ne'
  · rw [List.eq_nil_iff_forall_not_mem]
    intro i hMem
    have hResult : PUnit.unit ∈ (updating alpha schedule).results :=
      List.mem_filterMap.mpr ⟨_, List.mem_of_getElem? (hOver i hMem), rfl⟩
    rw [hNone] at hResult
    exact List.not_mem_nil hResult
  · have hPositive : ∀ s ∈ first :: later, s ≠ 0 := by
      intro s hMem
      rw [← hSamples] at hMem
      obtain ⟨sample, -, rfl⟩ := List.mem_map.mp hMem
      exact Nat.one_le_iff_ne_zero.mp sample.positive
    have hFirst : Backend.smoothedLatency 0 first alpha = first := if_pos rfl
    rw [hWorld, hSamples, List.foldl_cons, hFirst]
    exact smoothedLatency_lag hLow hHigh (hPositive first (List.mem_cons_self ..))
      fun s hMem => hPositive s (List.mem_cons_of_mem _ hMem)

/-- Two updates that both load 0, and a third that loads what the second stored: the
first is lost. -/
theorem ewma_of_survivors_lost :
    let schedule : List (Turn LatencySample) := [.start ⟨100, by decide⟩, .start ⟨200, by decide⟩, .resume 0,
      .resume 1, .resume 0, .resume 1, .start ⟨301, by decide⟩, .resume 2, .resume 2]
    (updating (3 / 10) schedule).world = 230 ∧
      ∃ who : List Nat, who ≠ [] ∧ ∀ first later, (Threads.callsOf (calls schedule) who).map LatencySample.us = first :: later →
        (7 / 10 : ℚ) ^ later.length * first + weighted (3 / 10) (later.map Nat.cast) < 230 + 10 / 3 := by
  intro schedule
  have hWorld : (updating (3 / 10) schedule).world = 230 := by decide +kernel
  have hResults : (updating (3 / 10) schedule).results ≠ [] := by decide +kernel
  obtain ⟨who, -, -, hSome, -, hBound⟩ :=
    ewma_of_survivors (by norm_num : (0 : ℚ) < 3 / 10) (by norm_num) schedule
  refine ⟨hWorld, who, fun hNone => hResults (hSome.mp hNone), fun first later hSamples => ?_⟩
  have hLt := (hBound first later hSamples).2
  rw [hWorld] at hLt
  norm_num at hLt ⊢
  exact hLt

/-- The estimate follows the backend. Once its latencies stay in a range, after as many
samples as the estimate was microseconds away it is not above the range, and less than
`1 / alpha` below it. -/
theorem Backend.ewma_settles {alpha : ℚ} (hLow : 0 < alpha) (hHigh : alpha ≤ 1) (self : Backend) {samples : List Nat}
    {least greatest : Nat} (hLeast : 1 ≤ least) (hRange : ∀ s ∈ samples, least ≤ s ∧ s ≤ greatest)
    (hDown : self.ewmaLatencyUs ≤ greatest + samples.length) (hUp : least ≤ self.ewmaLatencyUs + samples.length) :
    let settled := (samples.foldl (fun b s => b.updateEwmaLatency s alpha) self).ewmaLatencyUs
    settled ≤ greatest ∧ (least : ℚ) < settled + 1 / alpha := by
  intro settled
  have hSettled : settled = samples.foldl (smoothedLatency · · alpha) self.ewmaLatencyUs :=
    self.foldl_updateEwmaLatency samples alpha
  have hStep {later : List Nat} (hLater : ∀ s ∈ later, least ≤ s ∧ s ≤ greatest) (old : Nat) (hOld : old ≠ 0)
      (s : Nat) (hMem : s ∈ later) :
      RoundsDown alpha (smoothedLatency · · alpha) old s ∧ smoothedLatency old s alpha ≠ 0 :=
    roundsDown_smoothedLatency hLow hHigh hOld (Nat.one_le_iff_ne_zero.mp (hLeast.trans (hLater s hMem).1))
  rw [hSettled]
  by_cases hOld : self.ewmaLatencyUs = 0
  · cases samples with
    | nil =>
        rw [hOld] at hUp
        exact absurd hUp (Nat.not_le.mpr hLeast)
    | cons first later =>
        have hFirst : smoothedLatency 0 first alpha = first := if_pos rfl
        obtain ⟨hAbove, hBelow⟩ := hRange first (List.mem_cons_self ..)
        have hLater : ∀ s ∈ later, least ≤ s ∧ s ≤ greatest := fun s hMem => hRange s (List.mem_cons_of_mem _ hMem)
        rw [hOld, List.foldl_cons, hFirst]
        exact settle hLow hHigh (hStep hLater) hLater (Nat.one_le_iff_ne_zero.mp (hLeast.trans hAbove)) (by omega)
          (.inl (by omega))
  · exact settle hLow hHigh (hStep hRange) hRange hOld hDown (.inl hUp)

/-- From an estimate of 8 the latencies rise to 10, and it stays at 8, from where a step
of 3/10 towards 10 is rounded off. -/
theorem Backend.ewma_settles_stalled :
    let backend : Backend := { Backend.new 0 "http://b" 1 (.new (1 / 2) 10 10 5 0) with ewmaLatencyUs := 8 }
    let settled := ([10, 10].foldl (fun b s => b.updateEwmaLatency s (3 / 10)) backend).ewmaLatencyUs
    settled = 8 ∧ (10 : ℚ) < settled + 1 / (3 / 10) := by
  intro backend settled
  have hSettled : settled = 8 := by decide +kernel
  have hRange : ∀ s ∈ [10, 10], 10 ≤ s ∧ s ≤ 10 := by decide
  have hBound := backend.ewma_settles (by norm_num : (0 : ℚ) < 3 / 10) (by norm_num) (by decide) hRange (by decide)
    (by decide)
  exact ⟨hSettled, hBound.2⟩

end InferenceRouter
