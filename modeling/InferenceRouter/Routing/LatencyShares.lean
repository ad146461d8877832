import InferenceRouter.Routing.LatencyAware
import InferenceRouter.Semantics.WeightedChoice
import Mathlib.Data.Nat.Cast.Order.Field

/-! The shares that the latency-aware strategy realises, with the arithmetic read
as exact: the reals, or any other ordered field. The draw falls on a part of
the unit interval whose length is the backend's share. -/
namespace InferenceRouter

open Semantics

namespace LatencyAware

/-- The upper median of the positive estimates, 1 if there are none. -/
def upperMedian (raw : List Nat) : Nat :=
  let positive := (raw.filter (0 < ·)).mergeSort
  positive.getD (positive.length / 2) 1

/-- The latency that counts for each backend. -/
def estimates (raw : List Nat) : List Nat :=
  raw.map fun l => if 0 < l then l else upperMedian raw

/-- The weight that each backend is given. -/
def shares (K : Type) [Field K] (routable : List Backend) : List K :=
  (routable.zip (estimates (routable.map Backend.ewmaLatencyUs))).map fun (b, l) => (max b.weight 1 : Nat) / (l : K)

theorem upperMedian_pos (raw : List Nat) : 0 < upperMedian raw := by
  simp only [upperMedian, List.getD_eq_getElem?_getD]
  cases hMedian : (raw.filter (0 < ·)).mergeSort[(raw.filter (0 < ·)).mergeSort.length / 2]? with
  | none => exact Nat.one_pos
  | some l =>
      have hMem := List.mem_mergeSort.mp (List.mem_of_getElem? hMedian)
      exact of_decide_eq_true (List.mem_filter.mp hMem).2

theorem estimates_pos {raw : List Nat} {l : Nat} (h : l ∈ estimates raw) : 0 < l := by
  obtain ⟨own, _, rfl⟩ := List.mem_map.mp h
  split
  · assumption
  · exact upperMedian_pos raw

section Exact

variable {K : Type} [Field K] [LinearOrder K]

/-- The walk along the weights stops where the scan does. -/
theorem pickByWeight_eq_scan {routable : List Backend} {weights : List K}
    (h : weights.length = routable.length) (pick : K) :
    pickByWeight pick (routable.zip weights) = (scan pick weights).bind fun i => routable[i]?.map Backend.id := by
  induction weights generalizing routable pick with
  | nil => simp [pickByWeight, scan]
  | cons weight rest ih =>
      cases routable with
      | nil => cases h
      | cons b routable =>
          have hLength : rest.length = routable.length := Nat.succ.inj h
          rw [List.zip_cons_cons, scan]
          by_cases hUsed : pick - weight ≤ 0
          · rw [if_pos hUsed]
            exact if_pos (decide_eq_true hUsed)
          · have hWalk : pickByWeight pick ((b, weight) :: routable.zip rest) =
                pickByWeight (pick - weight) (routable.zip rest) :=
              if_neg fun hTrue => hUsed (of_decide_eq_true hTrue)
            rw [if_neg hUsed, hWalk, ih hLength, Option.bind_map]
            rfl

theorem le_foldl_maximum (init : K) {l : List K} {a : K} (h : a ∈ l) : a ≤ l.foldl FloatArith.maximum init :=
  (List.max?_eq_some_iff.mp (List.max?_cons' : (init :: l).max? = some (l.foldl max init))).2 a
    (List.mem_cons_of_mem init h)

theorem foldl_minimum_le (init : K) {l : List K} {a : K} (h : a ∈ l) : l.foldl FloatArith.minimum init ≤ a :=
  (List.min?_eq_some_iff.mp (List.min?_cons' : (init :: l).min? = some (l.foldl min init))).2 a
    (List.mem_cons_of_mem init h)

variable [IsStrictOrderedRing K]

theorem median_eq (raw : List Nat) : median (F := K) raw = (upperMedian raw : K) := by
  have hSorted : ((raw.filter (0 < ·)).map (FloatArith.ofNat (F := K))).mergeSort FloatArith.totalLe =
      ((raw.filter (0 < ·)).mergeSort).map Nat.cast := by
    refine (List.map_mergeSort fun a _ b _ => ?_).symm
    exact decide_eq_decide.mpr Nat.cast_le.symm
  simp only [median, upperMedian, hSorted, List.length_map, List.getD_eq_getElem?_getD, List.getElem?_map]
  cases (raw.filter (0 < ·)).mergeSort[(raw.filter (0 < ·)).mergeSort.length / 2]? with
  | none => exact Nat.cast_one.symm
  | some l => rfl

/-- The computed latencies are the estimates. -/
theorem latencies_eq (raw : List Nat) : latencies (F := K) raw = (estimates raw).map Nat.cast := by
  rw [latencies, estimates, List.map_map]
  refine List.map_congr_left fun l _ => ?_
  rw [median_eq, Function.comp_apply, Nat.cast_ite]
  rfl

theorem weights_eq (routable : List Backend) :
    weights routable (latencies (F := K) (routable.map Backend.ewmaLatencyUs)) = shares K routable := by
  rw [latencies_eq, weights, shares, List.zip_map_right, List.map_map]
  rfl

theorem length_shares (routable : List Backend) : (shares K routable).length = routable.length := by
  simp [shares, estimates]

theorem shares_pos {routable : List Backend} {weight : K} (h : weight ∈ shares K routable) : 0 < weight := by
  obtain ⟨⟨b, l⟩, hMem, rfl⟩ := List.mem_map.mp h
  have hLatency : 0 < l := estimates_pos (List.of_mem_zip hMem).2
  have hWeight : 0 < max b.weight 1 := b.slots_pos
  exact div_pos (Nat.cast_pos.mpr hWeight) (Nat.cast_pos.mpr hLatency)

/-- A spread that counts is seen. -/
theorem not_isFlat {raw : List Nat} {least greatest : Nat} (hLeast : (estimates raw).min? = some least)
    (hGreatest : (estimates raw).max? = some greatest) (hSpread : 11 / 10 * (least : K) < greatest) :
    isFlat (latencies (F := K) raw) = false := by
  rw [latencies_eq]
  have hLow := foldl_minimum_le (FloatArith.greatest : K)
    (List.mem_map_of_mem (List.min?_mem hLeast) : (least : K) ∈ (estimates raw).map Nat.cast)
  have hHigh := le_foldl_maximum (FloatArith.least : K)
    (List.mem_map_of_mem (List.max?_mem hGreatest) : (greatest : K) ∈ (estimates raw).map Nat.cast)
  refine decide_eq_false (not_le.mpr ?_)
  calc ((estimates raw).map Nat.cast).foldl FloatArith.minimum FloatArith.greatest * (11 / 10 : K)
      ≤ least * (11 / 10 : K) := by gcongr
    _ = 11 / 10 * (least : K) := mul_comm ..
    _ < greatest := hSpread
    _ ≤ ((estimates raw).map Nat.cast).foldl FloatArith.maximum FloatArith.least := hHigh

/-- Away from flat latencies, the draw decides. -/
theorem select_eq_pick (self : LatencyAware) (draw : K) {routable : List Backend} (hNonempty : routable ≠ [])
    (hSpread : isFlat (latencies (F := K) (routable.map Backend.ewmaLatencyUs)) = false) :
    self.select draw routable =
      ((pickByWeight (draw * (shares K routable).sum) (routable.zip (shares K routable))).or
        (routable.getLast?.map Backend.id), self) := by
  have hSum : (shares K routable).foldl FloatArith.add FloatArith.zero = (shares K routable).sum :=
    List.sum_eq_foldl.symm
  simp only [select, List.isEmpty_iff, hNonempty, hSpread, if_false, weights_eq, hSum]
  rfl

/-- The draw falls on the part of the backend at `i`. -/
def FallsOn (shares : List K) (draw : K) (i : Nat) : Prop :=
  i < shares.length ∧ (partialSum shares i < draw * shares.sum ∨ i = 0 ∧ draw = 0) ∧
    draw * shares.sum ≤ partialSum shares (i + 1)

theorem shares_nonneg (routable : List Backend) : ∀ weight ∈ shares K routable, 0 ≤ weight :=
  fun _ h => (shares_pos h).le

theorem shares_ne_nil {routable : List Backend} (h : routable ≠ []) : shares K routable ≠ [] := by
  rwa [← List.length_pos_iff, length_shares, List.length_pos_iff]

theorem sum_shares_pos {routable : List Backend} (h : routable ≠ []) : 0 < (shares K routable).sum :=
  List.sum_pos _ (fun _ => shares_pos) (shares_ne_nil h)

theorem scan_eq_some_iff_fallsOn {routable : List Backend} (hNonempty : routable ≠ []) {draw : K}
    (hDraw : 0 ≤ draw) {i : Nat} :
    scan (draw * (shares K routable).sum) (shares K routable) = some i ↔
      FallsOn (shares K routable) draw i := by
  have hSum := sum_shares_pos (K := K) hNonempty
  rw [scan_eq_some_iff (shares_nonneg routable), FallsOn]
  refine and_congr_right fun _ => and_congr_left fun _ => ?_
  cases i with
  | zero =>
      simp only [partialSum_zero, true_or, true_and, true_iff]
      exact hDraw.lt_or_eq.imp (fun hPos => mul_pos hPos hSum) Eq.symm
  | succ i => simp

/-- Every draw falls on exactly one part, and its backend is selected. The last
backend is not a fallback. -/
theorem select_of_draw (self : LatencyAware) {routable : List Backend} (hNonempty : routable ≠ [])
    (hSpread : isFlat (latencies (F := K) (routable.map Backend.ewmaLatencyUs)) = false) {draw : K}
    (hLow : 0 ≤ draw) (hHigh : draw < 1) :
    ∃ i b, routable[i]? = some b ∧ (∀ j, FallsOn (shares K routable) draw j ↔ j = i) ∧
      pickByWeight (draw * (shares K routable).sum) (routable.zip (shares K routable)) = some b.id ∧
      self.select draw routable = (some b.id, self) := by
  have hInside : draw * (shares K routable).sum ≤ (shares K routable).sum :=
    mul_le_of_le_one_left (sum_shares_pos hNonempty).le hHigh.le
  obtain ⟨i, hScan⟩ := Option.isSome_iff_exists.mp
    ((scan_isSome_iff (shares_nonneg routable) (shares_ne_nil hNonempty)).mpr hInside)
  have hFalls := (scan_eq_some_iff_fallsOn hNonempty hLow).mp hScan
  have hLt : i < routable.length := length_shares (K := K) routable ▸ hFalls.1
  have hPick : pickByWeight (draw * (shares K routable).sum) (routable.zip (shares K routable)) =
      some routable[i].id := by
    rw [pickByWeight_eq_scan (length_shares routable), hScan, Option.bind_some, List.getElem?_eq_getElem hLt]
    rfl
  refine ⟨i, routable[i], List.getElem?_eq_getElem hLt, fun j => ?_, hPick, ?_⟩
  · rw [← scan_eq_some_iff_fallsOn hNonempty hLow, hScan, Option.some_inj, eq_comm]
  · rw [select_eq_pick self draw hNonempty hSpread, hPick]
    rfl

/-- As a part of the unit interval. -/
theorem fallsOn_iff {routable : List Backend} (hNonempty : routable ≠ []) {draw : K} {i : Nat}
    (hIndex : i < (shares K routable).length) :
    FallsOn (shares K routable) draw i ↔
      (partialSum (shares K routable) i / (shares K routable).sum < draw ∨ i = 0 ∧ draw = 0) ∧
        draw ≤ partialSum (shares K routable) (i + 1) / (shares K routable).sum := by
  have hSum := sum_shares_pos (K := K) hNonempty
  rw [FallsOn, div_lt_iff₀ hSum, le_div_iff₀ hSum]
  exact and_iff_right hIndex

theorem latencies_ne_zero (raw : List Nat) : ∀ l ∈ latencies (F := K) raw, l ≠ 0 := by
  rw [latencies_eq]
  intro l hMem
  obtain ⟨n, hn, rfl⟩ := List.mem_map.mp hMem
  exact (Nat.cast_pos.mpr (estimates_pos hn)).ne'

/-- Latency-aware selection realises the intended shares: with a spread of more than
a tenth, nothing is divided by zero, each draw selects the backend on whose part
it falls, and the part of a backend is as long as its share. -/
theorem select_realises_shares (self : LatencyAware) {routable : List Backend} (hNonempty : routable ≠ [])
    {least greatest : Nat}
    (hLeast : (estimates (routable.map Backend.ewmaLatencyUs)).min? = some least)
    (hGreatest : (estimates (routable.map Backend.ewmaLatencyUs)).max? = some greatest)
    (hSpread : 11 / 10 * (least : K) < greatest) :
    let latencies : List K := latencies (routable.map Backend.ewmaLatencyUs)
    let w : List K := shares K routable
    (∀ l ∈ latencies, l ≠ 0) ∧ weights routable latencies = w ∧ w.length = routable.length ∧
    (∀ draw : K, 0 ≤ draw → draw < 1 → ∃ i b, routable[i]? = some b ∧ (∀ j, FallsOn w draw j ↔ j = i) ∧
      pickByWeight (draw * w.sum) (routable.zip w) = some b.id ∧
      self.select draw routable = (some b.id, self)) ∧
    (∀ i, ∀ h : i < w.length,
      (∀ draw, FallsOn w draw i ↔
        (partialSum w i / w.sum < draw ∨ i = 0 ∧ draw = 0) ∧ draw ≤ partialSum w (i + 1) / w.sum) ∧
      partialSum w (i + 1) / w.sum - partialSum w i / w.sum = w[i] / w.sum) ∧
    ((ids routable).Nodup → ∀ draw : K, 0 ≤ draw → draw < 1 → ∀ i b, routable[i]? = some b →
      ((self.select draw routable).1 = some b.id ↔ FallsOn w draw i)) := by
  intro latencies w
  have hSeen := not_isFlat hLeast hGreatest hSpread
  refine ⟨latencies_ne_zero _, weights_eq routable, length_shares routable,
    fun draw => select_of_draw self hNonempty hSeen,
    fun i h => ⟨fun draw => fallsOn_iff hNonempty h, partialSum_div_sub h⟩,
    fun hIds draw hLow hHigh i b hGet => ?_⟩
  obtain ⟨j, b', hGet', hFalls, _, hSelect⟩ := select_of_draw self hNonempty hSeen hLow hHigh
  rw [hSelect, hFalls, Option.some_inj]
  constructor
  · intro hId
    have hIndex : (ids routable)[j]? = (ids routable)[i]? := by
      rw [ids, List.getElem?_map, List.getElem?_map, hGet', hGet, Option.map_some, Option.map_some, hId]
    have hLt : j < (ids routable).length := by
      rw [ids, List.length_map]
      exact (List.getElem?_eq_some_iff.mp hGet').1
    exact ((List.getElem?_inj hLt hIds).mp hIndex).symm
  · rintro rfl
    rw [Option.some.inj (hGet'.symm.trans hGet)]

end Exact

/-- A backend with the given weight and estimate. -/
def sampled (id : BackendId) (weight ewmaLatencyUs : Nat) : Backend :=
  { Backend.new id "http://b" weight (.new 0 (1 / 2) 10 10 30) with ewmaLatencyUs }

/-- With 100 and 300 microseconds, three quarters of the draws select the first backend. -/
theorem select_realises_shares_quarters :
    let routable := [sampled 0 1 100, sampled 1 1 300]
    (∀ draw : ℚ, 0 ≤ draw → draw < 1 →
      ((LatencyAware.new.select draw routable).1 = some 0 ↔ FallsOn (shares ℚ routable) draw 0)) ∧
    ∀ draw : ℚ, FallsOn (shares ℚ routable) draw 0 ↔ (0 < draw ∨ draw = 0) ∧ draw ≤ 3 / 4 := by
  intro routable
  have hLeast : (estimates (routable.map Backend.ewmaLatencyUs)).min? = some 100 := by decide +kernel
  have hGreatest : (estimates (routable.map Backend.ewmaLatencyUs)).max? = some 300 := by decide +kernel
  obtain ⟨_, _, _, _, hParts, hDraws⟩ := select_realises_shares (K := ℚ) LatencyAware.new
    (List.cons_ne_nil _ _ : routable ≠ []) hLeast hGreatest (by norm_num)
  have hEnd : partialSum (shares ℚ routable) 1 / (shares ℚ routable).sum = 3 / 4 := by decide +kernel
  refine ⟨fun draw hLow hHigh => hDraws (by decide) draw hLow hHigh 0 _ rfl, fun draw => ?_⟩
  rw [(hParts 0 (by decide)).1 draw, hEnd]
  simp

end LatencyAware

end InferenceRouter
