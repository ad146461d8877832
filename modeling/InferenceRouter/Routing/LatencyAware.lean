import InferenceRouter.Routing.RoundRobin
import Mathlib.Algebra.Field.Defs
import Mathlib.Order.Defs.LinearOrder

/-! Weighted random selection by latency. The arithmetic is a parameter: what
holds for every reading of `f64` needs nothing of it, and the shares that the
strategy aims at are stated for the exact one. -/
namespace InferenceRouter

/-- The operations on `f64` that the strategy uses. -/
class FloatArith (F : Type) where
  ofNat : Nat → F
  /-- The literal `0.0`. -/
  zero : F
  /-- The literal `1.0`. -/
  one : F
  /-- `FLAT_RATIO`: latencies within this ratio of each other are treated as equal. -/
  flatRatio : F
  /-- `f64::MAX`. -/
  greatest : F
  /-- `f64::MIN`. -/
  least : F
  add : F → F → F
  sub : F → F → F
  mul : F → F → F
  div : F → F → F
  /-- `f64::min`. -/
  minimum : F → F → F
  /-- `f64::max`. -/
  maximum : F → F → F
  /-- The operator `<=`. -/
  le : F → F → Bool
  /-- `f64::total_cmp` says less or equal. -/
  totalLe : F → F → Bool

/-- The arithmetic read as exact, for any numbers. -/
instance (priority := low) FloatArith.exact (K : Type) [Field K] [LinearOrder K] : FloatArith K where
  ofNat n := n
  zero := 0
  one := 1
  flatRatio := 11 / 10
  greatest := (2 ^ 53 - 1) * 2 ^ 971
  least := -((2 ^ 53 - 1) * 2 ^ 971)
  add := (· + ·)
  sub := (· - ·)
  mul := (· * ·)
  div := (· / ·)
  minimum := min
  maximum := max
  le := fun a b => a ≤ b
  totalLe := fun a b => a ≤ b

structure LatencyAware where
  fallbackCounter : Nat

namespace LatencyAware

variable {F : Type} [FloatArith F]

open FloatArith

def new : LatencyAware where
  fallbackCounter := 0

/-- The upper median of the sampled latencies, 1 when there are none. -/
def median (raw : List Nat) : F :=
  let sampled : List F := ((raw.filter (0 < ·)).map ofNat).mergeSort totalLe
  sampled.getD (sampled.length / 2) one

/-- Backends without a sample get the median, not a tiny latency. -/
def latencies (raw : List Nat) : List F :=
  raw.map fun l => if 0 < l then ofNat l else median raw

/-- The latencies are too close to tell the backends apart. -/
def isFlat (latencies : List F) : Bool :=
  le (latencies.foldl maximum least) (mul (latencies.foldl minimum greatest) flatRatio)

/-- Configured weight over latency, backend by backend. -/
def weights (routable : List Backend) (latencies : List F) : List F :=
  (routable.zip latencies).map fun (b, l) => div (ofNat b.slots) l

/-- The first backend at which the weights so far use up the pick. -/
def pickByWeight (pick : F) : List (Backend × F) → Option BackendId
  | [] => none
  | (b, weight) :: rest =>
      let pick := sub pick weight
      if le pick zero then some b.id else pickByWeight pick rest

/-- `draw` is what the random generator gives, a number in `[0, 1)`. -/
def select (self : LatencyAware) (draw : F) (routable : List Backend) :
    Option BackendId × LatencyAware :=
  if routable.isEmpty then (none, self)
  else
    let latencies : List F := latencies (routable.map Backend.ewmaLatencyUs)
    if isFlat latencies then
      (weightedPick (self.fallbackCounter % totalWeight routable) routable,
        { fallbackCounter := fetchAdd self.fallbackCounter })
    else
      let weights := weights routable latencies
      let total := weights.foldl add zero
      let picked := pickByWeight (mul draw total) (routable.zip weights)
      (picked.or (routable.getLast?.map Backend.id), self)

theorem pickByWeight_mem {pick : F} {weighted : List (Backend × F)} {id : BackendId}
    (h : pickByWeight pick weighted = some id) : ∃ b ∈ weighted.map Prod.fst, b.id = id := by
  induction weighted generalizing pick with
  | nil => cases h
  | cons first rest ih =>
      obtain ⟨b, weight⟩ := first
      simp only [pickByWeight] at h
      split at h
      · exact ⟨b, by simp, Option.some.inj h⟩
      · obtain ⟨owner, hMem, hId⟩ := ih h
        exact ⟨owner, List.mem_cons_of_mem _ hMem, hId⟩

/-- Some backend is picked, whatever the arithmetic makes of the latencies. -/
theorem select_some (self : LatencyAware) (draw : F) {routable : List Backend} (h : routable ≠ []) :
    ∃ b ∈ routable, (self.select draw routable).1 = some b.id := by
  simp only [select, List.isEmpty_iff, h, if_false]
  split
  · exact weightedPick_mod self.fallbackCounter h
  · dsimp only
    generalize hWeights : weights routable (latencies (F := F) (routable.map Backend.ewmaLatencyUs)) = weights
    cases hPick : pickByWeight (mul draw (weights.foldl add zero)) (routable.zip weights) with
    | some id =>
        obtain ⟨b, hMem, rfl⟩ := pickByWeight_mem hPick
        obtain ⟨⟨b', weight⟩, hZip, rfl⟩ := List.mem_map.mp hMem
        exact ⟨b', (List.of_mem_zip hZip).1, rfl⟩
    | none => exact ⟨routable.getLast h, List.getLast_mem h, by simp [List.getLast?_eq_some_getLast h]⟩

end LatencyAware

end InferenceRouter
