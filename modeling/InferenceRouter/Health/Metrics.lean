import InferenceRouter.F64
import Mathlib.Algebra.Order.BigOperators.Group.List

/-! The scrape of a backend's `/metrics`: one total over the series of the queue
and one over those of the KV cache. -/
namespace InferenceRouter

/-- The metric name is everything before the first `{` or white space. -/
def metricName (line : List Char) : String :=
  String.ofList (line.takeWhile fun c => !(c = '\x7b' || isWhitespace c))

/-- The last token of the line is the value: there are no timestamps. -/
def metricValue (line : List Char) : Option F64 := (splitWhitespace line).getLast?.bind F64.fromStr

/-- Which scraped metrics a `/metrics` body contained. -/
structure ScrapeFound where
  queueDepth : Bool
  kvCache : Bool
  deriving DecidableEq

/-- The totals of the lines that were read. -/
structure Totals where
  queue : Option F64
  kv : Option F64

/-- Queue depth is the sum over all series. -/
def addQueue (queue : Option F64) (v : F64) : Option F64 :=
  some ((queue.getD (.finite 0)).add (v.maximum (.finite 0)))

/-- KV-cache usage is the maximum. -/
def raiseKv (kv : Option F64) (v : F64) : Option F64 :=
  let v := v.clamp 0 1
  some (kv.elim v fun k => k.maximum v)

namespace Totals

def start : Totals where
  queue := none
  kv := none

/-- One round of the loop of `parse_backend_metrics`. -/
def readLine (self : Totals) (line : List Char) : Totals :=
  if line.head? = some '#' then self
  else
    match metricName line with
    | "vllm:num_requests_waiting" =>
        match metricValue line with
        | some v => { self with queue := addQueue self.queue v }
        | none => self
    | "vllm:kv_cache_usage_perc" | "vllm:gpu_cache_usage_perc" =>
        match metricValue line with
        | some v => { self with kv := raiseKv self.kv v }
        | none => self
    | _ => self

def read (text : String) : Totals := (lines text.toList).foldl readLine start

end Totals

namespace Backend

/-- Stores what the body reports, and tells which metrics were present. -/
def parseBackendMetrics (text : String) (self : Backend) : ScrapeFound × Backend :=
  let totals := Totals.read text
  let self :=
    match totals.queue with
    | some q => { self with queueDepth := q.toU64 }
    | none => self
  let self :=
    match totals.kv with
    | some k => { self with kvCacheUsageBp := (k.scale 10000).toU64 }
    | none => self
  (⟨totals.queue.isSome, totals.kv.isSome⟩, self)

/-- A successful scrape that lacks a metric means the backend reports none. -/
def applyScrape (text : String) (self : Backend) : Backend :=
  let (found, self) := self.parseBackendMetrics text
  let self := if !found.queueDepth then { self with queueDepth := 0 } else self
  if !found.kvCache then { self with kvCacheUsageBp := 0 } else self

/-- Stale scraped values must not keep steering traffic once a scrape stops working. -/
def resetScraped (self : Backend) : Backend := { self with queueDepth := 0, kvCacheUsageBp := 0 }

end Backend

/-- The sum that a body reports for the queue, 0 without a series. -/
def reportedQueue (text : String) : F64 := (Totals.read text).queue.getD (.finite 0)

/-- The usage that a body reports for the KV cache, 0 without a series. -/
def reportedKv (text : String) : F64 := (Totals.read text).kv.getD (.finite 0)

/-- A scrape leaves what the body reports, and touches nothing else. -/
theorem Backend.applyScrape_eq (text : String) (self : Backend) :
    self.applyScrape text =
      { self with
        queueDepth := (reportedQueue text).toU64
        kvCacheUsageBp := ((reportedKv text).scale 10000).toU64 } := by
  have hNone : (F64.finite 0).toU64 = 0 := by decide +kernel
  have hNoUsage : ((F64.finite 0).scale 10000).toU64 = 0 := by decide +kernel
  unfold applyScrape parseBackendMetrics reportedQueue reportedKv
  generalize Totals.read text = totals
  obtain ⟨queue, kv⟩ := totals
  cases queue with
  | none => cases kv <;> simp [hNone, hNoUsage]
  | some q => cases kv <;> simp [hNoUsage]

example :
    let text := "\n".intercalate ["# HELP", "vllm:num_requests_waiting\x7bmodel=\"a\"\x7d 3",
      "vllm:num_requests_waiting 4.0\r", "vllm:gpu_cache_usage_perc 0.7"]
    (reportedQueue text, reportedKv text) = (.finite 7, .finite (7 / 10)) := by
  decide +kernel

def queueNames : List String := ["vllm:num_requests_waiting"]

/-- The name of the KV-cache metric, and the one it had before. -/
def kvNames : List String := ["vllm:kv_cache_usage_perc", "vllm:gpu_cache_usage_perc"]

/-- The value of a line that is a series with one of the names. -/
def seriesValue (names : List String) (line : List Char) : Option F64 :=
  if line.head? = some '#' then none
  else if metricName line ∈ names then metricValue line else none

namespace Totals

theorem readLine_eq (self : Totals) (line : List Char) :
    self.readLine line = { queue := (seriesValue queueNames line).elim self.queue (addQueue self.queue)
                           kv := (seriesValue kvNames line).elim self.kv (raiseKv self.kv) } := by
  unfold readLine seriesValue
  split
  · rfl
  · split
    · rename_i hName
      cases hValue : metricValue line <;> simp [hName, queueNames, kvNames]
    · rename_i hName
      cases hValue : metricValue line <;> simp [hName, queueNames, kvNames]
    · rename_i hName
      cases hValue : metricValue line <;> simp [hName, queueNames, kvNames]
    · simp_all [queueNames, kvNames]

/-- The two totals do not get into each other's way. -/
theorem foldl_readLine (self : Totals) (ls : List (List Char)) :
    ls.foldl readLine self =
      { queue := (ls.filterMap (seriesValue queueNames)).foldl addQueue self.queue
        kv := (ls.filterMap (seriesValue kvNames)).foldl raiseKv self.kv } := by
  induction ls generalizing self with
  | nil => rfl
  | cons line ls ih =>
      rw [List.foldl_cons, ih, readLine_eq, List.filterMap_cons, List.filterMap_cons]
      cases seriesValue queueNames line <;> cases seriesValue kvNames line <;> rfl

end Totals

namespace F64

/-- `max(value, 0)`. A NaN counts nothing; infinity is no number. -/
def positivePart : F64 → ℚ
  | .finite q => max q 0
  | .nan | .negInf | .inf => 0

/-- The value clamped to [0, 1]. A NaN counts nothing. -/
def unitPart : F64 → ℚ
  | .finite q => max 0 (min q 1)
  | .inf => 1
  | .nan | .negInf => 0

theorem positivePart_nonneg (v : F64) : 0 ≤ v.positivePart := by
  cases v <;> simp [positivePart]

theorem unitPart_mem (v : F64) : 0 ≤ v.unitPart ∧ v.unitPart ≤ 1 := by
  cases v <;> simp [unitPart]

/-- Infinite, or a number that is not negative. -/
def IsSum (value : F64) : Prop := value = .inf ∨ ∃ q, 0 ≤ q ∧ value = .finite q

/-- Either the number itself, or a NaN that stands for nothing. -/
def Counts (value : F64) (q : ℚ) : Prop := (value = .nan ∧ q = 0) ∨ (value = .finite q ∧ 0 ≤ q)

theorem Counts.toU64_scale {value : F64} {q : ℚ} (h : value.Counts q) (hUnit : q ≤ 1) :
    (value.scale 10000).toU64 = ⌊10000 * q⌋₊ := by
  rcases h with ⟨rfl, rfl⟩ | ⟨rfl, hNonneg⟩
  · simp [scale, toU64]
  · have hFloor : ⌊10000 * q⌋₊ ≤ 10000 := by
      have hLe : 10000 * q ≤ (10000 : ℕ) := by
        rw [Nat.cast_ofNat]
        linarith
      exact Nat.floor_le_of_le hLe
    rw [scale, toU64, mul_comm]
    exact min_eq_left (hFloor.trans (by decide))

end F64

theorem addQueue_finite {queue : Option F64} {sum : ℚ} {v : F64} (hQueue : queue.getD (.finite 0) = .finite sum)
    (hFinite : v ≠ .inf) : addQueue queue v = some (.finite (sum + v.positivePart)) := by
  cases v with
  | inf => exact absurd rfl hFinite
  | nan | negInf | finite q => simp [addQueue, hQueue, F64.maximum, F64.add, F64.positivePart]

theorem foldl_addQueue {values : List F64} (hFinite : .inf ∉ values) {queue : Option F64} {sum : ℚ}
    (hQueue : queue.getD (.finite 0) = .finite sum) :
    (values.foldl addQueue queue).getD (.finite 0) = .finite (sum + (values.map F64.positivePart).sum) := by
  induction values generalizing queue sum with
  | nil => simpa using hQueue
  | cons v values ih =>
      obtain ⟨hFirst, hRest⟩ := List.ne_and_not_mem_of_not_mem_cons hFinite
      rw [List.foldl_cons, addQueue_finite hQueue hFirst.symm, ih hRest rfl, List.map_cons, List.sum_cons,
        add_assoc]

theorem addQueue_isSum {queue : Option F64} (hQueue : (queue.getD (.finite 0)).IsSum) (v : F64) :
    ((addQueue queue v).getD (.finite 0)).IsSum := by
  rcases hQueue with hInf | ⟨q, hNonneg, hFinite⟩
  · left
    cases v <;> simp [addQueue, hInf, F64.maximum, F64.add]
  · by_cases hValue : v = .inf
    · left
      simp [addQueue, hFinite, hValue, F64.maximum, F64.add]
    · right
      refine ⟨q + v.positivePart, add_nonneg hNonneg v.positivePart_nonneg, ?_⟩
      rw [addQueue_finite hFinite hValue]
      rfl

theorem foldl_addQueue_isSum (values : List F64) {queue : Option F64}
    (hQueue : (queue.getD (.finite 0)).IsSum) : ((values.foldl addQueue queue).getD (.finite 0)).IsSum := by
  induction values generalizing queue with
  | nil => exact hQueue
  | cons v values ih => exact ih (addQueue_isSum hQueue v)

theorem foldl_addQueue_of_inf {queue : Option F64} (hQueue : queue.getD (.finite 0) = .inf) (values : List F64) :
    (values.foldl addQueue queue).getD (.finite 0) = .inf := by
  induction values generalizing queue with
  | nil => exact hQueue
  | cons v values ih =>
      refine ih ?_
      cases v <;> simp [addQueue, hQueue, F64.maximum, F64.add]

/-- One infinite value makes the sum infinite. -/
theorem foldl_addQueue_inf {values : List F64} (hInf : .inf ∈ values) {queue : Option F64}
    (hQueue : (queue.getD (.finite 0)).IsSum) : (values.foldl addQueue queue).getD (.finite 0) = .inf := by
  obtain ⟨before, after, rfl⟩ := List.append_of_mem hInf
  rw [List.foldl_append, List.foldl_cons]
  refine foldl_addQueue_of_inf ?_ after
  rcases foldl_addQueue_isSum before hQueue with hSum | ⟨q, _, hSum⟩ <;>
    simp [addQueue, hSum, F64.maximum, F64.add]

theorem raiseKv_counts {kv : Option F64} {highest : ℚ} (hKv : (kv.getD (.finite 0)).Counts highest) (v : F64) :
    ((raiseKv kv v).getD (.finite 0)).Counts (max highest v.unitPart) := by
  have hNonneg : 0 ≤ max highest v.unitPart := v.unitPart_mem.1.trans (le_max_right _ _)
  cases kv with
  | none =>
      obtain rfl : highest = 0 := by
        rcases hKv with ⟨hNan, _⟩ | ⟨hZero, _⟩
        · cases hNan
        · exact (F64.finite.inj hZero).symm
      rw [max_eq_right v.unitPart_mem.1]
      cases v <;> simp [raiseKv, F64.clamp, F64.Counts, F64.unitPart]
  | some k =>
      rcases hKv with ⟨hNan, rfl⟩ | ⟨hFinite, hHighest⟩
      · rw [max_eq_right v.unitPart_mem.1]
        obtain rfl : k = .nan := hNan
        cases v <;> simp [raiseKv, F64.clamp, F64.maximum, F64.Counts, F64.unitPart]
      · obtain rfl : k = .finite highest := hFinite
        cases v <;> simp [raiseKv, F64.clamp, F64.maximum, F64.Counts, F64.unitPart, hHighest]

theorem foldl_raiseKv (values : List F64) {kv : Option F64} {highest : ℚ}
    (hKv : (kv.getD (.finite 0)).Counts highest) :
    ((values.foldl raiseKv kv).getD (.finite 0)).Counts ((values.map F64.unitPart).foldl max highest) := by
  induction values generalizing kv highest with
  | nil => exact hKv
  | cons v values ih => exact ih (raiseKv_counts hKv v)

theorem foldl_max_unitPart_le (values : List F64) {highest : ℚ} (h : highest ≤ 1) :
    (values.map F64.unitPart).foldl max highest ≤ 1 := by
  induction values generalizing highest with
  | nil => exact h
  | cons v values ih => exact ih (max_le h v.unitPart_mem.2)

/-- The values of the queue metric in a body, in order. -/
def queueValues (text : String) : List F64 := (lines text.toList).filterMap (seriesValue queueNames)

/-- The values of the KV-cache metric in a body, in order. -/
def kvValues (text : String) : List F64 := (lines text.toList).filterMap (seriesValue kvNames)

theorem reportedQueue_eq {text : String} (hFinite : .inf ∉ queueValues text) :
    reportedQueue text = .finite ((queueValues text).map F64.positivePart).sum := by
  have hStart : (none : Option F64).getD (.finite 0) = .finite 0 := rfl
  have hSum := foldl_addQueue hFinite hStart
  rw [zero_add] at hSum
  rw [reportedQueue, Totals.read, Totals.foldl_readLine]
  exact hSum

theorem reportedQueue_inf {text : String} (hInf : .inf ∈ queueValues text) : reportedQueue text = .inf := by
  rw [reportedQueue, Totals.read, Totals.foldl_readLine]
  exact foldl_addQueue_inf hInf (.inr ⟨0, le_rfl, rfl⟩)

theorem sum_positivePart_nonneg (values : List F64) : 0 ≤ (values.map F64.positivePart).sum := by
  refine List.sum_nonneg fun q hq => ?_
  obtain ⟨v, _, rfl⟩ := List.mem_map.mp hq
  exact v.positivePart_nonneg

theorem reportedKv_toU64 (text : String) :
    ((reportedKv text).scale 10000).toU64 =
      ⌊10000 * ((kvValues text).map F64.unitPart).foldl max 0⌋₊ := by
  have hStart : ((none : Option F64).getD (.finite 0)).Counts 0 := .inr ⟨rfl, le_rfl⟩
  have hCounts := foldl_raiseKv (kvValues text) hStart
  rw [reportedKv, Totals.read, Totals.foldl_readLine]
  exact hCounts.toU64_scale (foldl_max_unitPart_le _ zero_le_one)

end InferenceRouter
