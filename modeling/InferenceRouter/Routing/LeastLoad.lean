import InferenceRouter.Health.Metrics
import InferenceRouter.Routing.Strategy

/-! Least load over everything that can be stored for a backend. Scrapes bound the
queue depth by what 64 bits hold, and the sum with the connections has 64 bits too. -/
namespace InferenceRouter

/-- The sum that `load_of` is meant to be. -/
def exactLoad (b : Backend) : Nat := b.activeConnections + b.queueDepth

/-- The addition overflows unless the queue leaves room for the connections. -/
theorem loadOf_eq_iff {b : Backend} : loadOf b = exactLoad b ↔ b.queueDepth < wordSize - b.activeConnections := by
  have hWord : 0 < wordSize := by decide
  rw [loadOf, exactLoad, Nat.mod_eq_iff_lt hWord.ne', Nat.lt_sub_iff_add_lt']

/-- Where there is no connection, there is room for every report. -/
theorem room_of_idle {b : Backend} (h : b.activeConnections = 0) (text : String) :
    (b.applyScrape text).queueDepth < wordSize - (b.applyScrape text).activeConnections := by
  rw [Backend.applyScrape_eq, h]
  exact F64.toU64_lt _

/-- An infinite value in the report leaves no room for a connection. -/
theorem not_room_of_inf {b : Backend} (h : 0 < b.activeConnections) {text : String}
    (hInf : .inf ∈ queueValues text) :
    ¬(b.applyScrape text).queueDepth < wordSize - (b.applyScrape text).activeConnections := by
  rw [Backend.applyScrape_eq, reportedQueue_inf hInf]
  have hWord : 0 < wordSize := by decide
  simp only [F64.toU64]
  omega

/-- No load overflows, and a backend is selected that has the first least load. -/
def LeastLoad.PicksMinimum (routable : List Backend) : Prop :=
  (∀ b ∈ routable, loadOf b = exactLoad b) ∧
    ∃ b, LeastLoad.select routable = some b.id ∧ FirstLeast exactLoad routable b

/-- Whatever queue depths are stored for the routable backends, least load picks a true
minimum exactly if each of them leaves room for the connections of its backend. -/
theorem least_load_iff (routable : List Backend) (hNonempty : routable ≠ []) :
    LeastLoad.PicksMinimum routable ↔ ∀ b ∈ routable, b.queueDepth < wordSize - b.activeConnections := by
  constructor
  · rintro ⟨hExact, _⟩ b hMem
    exact loadOf_eq_iff.mp (hExact b hMem)
  · intro hRoom
    have hExact : ∀ b ∈ routable, loadOf b = exactLoad b := fun b hMem => loadOf_eq_iff.mpr (hRoom b hMem)
    obtain ⟨b, hMin, hLeast⟩ := minByKey_firstLeast loadOf hNonempty
    refine ⟨hExact, b, ?_, hLeast.congr hExact⟩
    rw [LeastLoad.select, hMin]
    rfl

/-- A queue without end leaves room where there is no connection. -/
theorem least_load_iff_idle :
    LeastLoad.PicksMinimum [(loaded 0 2).applyScrape "vllm:num_requests_waiting 10",
      (loaded 1 0).applyScrape "vllm:num_requests_waiting inf"] :=
  (least_load_iff _ (by simp)).mpr
    (List.forall_mem_cons.mpr ⟨by decide +kernel, List.forall_mem_singleton.mpr (room_of_idle rfl _)⟩)

/-- One connection and a queue without end come to nothing, and 60 are more. -/
theorem least_load_wraps :
    let worst := (loaded 0 1).applyScrape "vllm:num_requests_waiting inf"
    let better := (loaded 1 0).applyScrape "vllm:num_requests_waiting 60"
    exactLoad worst = 2 ^ 64 ∧ exactLoad better = 60 ∧ LeastLoad.select [worst, better] = some 0 ∧
      ¬LeastLoad.PicksMinimum [worst, better] := by
  refine ⟨by decide +kernel, by decide +kernel, by decide +kernel, fun hPicks => ?_⟩
  have hInf : .inf ∈ queueValues "vllm:num_requests_waiting inf" := by decide +kernel
  exact not_room_of_inf Nat.one_pos hInf (loadOf_eq_iff.mp (hPicks.1 _ (List.mem_cons_self ..)))

end InferenceRouter
