import InferenceRouter.Health.Exposition
import InferenceRouter.MockBackend.Slots

/-! What the mock backend reports on `/metrics`. Its totals count its tasks, and the
router reads from the text how many requests wait. -/
namespace InferenceRouter.MockBackend

open Semantics

/-- The format `.4f` of a value that is given in ten-thousandths. -/
def fixedPoint (tenThousandths : Nat) : String :=
  toString (tenThousandths / 10000) ++ "." ++
    String.ofList ((Nat.toDigits 10 (tenThousandths % 10000)).leftpad 4 '0')

/-- `str.replace`, for one character. -/
def replaceChar (old : Char) (new : List Char) (text : List Char) : List Char :=
  text.flatMap fun c => if c = old then new else [c]

/-- A label value, escaped. -/
def escapeLabel (text : String) : String :=
  String.ofList (replaceChar '"' ['\\', '"'] (replaceChar '\\' ['\\', '\\'] text.toList))

/-- `kv.current` is left open; `usage` is what its format prints. -/
def Server.metrics (instanceId : String) (usage : Nat) (self : Server) : String :=
  let label := escapeLabel instanceId
  let inst := "\x7binstance=\"" ++ label ++ "\"\x7d"
  "\n".intercalate
    ["# TYPE vllm:num_requests_running gauge",
      "vllm:num_requests_running" ++ inst ++ " " ++ toString self.gate.running,
      "# TYPE vllm:num_requests_waiting gauge",
      "vllm:num_requests_waiting" ++ inst ++ " " ++ toString self.gate.waiting,
      "# TYPE vllm:kv_cache_usage_perc gauge",
      "vllm:kv_cache_usage_perc" ++ inst ++ " " ++ fixedPoint usage,
      "# TYPE vllm:prefix_cache_hits counter",
      "vllm:prefix_cache_hits" ++ inst ++ " " ++ toString self.prefixCache.hits,
      "# TYPE vllm:prefix_cache_queries counter",
      "vllm:prefix_cache_queries" ++ inst ++ " " ++ toString self.prefixCache.queries,
      "# TYPE vllm:prompt_tokens_total counter",
      "vllm:prompt_tokens_total" ++ inst ++ " " ++ toString self.totalPromptTokens,
      "# TYPE vllm:generation_tokens_total counter",
      "vllm:generation_tokens_total" ++ inst ++ " " ++ toString self.totalGenerationTokens,
      ""]

example : fixedPoint 321 = "0.0321" ∧ fixedPoint 10000 = "1.0000" ∧ escapeLabel "a\\b\"c" = "a\\\\b\\\"c" := by
  decide +kernel

theorem fromStr_fixedPoint (n : Nat) : F64.fromStr (fixedPoint n).toList = some (.finite (n / 10000)) := by
  have hDigits (k : Nat) : ∀ c ∈ Nat.toDigits 10 k, c.isDigit = true :=
    fun c hc => Nat.isDigit_of_mem_toDigits (by decide) (by decide) hc
  have hShort : (Nat.toDigits 10 (n % 10000)).length ≤ 4 :=
    (Nat.length_toDigits_le_iff (by decide) (by decide)).mpr (Nat.mod_lt _ (by decide))
  have hPad : ∀ c ∈ (Nat.toDigits 10 (n % 10000)).leftpad 4 '0', c.isDigit = true := by
    intro c hc
    rw [List.leftpad, List.mem_append, List.mem_replicate] at hc
    rcases hc with ⟨-, rfl⟩ | hc
    · rfl
    · exact hDigits _ c hc
  have hLength : ((Nat.toDigits 10 (n % 10000)).leftpad 4 '0').length = 4 := by
    rw [List.leftpad, List.length_append, List.length_replicate]
    omega
  have hValue : Nat.ofDigitChars 10 (Nat.toDigits 10 (n / 10000) ++ (Nat.toDigits 10 (n % 10000)).leftpad 4 '0') 0 = n := by
    rw [List.leftpad, Nat.ofDigitChars_append, Nat.ofDigitChars_append, Nat.ofDigitChars_ten_toDigits,
      Nat.ofDigitChars_replicate_zero, Nat.ofDigitChars_eq_ofDigitChars_zero, Nat.ofDigitChars_ten_toDigits,
      ← Nat.mul_assoc, ← Nat.pow_add, Nat.add_sub_cancel' hShort]
    exact Nat.div_add_mod n 10000
  have hNumber := F64.number_decimal _ Nat.toDigits_ne_nil (hDigits (n / 10000)) hPad
  have hSome : (Nat.toDigits 10 (n % 10000)).leftpad 4 '0' ≠ [] := by
    intro hNone
    rw [hNone] at hLength
    cases hLength
  rw [if_neg hSome, hValue, hLength] at hNumber
  have hText : (fixedPoint n).toList =
      Nat.toDigits 10 (n / 10000) ++ '.' :: (Nat.toDigits 10 (n % 10000)).leftpad 4 '0' := by
    simp [fixedPoint]
  rw [hText]
  cases hWhole : Nat.toDigits 10 (n / 10000) with
  | nil => exact absurd hWhole Nat.toDigits_ne_nil
  | cons c rest =>
      rw [hWhole, List.cons_append] at hNumber
      have hRead := F64.fromStr_of_digit (hDigits (n / 10000) c (hWhole ▸ List.mem_cons_self)) hNumber
      rw [List.cons_append, hRead]
      norm_num

theorem newline_not_mem_replaceChar {old : Char} {new text : List Char} (hNew : '\n' ∉ new) (hText : '\n' ∉ text) :
    '\n' ∉ replaceChar old new text := by
  rw [replaceChar, List.mem_flatMap]
  rintro ⟨c, hc, hMem⟩
  split at hMem
  · exact hNew hMem
  · rw [List.mem_singleton] at hMem
    exact hText (hMem ▸ hc)

theorem newline_not_mem_escapeLabel {text : String} (h : '\n' ∉ text.toList) : '\n' ∉ (escapeLabel text).toList := by
  rw [escapeLabel, String.toList_ofList]
  exact newline_not_mem_replaceChar (by decide) (newline_not_mem_replaceChar (by decide) h)

/-- A metric with one series. -/
structure Metric where
  name : String
  kind : String
  token : String
  value : F64
  name_plain : (name.toList.all fun c => decide (c ≠ '\x7b' ∧ isWhitespace c = false)) = true
  type_line : '\n' ∉ (" TYPE " ++ name ++ " " ++ kind).toList
  reads : F64.fromStr token.toList = some value

/-- A metric whose value is a natural number. -/
def Metric.natural (name kind : String) (value : Nat)
    (name_plain : (name.toList.all fun c => decide (c ≠ '\x7b' ∧ isWhitespace c = false)) = true)
    (type_line : '\n' ∉ (" TYPE " ++ name ++ " " ++ kind).toList) : Metric where
  name := name
  kind := kind
  token := toString value
  value := .finite value
  name_plain := name_plain
  type_line := type_line
  reads := F64.fromStr_repr value

def Metric.sample {labels : String} (hLabels : '\n' ∉ labels.toList) (self : Metric) : Sample where
  name := self.name
  labels := some labels
  token := self.token
  value := self.value
  name_plain := plain_of_all self.name_plain
  labels_line := by simpa using hLabels
  reads := self.reads

/-- The type of a metric, and its series. -/
def Metric.lines {labels : String} (hLabels : '\n' ∉ labels.toList) (self : Metric) : List Line :=
  [.comment (" TYPE " ++ self.name ++ " " ++ self.kind) self.type_line, .sample (self.sample hLabels)]

theorem Metric.print_lines {labels : String} (hLabels : '\n' ∉ labels.toList) (self : Metric) :
    (self.lines hLabels).flatMap (fun line => line.print ++ ['\n']) =
      ("# TYPE " ++ self.name ++ " " ++ self.kind ++ "\n" ++ self.name ++ ("\x7b" ++ labels ++ "\x7d") ++ " " ++
        self.token ++ "\n").toList := by
  simp [lines, sample, Line.print, Sample.print, Sample.labelSet]

/-- The metrics of the mock in the order it prints them. -/
def reported (usage running waiting hits queries promptTokens generationTokens : Nat) : List Metric :=
  [.natural "vllm:num_requests_running" "gauge" running (by decide) (by decide),
    .natural "vllm:num_requests_waiting" "gauge" waiting (by decide) (by decide),
    ⟨"vllm:kv_cache_usage_perc", "gauge", fixedPoint usage, _, by decide, by decide, fromStr_fixedPoint usage⟩,
    .natural "vllm:prefix_cache_hits" "counter" hits (by decide) (by decide),
    .natural "vllm:prefix_cache_queries" "counter" queries (by decide) (by decide),
    .natural "vllm:prompt_tokens_total" "counter" promptTokens (by decide) (by decide),
    .natural "vllm:generation_tokens_total" "counter" generationTokens (by decide) (by decide)]

def instanceLabel (instanceId : String) : String := "instance=\"" ++ escapeLabel instanceId ++ "\""

theorem newline_not_mem_instanceLabel {instanceId : String} (h : '\n' ∉ instanceId.toList) :
    '\n' ∉ (instanceLabel instanceId).toList := by
  have hLabel := newline_not_mem_escapeLabel h
  simp [instanceLabel, hLabel]

theorem metrics_eq_exposition {self : Server} {instanceId : String} (usage : Nat) {running waiting : Nat}
    (hInstance : '\n' ∉ instanceId.toList) (hRunning : self.gate.running = running)
    (hWaiting : self.gate.waiting = waiting) :
    self.metrics instanceId usage =
      exposition ((reported usage running waiting self.prefixCache.hits self.prefixCache.queries
        self.totalPromptTokens self.totalGenerationTokens).flatMap
          (Metric.lines (newline_not_mem_instanceLabel hInstance))) := by
  have hNatural (n : Nat) : (n : Int).repr.toList = Nat.toDigits 10 n := Nat.toList_repr
  rw [exposition, List.flatMap_assoc]
  simp only [Metric.print_lines]
  rw [← String.toList_inj, String.toList_ofList]
  simp [Server.metrics, hRunning, hWaiting, hNatural, reported, Metric.natural, instanceLabel]

/-- Comments are not read, and a series has one value. -/
theorem valuesOf_lines {labels : String} (hLabels : '\n' ∉ labels.toList) (names : List String) (metrics : List Metric) :
    valuesOf names (metrics.flatMap (Metric.lines hLabels)) =
      (metrics.filter fun metric => metric.name ∈ names).map Metric.value := by
  induction metrics with
  | nil => rfl
  | cons metric metrics ih =>
      have hFirst : valuesOf names (metric.lines hLabels) =
          ([metric].filter fun metric => metric.name ∈ names).map Metric.value := by
        have hSamples : (metric.lines hLabels).filterMap Line.sample? = [metric.sample hLabels] := rfl
        rw [valuesOf, hSamples]
        by_cases hName : metric.name ∈ names <;> simp [Metric.sample, hName]
      rw [List.flatMap_cons, valuesOf, List.filterMap_append, List.filter_append, List.map_append, ← valuesOf,
        ← valuesOf, ih, hFirst, ← List.map_append, ← List.filter_append, List.singleton_append]

theorem waiting_reported {labels : String} (hLabels : '\n' ∉ labels.toList)
    (usage running queue hits queries promptTokens generationTokens : Nat) :
    waiting ((reported usage running queue hits queries promptTokens generationTokens).flatMap (Metric.lines hLabels)) =
      [.finite queue] := by
  rw [waiting, valuesOf_lines]
  simp [reported, Metric.natural, queueNames]

namespace Server

variable {maxConcurrent : Nat} {prefixCacheSize : Int} {tokensPerRequest : Nat} {events : List Event} {s : Server}

/-- A scrape of the mock tells the router how many requests wait for a slot, in every
state that the mock gets into. -/
theorem scrape_metrics (run : Run (Step tokensPerRequest) (new maxConcurrent prefixCacheSize) events s)
    {instanceId : String} (hInstance : '\n' ∉ instanceId.toList) (hFits : s.tasks.length < wordSize) (usage : Nat)
    (backend : Backend) :
    (backend.applyScrape (s.metrics instanceId usage)).queueDepth = s.tasks.countP Task.isWaiting := by
  obtain ⟨hRunning, hWaiting, -⟩ := slots_conserved run
  have hSum : ((waiting ((reported usage (sumOver Task.slots s.tasks) (s.tasks.countP Task.isWaiting)
      s.prefixCache.hits s.prefixCache.queries s.totalPromptTokens s.totalGenerationTokens).flatMap
        (Metric.lines (newline_not_mem_instanceLabel hInstance)))).map F64.positivePart).sum =
      (s.tasks.countP Task.isWaiting : ℚ) := by
    rw [waiting_reported]
    simp [F64.positivePart]
  rw [metrics_eq_exposition usage hInstance hRunning hWaiting, applyScrape_exposition]
  · dsimp only
    rw [hSum, Nat.floor_natCast]
  · rw [waiting_reported]
    simp
  · rw [hSum, Nat.cast_lt]
    exact lt_of_le_of_lt List.countP_le_length hFits

theorem scrape_metrics_oneSlot :
    let s := afterEvents (oneSlot.take 3) rfl
    let backend := Backend.new 0 "http://mock-1:8000" 1 (.new 0 (1 / 2) 5 60 30)
    (backend.applyScrape (s.metrics "mock-0" 200)).queueDepth = 2 := by
  intro s backend
  have run : Run (Step 20) (new 1 256) (oneSlot.take 3) s := run_afterEvents _
  have hWaiting : s.tasks.countP Task.isWaiting = 2 := by decide +kernel
  rw [scrape_metrics run (by decide) (by decide +kernel) 200 backend, hWaiting]

end Server

end InferenceRouter.MockBackend
