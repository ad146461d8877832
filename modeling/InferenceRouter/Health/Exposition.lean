import InferenceRouter.Health.Metrics

/-! The exposition format, one sample a line. A scrape of a printed body reads
back the values of the samples it is about, in whatever order they come. -/
namespace InferenceRouter

/-- One sample of a series. The labels are whatever stands between the braces. -/
structure Sample where
  name : String
  labels : Option String
  token : String
  value : F64
  name_plain : ∀ c ∈ name.toList, c ≠ '\x7b' ∧ isWhitespace c = false
  labels_line : ∀ text ∈ labels, '\n' ∉ text.toList
  reads : F64.fromStr token.toList = some value

namespace Sample

def labelSet (self : Sample) : List Char :=
  self.labels.elim [] fun text => '\x7b' :: text.toList ++ ['\x7d']

/-- The sample as a line. -/
def print (self : Sample) : List Char := self.name.toList ++ self.labelSet ++ ' ' :: self.token.toList

variable (self : Sample)

/-- The name is followed by a brace or a blank. -/
theorem print_eq : ∃ c rest, self.print = self.name.toList ++ c :: rest ∧ (c = '\x7b' ∨ c = ' ') := by
  unfold print labelSet
  cases self.labels with
  | none => exact ⟨' ', self.token.toList, by simp, .inr rfl⟩
  | some text => exact ⟨'\x7b', text.toList ++ '\x7d' :: ' ' :: self.token.toList, by simp, .inl rfl⟩

theorem metricName_print : metricName self.print = self.name := by
  obtain ⟨c, rest, hPrint, hStop⟩ := self.print_eq
  have hName : ∀ d ∈ self.name.toList, (!(decide (d = '\x7b') || isWhitespace d)) = true := by
    intro d hd
    obtain ⟨hBrace, hBlank⟩ := self.name_plain d hd
    simp [hBrace, hBlank]
  have hEnd : (!(decide (c = '\x7b') || isWhitespace c)) = false := by
    rcases hStop with rfl | rfl
    · rfl
    · rfl
  rw [metricName, hPrint, List.takeWhile_append_of_pos hName, List.takeWhile_cons_of_neg (by simp [hEnd]),
    List.append_nil, String.ofList_toList]

theorem metricValue_print : metricValue self.print = some self.value := by
  obtain ⟨hNonempty, hToken⟩ := F64.token_of_fromStr self.reads
  rw [metricValue, print, getLast?_splitWhitespace _ hNonempty hToken, Option.bind_some, self.reads]

theorem newline_not_mem_print : '\n' ∉ self.print := by
  obtain ⟨_, hToken⟩ := F64.token_of_fromStr self.reads
  have hBlank : isWhitespace '\n' = true := by decide
  simp only [print, List.mem_append, List.mem_cons, not_or]
  refine ⟨⟨fun hName => ?_, fun hLabels => ?_⟩, by decide, fun hMem => ?_⟩
  · simp [(self.name_plain _ hName).2] at hBlank
  · unfold labelSet at hLabels
    cases hText : self.labels with
    | none => simp [hText] at hLabels
    | some text =>
        have hLine := self.labels_line text hText
        simp [hText, hLine] at hLabels
  · simp [hToken _ hMem] at hBlank

theorem stripCarriageReturn_print : stripCarriageReturn self.print = self.print := by
  obtain ⟨hNonempty, hToken⟩ := F64.token_of_fromStr self.reads
  have hLast : self.print.getLast? = self.token.toList.getLast? := by
    rw [print, List.getLast?_append_cons, List.getLast?_cons_of_ne_nil hNonempty]
  have hKeep : self.print.getLast? ≠ some '\r' := by
    rw [hLast]
    intro hReturn
    exact absurd (hToken _ (List.mem_of_getLast? hReturn)) (by decide)
  rw [stripCarriageReturn, if_neg hKeep]

/-- A sample that looks like a comment has a name that does. -/
theorem head?_name (h : self.print.head? = some '#') : self.name.toList.head? = some '#' := by
  obtain ⟨c, rest, hPrint, hStop⟩ := self.print_eq
  rw [hPrint] at h
  cases hName : self.name.toList with
  | cons first name => simpa [hName] using h
  | nil =>
      rw [hName, List.nil_append, List.head?_cons, Option.some.injEq] at h
      rcases hStop with rfl | rfl
      · exact absurd h (by decide)
      · exact absurd h (by decide)

/-- A sample is read if it has one of the names, none of which looks like a comment. -/
theorem seriesValue_print {names : List String} (hNames : ∀ name ∈ names, name.toList.head? ≠ some '#') :
    seriesValue names self.print = if self.name ∈ names then some self.value else none := by
  unfold seriesValue
  rw [self.metricName_print, self.metricValue_print]
  split
  · rename_i hComment
    have hOther : self.name ∉ names := fun hMem => hNames _ hMem (self.head?_name hComment)
    rw [if_neg hOther]
  · rfl

end Sample

/-- A line of a body: a comment, or a sample of whatever series. -/
inductive Line where
  | comment (text : String) (h : '\n' ∉ text.toList)
  | sample (sample : Sample)

namespace Line

def print : Line → List Char
  | .comment text _ => '#' :: text.toList
  | .sample entry => entry.print

def sample? : Line → Option Sample
  | .comment _ _ => none
  | .sample entry => some entry

theorem newline_not_mem_print (self : Line) : '\n' ∉ self.print := by
  cases self with
  | comment text h => simp [print, h]
  | sample entry => exact entry.newline_not_mem_print

/-- The end of a comment may look like the end of the line. -/
theorem head?_stripCarriageReturn (rest : List Char) :
    (stripCarriageReturn ('#' :: rest)).head? = some '#' := by
  unfold stripCarriageReturn
  split
  · rename_i hReturn
    cases rest with
    | nil => exact absurd hReturn (by decide)
    | cons => rfl
  · rfl

theorem seriesValue_print {names : List String} (hNames : ∀ name ∈ names, name.toList.head? ≠ some '#')
    (self : Line) :
    seriesValue names (stripCarriageReturn self.print) =
      (self.sample?.filter fun entry => entry.name ∈ names).map Sample.value := by
  cases self with
  | comment text h =>
      rw [print, seriesValue, if_pos (head?_stripCarriageReturn text.toList)]
      rfl
  | sample entry =>
      rw [print, entry.stripCarriageReturn_print, entry.seriesValue_print hNames]
      simp only [sample?, Option.filter_some, decide_eq_true_eq]
      split <;> rfl

end Line

/-- The lines as a body. -/
def exposition (ls : List Line) : String := String.ofList (ls.flatMap fun line => line.print ++ ['\n'])

theorem lines_exposition (ls : List Line) :
    lines (exposition ls).toList = ls.map fun line => stripCarriageReturn line.print := by
  rw [exposition, String.toList_ofList]
  induction ls with
  | nil => rfl
  | cons line ls ih =>
      rw [List.flatMap_cons, List.append_assoc, List.singleton_append,
        lines_cons line.newline_not_mem_print, ih, List.map_cons]

/-- The values of the samples with one of the names. -/
def valuesOf (names : List String) (ls : List Line) : List F64 :=
  ((ls.filterMap Line.sample?).filter fun sample => sample.name ∈ names).map Sample.value

/-- The values of the queue metric. -/
def waiting (ls : List Line) : List F64 := valuesOf queueNames ls

/-- The values of the KV-cache metric. -/
def cacheUsage (ls : List Line) : List F64 := valuesOf kvNames ls

theorem filterMap_exposition {names : List String} (hNames : ∀ name ∈ names, name.toList.head? ≠ some '#')
    (ls : List Line) : (lines (exposition ls).toList).filterMap (seriesValue names) = valuesOf names ls := by
  rw [lines_exposition, List.filterMap_map]
  induction ls with
  | nil => rfl
  | cons line ls ih =>
      rw [List.filterMap_cons, Function.comp_apply, line.seriesValue_print hNames, ih, valuesOf, valuesOf,
        List.filterMap_cons]
      cases line.sample? with
      | none => rfl
      | some sample => by_cases hWanted : sample.name ∈ names <;> simp [Option.filter_some, hWanted]

theorem queueValues_exposition (ls : List Line) : queueValues (exposition ls) = waiting ls :=
  filterMap_exposition (by simp [queueNames]) ls

theorem kvValues_exposition (ls : List Line) : kvValues (exposition ls) = cacheUsage ls :=
  filterMap_exposition (by simp [kvNames]) ls

theorem applyScrape_exposition {ls : List Line} (self : Backend) (hFinite : .inf ∉ waiting ls)
    (hFits : ((waiting ls).map F64.positivePart).sum < wordSize) :
    self.applyScrape (exposition ls) =
      { self with
        queueDepth := ⌊((waiting ls).map F64.positivePart).sum⌋₊
        kvCacheUsageBp := ⌊10000 * ((cacheUsage ls).map F64.unitPart).foldl max 0⌋₊ } := by
  have hFloor : ⌊((waiting ls).map F64.positivePart).sum⌋₊ < wordSize :=
    (Nat.floor_lt (sum_positivePart_nonneg _)).mpr hFits
  rw [Backend.applyScrape_eq, reportedKv_toU64, kvValues_exposition, reportedQueue_eq, queueValues_exposition,
    F64.toU64, min_eq_left (Nat.le_sub_one_of_lt hFloor)]
  rwa [queueValues_exposition]

theorem valuesOf_perm (names : List String) {ls ls' : List Line} (h : ls'.Perm ls) :
    (valuesOf names ls').Perm (valuesOf names ls) :=
  ((h.filterMap _).filter _).map _

/-- A scrape of a printed body stores the sum of the positive values of the queue
metric and the highest of the values of the KV-cache metric, rounded down. The
order of the lines does not matter. -/
theorem scrape_exposition (ls : List Line) (self : Backend) (hFinite : .inf ∉ waiting ls)
    (hFits : ((waiting ls).map F64.positivePart).sum < wordSize) :
    let scraped := self.applyScrape (exposition ls)
    scraped.queueDepth = ⌊((waiting ls).map F64.positivePart).sum⌋₊ ∧
      scraped.kvCacheUsageBp = ⌊10000 * ((cacheUsage ls).map F64.unitPart).foldl max 0⌋₊ ∧
      ∀ ls', ls'.Perm ls → self.applyScrape (exposition ls') = scraped := by
  intro scraped
  have hScraped : scraped = _ := applyScrape_exposition self hFinite hFits
  refine ⟨by rw [hScraped], by rw [hScraped], fun ls' hPerm => ?_⟩
  have hWaiting : (waiting ls').Perm (waiting ls) := valuesOf_perm queueNames hPerm
  have hSum : ((waiting ls').map F64.positivePart).sum = ((waiting ls).map F64.positivePart).sum :=
    (hWaiting.map _).sum_eq
  have hHighest : ((cacheUsage ls').map F64.unitPart).foldl max 0 =
      ((cacheUsage ls).map F64.unitPart).foldl max 0 := ((valuesOf_perm kvNames hPerm).map _).foldl_eq _
  rw [hScraped, applyScrape_exposition self (fun h => hFinite (hWaiting.mem_iff.mp h)) (hSum ▸ hFits), hSum,
    hHighest]

theorem plain_of_all {name : String}
    (h : (name.toList.all fun c => decide (c ≠ '\x7b' ∧ isWhitespace c = false)) = true) :
    ∀ c ∈ name.toList, c ≠ '\x7b' ∧ isWhitespace c = false :=
  fun c hc => of_decide_eq_true (List.all_eq_true.mp h c hc)

/-- Two models that wait, with a decoy and a comment among them. -/
def twoModels : List Line :=
  [.comment " TYPE vllm:num_requests_waiting gauge" (by decide),
    .sample ⟨"vllm:num_requests_waiting", some "model=\"a # \x7d 9\"", "3", .finite 3,
      plain_of_all (by decide), by simp, by decide +kernel⟩,
    .sample ⟨"vllm:num_requests_waiting_total", none, "999", .finite 999,
      plain_of_all (by decide), by simp, by decide +kernel⟩,
    .sample ⟨"vllm:num_requests_waiting", some "model=\"b\"", "45e-1", .finite (9 / 2),
      plain_of_all (by decide), by simp, by decide +kernel⟩,
    .sample ⟨"vllm:gpu_cache_usage_perc", none, "0.4321", .finite (4321 / 10000),
      plain_of_all (by decide), by simp, by decide +kernel⟩]

theorem scrape_exposition_twoModels :
    let self := Backend.new 0 "http://b" 1 (.new 0 (1 / 2) 5 60 30)
    (self.applyScrape (exposition twoModels)).queueDepth = 7 ∧
      (self.applyScrape (exposition twoModels)).kvCacheUsageBp = 4321 := by
  intro self
  have hSum : ⌊((waiting twoModels).map F64.positivePart).sum⌋₊ = 7 := by decide +kernel
  have hHighest : ⌊10000 * ((cacheUsage twoModels).map F64.unitPart).foldl max 0⌋₊ = 4321 := by decide +kernel
  obtain ⟨hQueue, hKv, _⟩ := scrape_exposition twoModels self (by decide +kernel) (by decide +kernel)
  rw [hQueue, hKv]
  exact ⟨hSum, hHighest⟩

end InferenceRouter
