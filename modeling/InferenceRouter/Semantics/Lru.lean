import Mathlib.Data.Finset.Card
import Mathlib.Data.List.Nodup

/-! Caches that evict the least recently used key, against the history of their
queries. A history orders its keys by their last query; a cache of any capacity
holds the first keys in that order, so it hits what was asked for again soon
enough. Nothing here refers to a particular program. -/
namespace Semantics.Lru

universe u

variable {α : Type u} [DecidableEq α] {key x : α} {l history : List α} {n : Nat}

/-- A query of a cache for `capacity` keys, which are listed latest first. -/
def touch (capacity : Nat) (entries : List α) (key : α) : List α :=
  if key ∈ entries then key :: entries.erase key else (key :: entries).take capacity

/-- What a cache holds after a history of queries. -/
def cache (capacity : Nat) (history : List α) : List α := history.foldl (touch capacity) []

/-- The keys of a history by their last query, latest first. -/
def recency (history : List α) : List α := history.foldl (fun order key => key :: order.erase key) []

@[simp] theorem cache_concat (capacity : Nat) (history : List α) (key : α) :
    cache capacity (history ++ [key]) = touch capacity (cache capacity history) key := by
  simp [cache]

@[simp] theorem recency_concat (history : List α) (key : α) :
    recency (history ++ [key]) = key :: (recency history).erase key := by
  simp [recency]

theorem erase_take_of_mem (h : key ∈ l.take (n + 1)) :
    (l.take (n + 1)).erase key = (l.erase key).take n := by
  induction l generalizing n with
  | nil => cases h
  | cons a l ih =>
      by_cases hKey : a = key
      · simp [hKey]
      · rw [List.take_succ_cons, List.mem_cons] at h
        rw [List.take_succ_cons, List.erase_cons_tail (by simpa using hKey),
          List.erase_cons_tail (by simpa using hKey)]
        rcases h with hSame | hLater
        · exact absurd hSame.symm hKey
        · cases n with
          | zero => simp at hLater
          | succ n => rw [ih hLater, List.take_succ_cons]

theorem take_erase_of_not_mem (h : key ∉ l.take n) : (l.erase key).take n = l.take n := by
  induction l generalizing n with
  | nil => rfl
  | cons a l ih =>
      cases n with
      | zero => rfl
      | succ n =>
          rw [List.take_succ_cons, List.mem_cons, not_or] at h
          rw [List.erase_cons_tail (by simpa using Ne.symm h.1), List.take_succ_cons, List.take_succ_cons,
            ih h.2]

/-- A query of the first keys of an order gives the first keys of the next order. -/
theorem touch_take (capacity : Nat) (order : List α) (key : α) :
    touch capacity (order.take capacity) key = (key :: order.erase key).take capacity := by
  cases capacity with
  | zero => simp [touch]
  | succ n =>
      rw [touch, List.take_succ_cons]
      split
      · rename_i hMem
        rw [erase_take_of_mem hMem, List.take_succ_cons]
      · rename_i hNotMem
        have hFewer : key ∉ order.take n := fun hMem =>
          hNotMem (List.take_subset_take_left order (Nat.le_succ n) hMem)
        rw [List.take_succ_cons, List.take_take, Nat.min_eq_left (Nat.le_succ n), take_erase_of_not_mem hFewer]

/-- A cache holds the latest keys of its history. -/
theorem cache_eq_take (capacity : Nat) (history : List α) :
    cache capacity history = (recency history).take capacity := by
  induction history using List.reverseRecOn with
  | nil => simp [cache, recency]
  | append_singleton history key ih => rw [cache_concat, recency_concat, ih, touch_take]

theorem recency_nodup (history : List α) : (recency history).Nodup := by
  induction history using List.reverseRecOn with
  | nil => exact List.nodup_nil
  | append_singleton history key ih =>
      rw [recency_concat, List.nodup_cons]
      exact ⟨ih.not_mem_erase, ih.erase key⟩

theorem cache_nodup (capacity : Nat) (history : List α) : (cache capacity history).Nodup := by
  rw [cache_eq_take]
  exact (List.take_sublist _ _).nodup (recency_nodup history)

theorem mem_recency_iff : key ∈ recency history ↔ key ∈ history := by
  induction history using List.reverseRecOn with
  | nil => exact Iff.rfl
  | append_singleton history last ih =>
      rw [recency_concat, List.mem_cons, (recency_nodup history).mem_erase_iff, ih, List.mem_append,
        List.mem_singleton]
      by_cases hLast : key = last <;> simp [hLast]

/-- Before a key in the order are the keys that were queried after it. -/
theorem recency_split (before : List α) {after : List α} (hLast : key ∉ after) :
    ∃ newer older, recency (before ++ key :: after) = newer ++ key :: older ∧
      ∀ x, x ∈ newer ↔ x ∈ after := by
  induction after using List.reverseRecOn with
  | nil => exact ⟨[], _, recency_concat before key, fun _ => Iff.rfl⟩
  | append_singleton after last ih =>
      simp only [List.mem_append, List.mem_singleton, not_or] at hLast
      obtain ⟨newer, older, hSplit, hNewer⟩ := ih hLast.1
      have hNodup := recency_nodup (before ++ key :: after)
      rw [hSplit] at hNodup
      rw [← List.cons_append, ← List.append_assoc, recency_concat, hSplit]
      by_cases hMem : last ∈ newer
      · refine ⟨last :: newer.erase last, older, ?_, fun x => ?_⟩
        · rw [List.erase_append_left _ hMem, List.cons_append]
        · rw [List.mem_cons, (List.nodup_append.mp hNodup).1.mem_erase_iff, hNewer, List.mem_append,
            List.mem_singleton]
          by_cases hSame : x = last <;> simp [hSame]
      · refine ⟨last :: newer, older.erase last, ?_, fun x => ?_⟩
        · rw [List.erase_append_right _ hMem, List.erase_cons_tail (by simpa using hLast.2), List.cons_append]
        · rw [List.mem_cons, hNewer, List.mem_append, List.mem_singleton]
          exact or_comm

omit [DecidableEq α] in
theorem mem_take_append_cons_iff {newer older : List α} (hNewer : key ∉ newer) :
    key ∈ (newer ++ key :: older).take n ↔ newer.length < n := by
  rw [List.take_append, List.mem_append]
  have hFirst : key ∉ newer.take n := fun hMem => hNewer (List.mem_of_mem_take hMem)
  by_cases hLt : newer.length < n
  · obtain ⟨k, hk⟩ := Nat.exists_eq_add_of_lt hLt
    have hRoom : n - newer.length = k + 1 := by omega
    simp [hRoom, hLt]
  · have hNone : n - newer.length = 0 := by omega
    simp [hNone, hLt, hFirst]

/-- A key is in the cache if fewer than `capacity` other keys were queried since its
last query. -/
theorem mem_cache_iff {capacity : Nat} : key ∈ cache capacity history ↔
    ∃ before after, history = before ++ key :: after ∧ key ∉ after ∧ after.toFinset.card < capacity := by
  have hPosition (before after : List α) (hLast : key ∉ after) :
      key ∈ cache capacity (before ++ key :: after) ↔ after.toFinset.card < capacity := by
    obtain ⟨newer, older, hSplit, hNewer⟩ := recency_split before hLast
    have hNodup := recency_nodup (before ++ key :: after)
    rw [hSplit, List.nodup_append] at hNodup
    obtain ⟨hNewerNodup, -, -⟩ := hNodup
    have hCard : newer.length = after.toFinset.card := by
      rw [← List.toFinset_card_of_nodup hNewerNodup]
      congr 1
      ext x
      simp [hNewer]
    rw [cache_eq_take, hSplit, mem_take_append_cons_iff fun h => hLast ((hNewer key).mp h), hCard]
  constructor
  · intro hMem
    have hHistory : key ∈ history := by
      rw [cache_eq_take] at hMem
      exact mem_recency_iff.mp (List.mem_of_mem_take hMem)
    obtain ⟨later, earlier, hReverse, hFirst⟩ := List.eq_append_cons_of_mem (List.mem_reverse.mpr hHistory)
    have hSplit : history = earlier.reverse ++ key :: later.reverse := by
      rw [← List.reverse_reverse history, hReverse]
      simp
    have hLast : key ∉ later.reverse := by simpa using hFirst
    refine ⟨_, _, hSplit, hLast, ?_⟩
    rwa [hSplit, hPosition _ _ hLast] at hMem
  · rintro ⟨before, after, rfl, hLast, hCard⟩
    exact (hPosition before after hLast).mpr hCard

/-- A larger cache holds what a smaller one holds. -/
theorem cache_subset_of_le {capacity capacity' : Nat} (h : capacity ≤ capacity') :
    cache capacity history ⊆ cache capacity' history := by
  rw [cache_eq_take, cache_eq_take]
  exact List.take_subset_take_left _ h

theorem length_cache_le (capacity : Nat) (history : List α) : (cache capacity history).length ≤ capacity := by
  rw [cache_eq_take]
  exact List.length_take_le _ _

/-- With room for every key, nothing is ever evicted. -/
theorem mem_cache_of_card_le {capacity : Nat} (h : history.toFinset.card ≤ capacity) :
    key ∈ cache capacity history ↔ key ∈ history := by
  have hLength : (recency history).length ≤ capacity := by
    rw [← List.toFinset_card_of_nodup (recency_nodup history)]
    refine le_trans (le_of_eq ?_) h
    congr 1
    ext x
    simp [mem_recency_iff]
  rw [cache_eq_take, List.take_of_length_le hLength, mem_recency_iff]

/-- How often the queries of a history miss, from given entries on. -/
def missesFrom (capacity : Nat) : List α → List α → Nat
  | _, [] => 0
  | entries, key :: later =>
      (if key ∈ entries then 0 else 1) + missesFrom capacity (touch capacity entries key) later

def misses (capacity : Nat) (history : List α) : Nat := missesFrom capacity [] history

theorem misses_concat (capacity : Nat) (history : List α) (key : α) :
    misses capacity (history ++ [key]) =
      misses capacity history + if key ∈ cache capacity history then 0 else 1 := by
  have hFrom (entries : List α) : missesFrom capacity entries (history ++ [key]) =
      missesFrom capacity entries history +
        if key ∈ history.foldl (touch capacity) entries then 0 else 1 := by
    induction history generalizing entries with
    | nil => exact Nat.add_comm _ _
    | cons first history ih => rw [List.cons_append, missesFrom, missesFrom, ih, List.foldl_cons, Nat.add_assoc]
  exact hFrom []

/-- With room for every key, each key misses once. -/
theorem misses_of_card_le {capacity : Nat} (h : history.toFinset.card ≤ capacity) :
    misses capacity history = history.toFinset.card := by
  induction history using List.reverseRecOn with
  | nil => rfl
  | append_singleton history key ih =>
      have hInsert : (history ++ [key]).toFinset = insert key history.toFinset := by
        ext x
        simp
      have hFewer : history.toFinset.card ≤ capacity :=
        (Finset.card_le_card (hInsert ▸ Finset.subset_insert key _)).trans h
      rw [misses_concat, ih hFewer, hInsert]
      by_cases hMem : key ∈ history
      · rw [if_pos ((mem_cache_of_card_le hFewer).mpr hMem),
          Finset.insert_eq_of_mem (List.mem_toFinset.mpr hMem), Nat.add_zero]
      · rw [if_neg fun hCached => hMem ((mem_cache_of_card_le hFewer).mp hCached),
          Finset.card_insert_of_notMem fun h => hMem (List.mem_toFinset.mp h)]

/-- A larger cache misses no more often. -/
theorem misses_le_of_le {capacity capacity' : Nat} (h : capacity ≤ capacity') (history : List α) :
    misses capacity' history ≤ misses capacity history := by
  induction history using List.reverseRecOn with
  | nil => exact Nat.le_refl _
  | append_singleton history key ih =>
      rw [misses_concat, misses_concat]
      have hSub : cache capacity history ⊆ cache capacity' history := cache_subset_of_le h
      by_cases hMem : key ∈ cache capacity history
      · rw [if_pos hMem, if_pos (hSub hMem)]
        exact ih
      · rw [if_neg hMem]
        split <;> omega

end Semantics.Lru
