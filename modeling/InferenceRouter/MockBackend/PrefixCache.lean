import InferenceRouter.Semantics.Lru
import InferenceRouter.Semantics.Run

/-! The prefix cache of the mock backend. It is a cache of the least recently
used kind, so the keys asked for so far decide what it hits. -/
namespace InferenceRouter.MockBackend

open Semantics

/-- The keys stand in the order of `OrderedDict`, the next one to go first. -/
structure PrefixCache where
  capacity : Int
  entries : List String
  hits : Nat
  queries : Nat
  deriving DecidableEq

namespace PrefixCache

def new (capacity : Int) : PrefixCache where
  capacity := capacity
  entries := []
  hits := 0
  queries := 0

def lookup (self : PrefixCache) (key : String) : Bool × PrefixCache :=
  let self := { self with queries := self.queries + 1 }
  if key ∈ self.entries then
    (true, { self with entries := self.entries.erase key ++ [key], hits := self.hits + 1 })
  else
    let self := { self with entries := self.entries ++ [key] }
    if self.capacity < self.entries.length then (false, { self with entries := self.entries.tail })
    else (false, self)

/-- After the keys of a history were looked up. -/
def after (capacity : Int) (history : List String) : PrefixCache := (replay lookup (new capacity) history).2

@[simp] theorem after_concat (capacity : Int) (history : List String) (key : String) :
    after capacity (history ++ [key]) = ((after capacity history).lookup key).2 := by
  rw [after, replay_append]
  rfl

theorem lookup_of_mem {self : PrefixCache} {key : String} (h : key ∈ self.entries) :
    self.lookup key =
      (true, { self with entries := self.entries.erase key ++ [key], hits := self.hits + 1, queries := self.queries + 1 }) := by
  simp only [lookup, if_pos h]

theorem lookup_of_not_mem {self : PrefixCache} {key : String} (h : key ∉ self.entries) :
    self.lookup key =
      (false, { self with
        entries :=
          if self.capacity < (self.entries ++ [key]).length then (self.entries ++ [key]).tail else self.entries ++ [key]
        queries := self.queries + 1 }) := by
  simp only [lookup, if_neg h]
  split <;> rfl

theorem lookup_counts (self : PrefixCache) (key : String) :
    (self.lookup key).1 = decide (key ∈ self.entries) ∧
      (self.lookup key).2.queries = self.queries + 1 ∧
      (self.lookup key).2.hits = self.hits + if key ∈ self.entries then 1 else 0 := by
  by_cases hMem : key ∈ self.entries
  · rw [lookup_of_mem hMem, if_pos hMem]
    exact ⟨(decide_eq_true hMem).symm, rfl, rfl⟩
  · rw [lookup_of_not_mem hMem, if_neg hMem]
    exact ⟨(decide_eq_false hMem).symm, rfl, rfl⟩

/-- Read from its young end, the cache of the mock is the cache of the library. -/
structure Refines (capacity : Int) (history : List String) (s : PrefixCache) : Prop where
  room : s.capacity = capacity
  entries : s.entries.reverse = Lru.cache capacity.toNat history

theorem reverse_erase {entries : List String} (hNodup : entries.Nodup) (key : String) :
    (entries.erase key).reverse = entries.reverse.erase key := by
  rw [hNodup.erase_eq_filter, (List.nodup_reverse.mpr hNodup).erase_eq_filter, List.filter_reverse]

theorem Refines.lookup {capacity : Int} {history : List String} {self : PrefixCache}
    (h : Refines capacity history self) (key : String) :
    Refines capacity (history ++ [key]) (self.lookup key).2 := by
  obtain ⟨rfl, hEntries⟩ := h
  by_cases hMem : key ∈ self.entries
  · rw [lookup_of_mem hMem]
    refine ⟨rfl, ?_⟩
    have hNodup : self.entries.Nodup := by
      rw [← List.nodup_reverse, hEntries]
      exact Lru.cache_nodup _ _
    rw [Lru.cache_concat, ← hEntries, Lru.touch, if_pos (List.mem_reverse.mpr hMem), List.reverse_append,
      reverse_erase hNodup]
    rfl
  · rw [lookup_of_not_mem hMem]
    refine ⟨rfl, ?_⟩
    have hLength : self.entries.length ≤ self.capacity.toNat := by
      rw [← List.length_reverse, hEntries]
      exact Lru.length_cache_le _ _
    have hReverse : (self.entries ++ [key]).reverse = key :: self.entries.reverse := by simp
    have hGrown : (key :: self.entries.reverse).length = self.entries.length + 1 := by simp
    rw [Lru.cache_concat, ← hEntries, Lru.touch, if_neg (mt List.mem_reverse.mp hMem)]
    dsimp only
    rw [List.length_append, List.length_singleton]
    split
    · -- The cache was full, or it has no room at all.
      rename_i hFull
      have hFull' : self.entries.length = self.capacity.toNat := by omega
      rw [← List.dropLast_reverse, hReverse, List.dropLast_eq_take, hGrown, hFull', Nat.add_sub_cancel]
    · rename_i hRoom
      rw [hReverse, List.take_of_length_le]
      omega

theorem after_refines (capacity : Int) (history : List String) :
    Refines capacity history (after capacity history) := by
  induction history using List.reverseRecOn with
  | nil => exact ⟨rfl, rfl⟩
  | append_singleton history key ih =>
      rw [after_concat]
      exact ih.lookup key

variable {capacity : Int} {history : List String} {key : String}

theorem mem_entries_iff : key ∈ (after capacity history).entries ↔ key ∈ Lru.cache capacity.toNat history := by
  rw [← (after_refines capacity history).entries, List.mem_reverse]

theorem queries_after (capacity : Int) (history : List String) :
    (after capacity history).queries = history.length := by
  induction history using List.reverseRecOn with
  | nil => rfl
  | append_singleton history key ih =>
      obtain ⟨-, hQueries, -⟩ := (after capacity history).lookup_counts key
      rw [after_concat, hQueries, ih, List.length_append, List.length_singleton]

/-- A query hits or misses. -/
theorem hits_add_misses (capacity : Int) (history : List String) :
    (after capacity history).hits + Lru.misses capacity.toNat history = history.length := by
  induction history using List.reverseRecOn with
  | nil => rfl
  | append_singleton history key ih =>
      obtain ⟨-, -, hHits⟩ := (after capacity history).lookup_counts key
      rw [after_concat, hHits, Lru.misses_concat, List.length_append, List.length_singleton, ← ih]
      by_cases hMem : key ∈ (after capacity history).entries
      · rw [if_pos hMem, if_pos (mem_entries_iff.mp hMem)]
        omega
      · rw [if_neg hMem, if_neg (mt mem_entries_iff.mpr hMem)]
        omega

/-- The history decides. A key hits if fewer than `capacity` others were looked up
since it last was, the size stays bounded, no lookup goes uncounted, a larger cache
hits no less often, and one with room for every key misses each of them once. -/
theorem hits_recent (capacity : Int) (history : List String) (key : String) :
    (((after capacity history).lookup key).1 = true ↔
      ∃ before later, history = before ++ key :: later ∧ key ∉ later ∧ (later.toFinset.card : Int) < capacity) ∧
    ((after capacity history).entries.length : Int) ≤ max capacity 0 ∧
    (after capacity history).queries = history.length ∧
    (∀ capacity' ≥ capacity, (after capacity history).hits ≤ (after capacity' history).hits) ∧
    (history.toFinset.card ≤ capacity →
      (after capacity history).hits + history.toFinset.card = history.length) := by
  refine ⟨?_, ?_, queries_after capacity history, fun capacity' hLe => ?_, fun hRoom => ?_⟩
  · rw [((after capacity history).lookup_counts key).1, decide_eq_true_eq, mem_entries_iff, Lru.mem_cache_iff]
    constructor
    · rintro ⟨before, later, hHistory, hLast, hCard⟩
      exact ⟨before, later, hHistory, hLast, by omega⟩
    · rintro ⟨before, later, hHistory, hLast, hCard⟩
      exact ⟨before, later, hHistory, hLast, by omega⟩
  · have hLength := Lru.length_cache_le capacity.toNat history
    rw [← (after_refines capacity history).entries, List.length_reverse] at hLength
    omega
  · have hMisses := Lru.misses_le_of_le (Int.toNat_le_toNat hLe) history
    have hCount := hits_add_misses capacity history
    have hCount' := hits_add_misses capacity' history
    omega
  · have hMisses : Lru.misses capacity.toNat history = history.toFinset.card :=
      Lru.misses_of_card_le (by omega)
    rw [← hMisses, hits_add_misses]

example :
    let keys := ["system A | hello", "system A | hello", "system B | hello", "system C | hello", "system A | hello"]
    (replay lookup (new 2) keys).1 = [false, true, false, false, false] := by
  decide

end PrefixCache

end InferenceRouter.MockBackend
