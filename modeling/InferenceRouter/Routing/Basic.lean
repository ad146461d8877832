import InferenceRouter.Backend

/-! What a routing strategy sees: the request, and the routable backends with
the counter values it reads. -/
namespace InferenceRouter

/-- `serde_json::Value`; the keys of an object are distinct. -/
inductive Json where
  | null
  | bool (value : Bool)
  | number (text : String)
  | string (text : String)
  | array (items : List Json)
  | object (fields : List (String × Json))

namespace Json

def get (self : Json) (key : String) : Option Json :=
  match self with
  | .object fields => fields.lookup key
  | _ => none

def asStr : Json → Option String
  | .string text => some text
  | _ => none

def asArray : Json → Option (List Json)
  | .array items => some items
  | _ => none

end Json

structure IncomingRequest where
  path : String
  body : Option Json

/-- The ids of a list of backends. -/
def ids (backends : List Backend) : List BackendId := backends.map Backend.id

/-- `Iterator::min_by_key`: the first of the least. -/
def minByKey {α : Type} (key : α → Nat) : List α → Option α
  | [] => none
  | first :: rest => some (rest.foldl (fun best a => if key a < key best then a else best) first)

section Least

variable {α : Type} {key : α → Nat} {l : List α} {a : α}

/-- `a` is the first element of the list with the least key. -/
def FirstLeast (key : α → Nat) (l : List α) (a : α) : Prop :=
  ∃ before after, l = before ++ a :: after ∧ (∀ other ∈ before, key a < key other) ∧
    ∀ other ∈ after, key a ≤ key other

theorem FirstLeast.concat (h : FirstLeast key l a) (next : α) :
    FirstLeast key (l ++ [next]) (if key next < key a then next else a) := by
  obtain ⟨before, after, rfl, hBefore, hAfter⟩ := h
  split
  · rename_i hLess
    refine ⟨before ++ a :: after, [], rfl, fun other hOther => ?_, by simp⟩
    rcases List.mem_append.mp hOther with hEarlier | hLater
    · exact hLess.trans (hBefore other hEarlier)
    · rcases List.mem_cons.mp hLater with rfl | hLater
      · exact hLess
      · exact hLess.trans_le (hAfter other hLater)
  · rename_i hNotLess
    refine ⟨before, after ++ [next], by simp, hBefore, fun other hOther => ?_⟩
    rcases List.mem_append.mp hOther with hLater | hNext
    · exact hAfter other hLater
    · rw [List.mem_singleton.mp hNext]
      exact Nat.le_of_not_lt hNotLess

/-- `minByKey` picks the first of the least. -/
theorem minByKey_firstLeast (key : α → Nat) (h : l ≠ []) :
    ∃ a, minByKey key l = some a ∧ FirstLeast key l a := by
  have hFold (first : α) (rest : List α) : FirstLeast key (first :: rest)
      (rest.foldl (fun best a => if key a < key best then a else best) first) := by
    induction rest using List.reverseRecOn with
    | nil => exact ⟨[], [], rfl, by simp, by simp⟩
    | append_singleton rest next ih =>
        rw [List.foldl_append, List.foldl_cons, List.foldl_nil, ← List.cons_append]
        exact ih.concat next
  cases l with
  | nil => exact absurd rfl h
  | cons first rest => exact ⟨_, rfl, hFold first rest⟩

theorem FirstLeast.mem (h : FirstLeast key l a) : a ∈ l := by
  obtain ⟨before, after, rfl, _, _⟩ := h
  simp

/-- Keys that agree on the list agree on the first of the least. -/
theorem FirstLeast.congr {key' : α → Nat} (h : FirstLeast key l a)
    (hKeys : ∀ b ∈ l, key b = key' b) : FirstLeast key' l a := by
  have hSelf := hKeys a h.mem
  obtain ⟨before, after, rfl, hBefore, hAfter⟩ := h
  refine ⟨before, after, rfl, fun other hOther => ?_, fun other hOther => ?_⟩
  · rw [← hSelf, ← hKeys other (by simp [hOther])]
    exact hBefore other hOther
  · rw [← hSelf, ← hKeys other (by simp [hOther])]
    exact hAfter other hOther

end Least

end InferenceRouter
