import Mathlib.Data.List.Rotate
import Mathlib.Data.List.Sort

/-! Searching a sorted list from a point on, around its end. The entries at or
after the point come first, then those before it; both parts keep their order. -/
namespace Semantics.CyclicSearch

universe u

variable {α : Type u} {l : List α}

/-- The index where a list that is partitioned by `before` leaves it. -/
def partitionPoint (before : α → Bool) (l : List α) : Nat := (l.takeWhile before).length

/-- The entries of `l` from index `start` on, once around. -/
def cyclic (l : List α) (start : Nat) : List α :=
  (List.range l.length).filterMap fun i => l[(start + i) % l.length]?

theorem filterMap_getElem?_range (l : List α) :
    (List.range l.length).filterMap (fun i => l[i]?) = l := by
  induction l with
  | nil => rfl
  | cons a l ih =>
      rw [List.length_cons, List.range_succ_eq_map, List.filterMap_cons, List.filterMap_map]
      simpa using ih

theorem cyclic_eq_rotate (l : List α) (start : Nat) : cyclic l start = l.rotate start := by
  have hEntries : ∀ i ∈ List.range l.length, l[(start + i) % l.length]? = (l.rotate start)[i]? := by
    intro i hi
    rw [List.getElem?_rotate (List.mem_range.mp hi), Nat.add_comm]
  rw [cyclic, List.filterMap_congr hEntries, ← List.length_rotate l start, filterMap_getElem?_range]

/-- Everything before the point comes first. -/
def Partitioned (before : α → Bool) (l : List α) : Prop :=
  l.Pairwise fun a b => before b = true → before a = true

theorem takeWhile_eq_filter {before : α → Bool} (h : Partitioned before l) :
    l.takeWhile before = l.filter before := by
  induction l with
  | nil => rfl
  | cons a l ih =>
      obtain ⟨hFirst, hRest⟩ := List.pairwise_cons.mp h
      cases hBefore : before a with
      | true => simp [hBefore, ih hRest]
      | false =>
          have hNone : l.filter before = [] := by
            rw [List.filter_eq_nil_iff]
            intro b hb hbBefore
            simp [hFirst b hb hbBefore] at hBefore
          simp [hBefore, hNone]

theorem dropWhile_eq_filter {before : α → Bool} (h : Partitioned before l) :
    l.dropWhile before = l.filter fun a => !before a := by
  induction l with
  | nil => rfl
  | cons a l ih =>
      obtain ⟨hFirst, hRest⟩ := List.pairwise_cons.mp h
      cases hBefore : before a with
      | true => simp [hBefore, ih hRest]
      | false =>
          have hAll : l.filter (fun a => !before a) = l := by
            rw [List.filter_eq_self]
            intro b hb
            cases hb' : before b with
            | false => rfl
            | true => simp [hFirst b hb hb'] at hBefore
          simp [hBefore, hAll]

/-- A search from the partition point sees the later part first. -/
theorem cyclic_partitionPoint {before : α → Bool} (h : Partitioned before l) :
    cyclic l (partitionPoint before l) =
      (l.filter fun a => !before a) ++ l.filter before := by
  have hLe : partitionPoint before l ≤ l.length := (l.takeWhile_sublist before).length_le
  have hTake : l.take (partitionPoint before l) = l.takeWhile before :=
    (List.prefix_iff_eq_take.mp (l.takeWhile_prefix before)).symm
  have hDrop : l.drop (partitionPoint before l) = l.dropWhile before := by
    have hSplit := (l.take_append_drop (partitionPoint before l)).trans
      (l.takeWhile_append_dropWhile (p := before)).symm
    rw [hTake] at hSplit
    exact List.append_cancel_left hSplit
  rw [cyclic_eq_rotate, List.rotate_eq_drop_append_take hLe, hTake, hDrop, takeWhile_eq_filter h,
    dropWhile_eq_filter h]

/-- Admitting fewer entries keeps the first one found, if it is still admitted. -/
theorem find?_of_subset {admits admits' : α → Bool} {a : α}
    (hSub : ∀ b ∈ l, admits b = true → admits' b = true) (hFind : l.find? admits' = some a)
    (ha : admits a = true) : l.find? admits = some a := by
  induction l with
  | nil => cases hFind
  | cons b l ih =>
      have hSub' : ∀ c ∈ l, admits c = true → admits' c = true :=
        fun c hc => hSub c (List.mem_cons_of_mem _ hc)
      cases hb' : admits' b with
      | true =>
          rw [List.find?_cons_of_pos hb', Option.some.injEq] at hFind
          subst hFind
          exact List.find?_cons_of_pos ha
      | false =>
          have hb : ¬admits b = true := fun hb => by simp [hSub b (List.mem_cons_self ..) hb] at hb'
          rw [List.find?_cons_of_neg (by simp [hb'])] at hFind
          rw [List.find?_cons_of_neg hb]
          exact ih hSub' hFind

/-- In an ordered list a search finds the least of what it admits. -/
theorem find?_le_of_pairwise {le : α → α → Prop} (refl : ∀ a, le a a) (h : l.Pairwise le)
    {admits : α → Bool} {a : α} (hFind : l.find? admits = some a) :
    ∀ b ∈ l, admits b = true → le a b := by
  obtain ⟨_, before, after, rfl, hBefore⟩ := List.find?_eq_some_iff_append.mp hFind
  intro b hb hAdmits
  rcases List.mem_append.mp hb with hEarlier | hRest
  · exact absurd hAdmits (by simpa using hBefore b hEarlier)
  · rcases List.mem_cons.mp hRest with rfl | hLater
    · exact refl b
    · exact (List.pairwise_cons.mp (List.pairwise_append.mp h).2.1).1 b hLater

/-- Sorting commutes with filtering, when the order leaves no choice. -/
theorem mergeSort_filter {le : α → α → Bool} (keep : α → Bool)
    (trans : ∀ a b c, le a b → le b c → le a c) (total : ∀ a b, le a b || le b a)
    (antisymm : ∀ a b, le a b → le b a → a = b) (l : List α) :
    (l.mergeSort le).filter keep = (l.filter keep).mergeSort le := by
  have hPerm : ((l.mergeSort le).filter keep).Perm ((l.filter keep).mergeSort le) :=
    ((l.mergeSort_perm le).filter keep).trans ((l.filter keep).mergeSort_perm le).symm
  refine hPerm.eq_of_pairwise (fun a b _ _ => antisymm a b) ?_ (List.pairwise_mergeSort trans total _)
  exact (List.pairwise_mergeSort trans total l).filter keep

end Semantics.CyclicSearch
