import InferenceRouter.Routing.Ring

/-! What a lookup is for: it finds the clockwise successor of the key among the
points of routable backends. -/
namespace InferenceRouter

open Semantics.CyclicSearch

/-- How far a point lies ahead of a key, around the ring of 64-bit hashes. -/
def clockwiseDistance (keyHash pointHash : KeyHash) : Nat :=
  (pointHash.val + wordSize - keyHash.val) % wordSize

theorem clockwiseDistance_of_le {keyHash pointHash : KeyHash} (h : keyHash ≤ pointHash) :
    clockwiseDistance keyHash pointHash = pointHash.val - keyHash.val := by
  have hLe : keyHash.val ≤ pointHash.val := h
  have hLt := pointHash.isLt
  rw [clockwiseDistance, Nat.sub_add_comm hLe, Nat.add_mod_right]
  exact Nat.mod_eq_of_lt (by omega)

theorem clockwiseDistance_of_lt {keyHash pointHash : KeyHash} (h : pointHash < keyHash) :
    clockwiseDistance keyHash pointHash = pointHash.val + wordSize - keyHash.val := by
  have hLt : pointHash.val < keyHash.val := h
  exact Nat.mod_eq_of_lt (by omega)

/-- Going clockwise from the key, `a` comes no later than `b`. Points with one
hash come in the order of their backends. -/
def NoLater (keyHash : KeyHash) (a b : KeyHash × BackendId) : Prop :=
  clockwiseDistance keyHash a.1 < clockwiseDistance keyHash b.1 ∨
    clockwiseDistance keyHash a.1 = clockwiseDistance keyHash b.1 ∧ a.2 ≤ b.2

theorem NoLater.refl (keyHash : KeyHash) (a : KeyHash × BackendId) : NoLater keyHash a a :=
  .inr ⟨rfl, Nat.le_refl _⟩

theorem NoLater.antisymm {keyHash : KeyHash} {a b : KeyHash × BackendId} (hab : NoLater keyHash a b)
    (hba : NoLater keyHash b a) : a.2 = b.2 := by
  rcases hab with hLt | ⟨hEq, hLe⟩
  · rcases hba with hGt | ⟨hEq, _⟩
    · exact absurd hLt (Nat.lt_asymm hGt)
    · exact absurd hEq hLt.ne'
  · rcases hba with hGt | ⟨_, hGe⟩
    · exact absurd hEq hGt.ne'
    · exact Nat.le_antisymm hLe hGe

/-- On one side of the key, the order of the ring is the clockwise one. -/
theorem NoLater.of_pointLe {keyHash : KeyHash} {a b : KeyHash × BackendId}
    (hSide : (a.1 < keyHash ↔ b.1 < keyHash)) (h : pointLe a b = true) : NoLater keyHash a b := by
  have hHash : a.1 < b.1 → clockwiseDistance keyHash a.1 < clockwiseDistance keyHash b.1 := by
    intro hLt
    have hVal : a.1.val < b.1.val := hLt
    by_cases hBefore : b.1 < keyHash
    · have hKey : b.1.val < keyHash.val := hBefore
      have hWord := keyHash.isLt
      rw [clockwiseDistance_of_lt (hSide.mpr hBefore), clockwiseDistance_of_lt hBefore]
      omega
    · have hKey : keyHash.val ≤ a.1.val := not_lt.mp (hBefore ∘ hSide.mp)
      rw [clockwiseDistance_of_le (not_lt.mp (hBefore ∘ hSide.mp)),
        clockwiseDistance_of_le (not_lt.mp hBefore)]
      omega
  rcases pointLe_iff.mp h with hLt | ⟨hEq, hLe⟩
  · exact .inl (hHash hLt)
  · exact .inr ⟨by rw [hEq], hLe⟩

/-- A point at or after the key comes before all that lie behind it. -/
theorem NoLater.of_sides {keyHash : KeyHash} {a b : KeyHash × BackendId} (ha : ¬a.1 < keyHash)
    (hb : b.1 < keyHash) : NoLater keyHash a b := by
  have hKey : keyHash.val ≤ a.1.val := not_lt.mp ha
  have hWord := a.1.isLt
  refine .inl ?_
  rw [clockwiseDistance_of_le (not_lt.mp ha), clockwiseDistance_of_lt hb]
  omega

namespace HashRing

variable {ring : HashRing} {keyHash : KeyHash} {routable : BackendId → Bool}

/-- The point of a routable backend that comes first, clockwise from the key. -/
structure Successor (ring : HashRing) (keyHash : KeyHash) (routable : BackendId → Bool)
    (point : KeyHash × BackendId) : Prop where
  mem : point ∈ ring.points
  admitted : routable point.2 = true
  least : ∀ other ∈ ring.points, routable other.2 = true → NoLater keyHash point other

theorem Successor.unique {a b : KeyHash × BackendId} (ha : ring.Successor keyHash routable a)
    (hb : ring.Successor keyHash routable b) : a.2 = b.2 :=
  (ha.least b hb.mem hb.admitted).antisymm (hb.least a ha.mem ha.admitted)

/-- A lookup sees the points in the clockwise order. -/
theorem pairwise_clockwise (ring : HashRing) (keyHash : KeyHash) :
    (ring.clockwise keyHash).Pairwise (NoLater keyHash) := by
  rw [clockwise, List.pairwise_append]
  refine ⟨?_, ?_, ?_⟩
  · refine (ring.sorted.filter _).imp_of_mem fun {a b} ha hb hLe => NoLater.of_pointLe ?_ hLe
    have hNotBefore := (List.mem_filter.mp ha).2
    have hNotBefore' := (List.mem_filter.mp hb).2
    simp only [Bool.not_eq_true', decide_eq_false_iff_not] at hNotBefore hNotBefore'
    simp [hNotBefore, hNotBefore']
  · refine (ring.sorted.filter _).imp_of_mem fun {a b} ha hb hLe => NoLater.of_pointLe ?_ hLe
    have hBefore := (List.mem_filter.mp ha).2
    have hBefore' := (List.mem_filter.mp hb).2
    simp only [decide_eq_true_eq] at hBefore hBefore'
    simp [hBefore, hBefore']
  · intro a ha b hb
    refine NoLater.of_sides ?_ ?_
    · simpa using (List.mem_filter.mp ha).2
    · simpa using (List.mem_filter.mp hb).2

theorem exists_successor_of_lookup {id : BackendId} (h : ring.lookup keyHash routable = some id) :
    ∃ point, ring.Successor keyHash routable point ∧ point.2 = id := by
  rw [lookup_eq, List.find?_map, Option.map_eq_some_iff] at h
  obtain ⟨point, hFind, hId⟩ := h
  refine ⟨point, ⟨?_, List.find?_some (p := routable ∘ Prod.snd) hFind, ?_⟩, hId⟩
  · exact (ring.mem_clockwise keyHash point).mp (List.mem_of_find?_eq_some hFind)
  · intro other hOther hRoutable
    exact find?_le_of_pairwise (NoLater.refl keyHash) (ring.pairwise_clockwise keyHash) hFind other
      ((ring.mem_clockwise keyHash other).mpr hOther) hRoutable

theorem lookup_eq_none_iff : ring.lookup keyHash routable = none ↔
    ∀ point ∈ ring.points, routable point.2 = false := by
  rw [← Option.not_isSome_iff_eq_none, lookup_isSome_iff]
  simp

/-- A lookup is the clockwise successor: the backend of the nearest point ahead
of the key among all points of routable backends, the smaller id where points
coincide. It fails exactly when the ring has no point of a routable backend. -/
theorem lookup_successor (hashKey : Hasher) (numBackends vnodes : Nat) (keyHash : KeyHash)
    (routable : BackendId → Bool) :
    let ring := new hashKey numBackends vnodes
    (∀ id, ring.lookup keyHash routable = some id ↔
      ∃ point, ring.Successor keyHash routable point ∧ point.2 = id) ∧
    (ring.lookup keyHash routable = none ↔ ∀ point ∈ ring.points, routable point.2 = false) := by
  intro ring
  refine ⟨fun id => ⟨exists_successor_of_lookup, ?_⟩, lookup_eq_none_iff⟩
  rintro ⟨point, hSuccessor, rfl⟩
  have hSome : (ring.lookup keyHash routable).isSome :=
    (lookup_isSome_iff ..).mpr ⟨point, hSuccessor.mem, hSuccessor.admitted⟩
  obtain ⟨id, hLookup⟩ := Option.isSome_iff_exists.mp hSome
  obtain ⟨found, hFound, rfl⟩ := exists_successor_of_lookup hLookup
  rw [hLookup, hFound.unique hSuccessor]

/-- At a point the key is on it, and past the last point the ring wraps around. -/
example :
    let hash (n : Nat) : KeyHash := ⟨n % wordSize, Nat.mod_lt _ (by decide)⟩
    let ring : HashRing := ⟨[(hash 10, 1), (hash 20, 0), (hash 20, 2)], by decide +kernel⟩
    (ring.lookup (hash 10) fun _ => true) = some 1 ∧ (ring.lookup (hash 11) fun _ => true) = some 0 ∧
      (ring.lookup (hash 20) fun id => id ≠ 0) = some 2 ∧ (ring.lookup (hash 21) fun _ => true) = some 1 := by
  decide +kernel

end HashRing

end InferenceRouter
