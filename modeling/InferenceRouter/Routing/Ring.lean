import InferenceRouter.Backend
import InferenceRouter.Semantics.CyclicSearch
import Mathlib.Data.Prod.Lex

/-! Consistent hashing with virtual nodes. The ring is built once for all
backends; a lookup skips the points of backends that are not routable. The hash
is a parameter: nothing here depends on which function it is. -/
namespace InferenceRouter

open Semantics.CyclicSearch

/-- The first eight bytes of a digest, read as an unsigned number. -/
abbrev KeyHash := Fin wordSize

/-- `hash_key`, whatever digest it uses. -/
abbrev Hasher := ByteArray → KeyHash

/-- The order of `(u64, BackendId)`: by hash, and by backend where hashes agree. -/
def pointLe (a b : KeyHash × BackendId) : Bool := toLex a ≤ toLex b

theorem pointLe_iff {a b : KeyHash × BackendId} :
    pointLe a b = true ↔ a.1 < b.1 ∨ a.1 = b.1 ∧ a.2 ≤ b.2 := by
  rw [pointLe, decide_eq_true_eq, Prod.Lex.toLex_le_toLex]

theorem pointLe_trans (a b c : KeyHash × BackendId) (hab : pointLe a b) (hbc : pointLe b c) :
    pointLe a c := by
  simp only [pointLe, decide_eq_true_eq] at *
  exact hab.trans hbc

theorem pointLe_total (a b : KeyHash × BackendId) : pointLe a b || pointLe b a := by
  simpa [pointLe] using le_total (toLex a) (toLex b)

theorem pointLe_antisymm (a b : KeyHash × BackendId) (hab : pointLe a b) (hba : pointLe b a) :
    a = b := by
  simp only [pointLe, decide_eq_true_eq] at hab hba
  exact toLex.injective (hab.antisymm hba)

/-- The points of a ring, in order. -/
structure HashRing where
  points : List (KeyHash × BackendId)
  sorted : points.Pairwise fun a b => pointLe a b = true

namespace HashRing

/-- The points before sorting: `vnodes` of each backend. -/
def vnodePoints (hashKey : Hasher) (numBackends vnodes : Nat) : List (KeyHash × BackendId) :=
  (List.range numBackends).flatMap fun id =>
    (List.range vnodes).map fun v => (hashKey s!"backend-{id}-vnode-{v}".toUTF8, id)

def new (hashKey : Hasher) (numBackends vnodes : Nat) : HashRing where
  points := (vnodePoints hashKey numBackends vnodes).mergeSort pointLe
  sorted := List.pairwise_mergeSort pointLe_trans pointLe_total _

/-- First ring point at or after `keyHash` whose backend is routable, wrapping
around. -/
def lookup (self : HashRing) (keyHash : KeyHash) (routable : BackendId → Bool) : Option BackendId :=
  if self.points.isEmpty then none
  else
    let start := partitionPoint (fun point => point.1 < keyHash) self.points
    ((cyclic self.points start).map Prod.snd).find? routable

/-- The points in the order in which a lookup sees them. -/
def clockwise (self : HashRing) (keyHash : KeyHash) : List (KeyHash × BackendId) :=
  (self.points.filter fun point => !decide (point.1 < keyHash)) ++
    self.points.filter fun point => point.1 < keyHash

theorem lookup_eq (self : HashRing) (keyHash : KeyHash) (routable : BackendId → Bool) :
    self.lookup keyHash routable = ((self.clockwise keyHash).map Prod.snd).find? routable := by
  have hPartitioned : Partitioned (fun point => decide (point.1 < keyHash)) self.points := by
    refine self.sorted.imp fun {a b} hLe hBefore => ?_
    rw [decide_eq_true_eq] at hBefore ⊢
    rcases pointLe_iff.mp hLe with hLt | ⟨hEq, _⟩
    · exact hLt.trans hBefore
    · exact hEq.trans_lt hBefore
  simp only [lookup, cyclic_partitionPoint hPartitioned, clockwise]
  split
  · rename_i hEmpty
    simp [List.isEmpty_iff.mp hEmpty]
  · rfl

theorem mem_clockwise (self : HashRing) (keyHash : KeyHash) (point : KeyHash × BackendId) :
    point ∈ self.clockwise keyHash ↔ point ∈ self.points := by
  by_cases hBefore : point.1 < keyHash <;> simp [clockwise, hBefore]

/-- A lookup finds a backend whenever some point belongs to a routable one. -/
theorem lookup_isSome_iff (self : HashRing) (keyHash : KeyHash) (routable : BackendId → Bool) :
    (self.lookup keyHash routable).isSome ↔ ∃ point ∈ self.points, routable point.2 = true := by
  rw [lookup_eq, List.find?_isSome]
  simp only [List.mem_map, mem_clockwise]
  constructor
  · rintro ⟨_, ⟨point, hPoint, rfl⟩, hRoutable⟩
    exact ⟨point, hPoint, hRoutable⟩
  · rintro ⟨point, hPoint, hRoutable⟩
    exact ⟨_, ⟨point, hPoint, rfl⟩, hRoutable⟩

theorem lookup_routable {self : HashRing} {keyHash : KeyHash} {routable : BackendId → Bool}
    {id : BackendId} (h : self.lookup keyHash routable = some id) : routable id = true := by
  rw [lookup_eq] at h
  exact List.find?_some h

/-- With fewer routable backends a key stays where it was, if it still may. -/
theorem lookup_of_subset {self : HashRing} {keyHash : KeyHash} {routable routable' : BackendId → Bool}
    {id : BackendId} (hSub : ∀ id, routable id = true → routable' id = true)
    (h : self.lookup keyHash routable' = some id) (hId : routable id = true) :
    self.lookup keyHash routable = some id := by
  rw [lookup_eq] at h ⊢
  exact find?_of_subset (fun id _ => hSub id) h hId

theorem mem_points_new (hashKey : Hasher) (numBackends vnodes : Nat) (point : KeyHash × BackendId) :
    point ∈ (new hashKey numBackends vnodes).points ↔ point ∈ vnodePoints hashKey numBackends vnodes := by
  simp [new]

/-- The backends on a ring are those it was built for. -/
theorem exists_mem_points_new_iff (hashKey : Hasher) (numBackends vnodes : Nat) (id : BackendId) :
    (∃ point ∈ (new hashKey numBackends vnodes).points, point.2 = id) ↔
      id < numBackends ∧ 0 < vnodes := by
  simp only [mem_points_new, vnodePoints, List.mem_flatMap, List.mem_map, List.mem_range]
  constructor
  · rintro ⟨_, ⟨id', hId, v, hv, rfl⟩, rfl⟩
    exact ⟨hId, Nat.zero_lt_of_lt hv⟩
  · rintro ⟨hId, hVnodes⟩
    exact ⟨_, ⟨id, hId, 0, hVnodes, rfl⟩, rfl⟩

/-- Building for more backends adds points of new backends only. -/
theorem vnodePoints_filter (hashKey : Hasher) {n m : Nat} (h : n ≤ m) (vnodes : Nat) :
    (vnodePoints hashKey m vnodes).filter (fun point => point.2 < n) = vnodePoints hashKey n vnodes := by
  obtain ⟨extra, rfl⟩ := Nat.exists_eq_add_of_le h
  have hOld : (vnodePoints hashKey n vnodes).filter (fun point => decide (point.2 < n)) =
      vnodePoints hashKey n vnodes := by
    rw [List.filter_eq_self]
    simp only [vnodePoints, List.mem_flatMap, List.mem_map, List.mem_range]
    rintro _ ⟨id, hId, v, _, rfl⟩
    exact decide_eq_true hId
  rw [vnodePoints, List.range_add, List.flatMap_append, List.filter_append]
  rw [show ((List.range n).flatMap fun id => (List.range vnodes).map fun v =>
    (hashKey s!"backend-{id}-vnode-{v}".toUTF8, id)) = vnodePoints hashKey n vnodes from rfl, hOld]
  have hNew : (((List.range extra).map (n + ·)).flatMap fun id => (List.range vnodes).map fun v =>
      (hashKey s!"backend-{id}-vnode-{v}".toUTF8, id)).filter (fun point => decide (point.2 < n)) = [] := by
    rw [List.filter_eq_nil_iff]
    simp only [List.mem_flatMap, List.mem_map, List.mem_range]
    rintro _ ⟨_, ⟨i, _, rfl⟩, v, _, rfl⟩
    simp
  rw [hNew, List.append_nil]

/-- So the larger ring, without the new backends, is the smaller one. -/
theorem points_filter (hashKey : Hasher) {n m : Nat} (h : n ≤ m) (vnodes : Nat) :
    (new hashKey m vnodes).points.filter (fun point => point.2 < n) = (new hashKey n vnodes).points := by
  simp only [new]
  rw [mergeSort_filter _ pointLe_trans pointLe_total pointLe_antisymm, vnodePoints_filter hashKey h]

theorem clockwise_filter (hashKey : Hasher) {n m : Nat} (h : n ≤ m) (vnodes : Nat) (keyHash : KeyHash) :
    ((new hashKey m vnodes).clockwise keyHash).filter (fun point => point.2 < n) =
      (new hashKey n vnodes).clockwise keyHash := by
  simp only [clockwise, List.filter_append, ← points_filter hashKey h vnodes]
  congr 1 <;> exact List.filter_comm ..

/-- Restricted to the old backends, both rings answer alike. -/
theorem lookup_restrict (hashKey : Hasher) {n m : Nat} (h : n ≤ m) (vnodes : Nat) (keyHash : KeyHash)
    (routable : BackendId → Bool) :
    (new hashKey m vnodes).lookup keyHash (fun id => decide (id < n) && routable id) =
      (new hashKey n vnodes).lookup keyHash routable := by
  rw [lookup_eq, lookup_eq, ← clockwise_filter hashKey h]
  simp only [List.find?_map, List.find?_filter, Function.comp_def, Bool.decide_and,
    Bool.decide_eq_true]

/-- Appending backends to the list moves a key to a new backend or not at all. -/
theorem scale_out (hashKey : Hasher) {n m : Nat} (h : n ≤ m) (vnodes : Nat) (keyHash : KeyHash)
    (routable : BackendId → Bool) :
    ((new hashKey m vnodes).lookup keyHash (fun id => decide (id < n) && routable id) =
      (new hashKey n vnodes).lookup keyHash (fun id => decide (id < n) && routable id)) ∧
    ∀ id < n, (new hashKey m vnodes).lookup keyHash routable = some id →
      (new hashKey n vnodes).lookup keyHash routable = some id := by
  constructor
  · rw [lookup_restrict hashKey h, ← lookup_restrict hashKey (Nat.le_refl n)]
  · intro id hId hLookup
    have hRoutable := lookup_routable hLookup
    rw [← lookup_restrict hashKey h]
    exact lookup_of_subset (by simp) hLookup (by simp [hId, hRoutable])

/-- A hash that only looks at lengths, so that all points collide. -/
theorem scale_out_from_one :
    let hashKey : Hasher := fun key => ⟨key.size % wordSize, Nat.mod_lt _ (by decide)⟩
    let keyHash := hashKey "prompt".toUTF8
    ((new hashKey 2 1).lookup keyHash (fun id => decide (id < 1) && true) =
      (new hashKey 1 1).lookup keyHash (fun id => decide (id < 1) && true)) ∧
    ∀ id < 1, (new hashKey 2 1).lookup keyHash (fun _ => true) = some id →
      (new hashKey 1 1).lookup keyHash (fun _ => true) = some id :=
  scale_out _ (by decide) 1 _ fun _ => true

end HashRing

end InferenceRouter
