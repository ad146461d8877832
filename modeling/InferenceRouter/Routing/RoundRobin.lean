import InferenceRouter.Routing.Basic

/-! Weighted round robin. A slot in `0..totalWeight` belongs to one backend, and
each backend owns as many slots as its weight says, one at least. -/
namespace InferenceRouter

/-- `b.weight.max(1)` as a 64-bit number. -/
def Backend.slots (self : Backend) : Nat := max self.weight 1

/-- The sum fits a 64-bit number for any pool of fewer than 2^32 backends. -/
def totalWeight (routable : List Backend) : Nat := (routable.map Backend.slots).sum

/-- Map a slot in `0..totalWeight` to the backend owning it. -/
def weightedPick (slot : Nat) : List Backend → Option BackendId
  | [] => none
  | b :: rest => if slot < b.slots then some b.id else weightedPick (slot - b.slots) rest

structure RoundRobin where
  counter : Nat

namespace RoundRobin

def new : RoundRobin where
  counter := 0

def select (self : RoundRobin) (routable : List Backend) : Option BackendId × RoundRobin :=
  let total := totalWeight routable
  if total = 0 then (none, self)
  else (weightedPick (self.counter % total) routable, { counter := fetchAdd self.counter })

end RoundRobin

theorem Backend.slots_pos (b : Backend) : 0 < b.slots :=
  Nat.lt_of_lt_of_le Nat.zero_lt_one (Nat.le_max_right b.weight 1)

theorem totalWeight_cons (b : Backend) (rest : List Backend) :
    totalWeight (b :: rest) = b.slots + totalWeight rest := by
  simp [totalWeight]

theorem totalWeight_pos {routable : List Backend} (h : routable ≠ []) : 0 < totalWeight routable := by
  cases routable with
  | nil => exact absurd rfl h
  | cons b rest =>
      rw [totalWeight_cons]
      exact Nat.add_pos_left b.slots_pos _

/-- Every slot has an owner. -/
theorem weightedPick_of_lt {slot : Nat} {routable : List Backend} (h : slot < totalWeight routable) :
    ∃ b ∈ routable, weightedPick slot routable = some b.id := by
  induction routable generalizing slot with
  | nil => exact absurd h (Nat.not_lt_zero slot)
  | cons b rest ih =>
      rw [totalWeight_cons] at h
      by_cases hOwn : slot < b.slots
      · exact ⟨b, List.mem_cons_self .., by rw [weightedPick, if_pos hOwn]⟩
      · have hRest : slot - b.slots < totalWeight rest := by omega
        obtain ⟨owner, hMem, hPick⟩ := ih hRest
        exact ⟨owner, List.mem_cons_of_mem _ hMem, by rw [weightedPick, if_neg hOwn, hPick]⟩

/-- Whatever a counter has come to, its slot has an owner. -/
theorem weightedPick_mod (counter : Nat) {routable : List Backend} (h : routable ≠ []) :
    ∃ b ∈ routable, weightedPick (counter % totalWeight routable) routable = some b.id :=
  weightedPick_of_lt (Nat.mod_lt counter (totalWeight_pos h))

/-- With weights 1 and 3, the second backend gets three slots of four. -/
example :
    let b (id : BackendId) (weight : Nat) : Backend := .new id "http://b" weight (.new 0 (1 / 2) 10 10 30)
    (List.range 8).map (fun slot => weightedPick (slot % totalWeight [b 0 1, b 1 3]) [b 0 1, b 1 3]) =
      [some 0, some 1, some 1, some 1, some 0, some 1, some 1, some 1] := by
  decide

end InferenceRouter
