import Mathlib.Algebra.Order.BigOperators.Group.List
import Mathlib.Algebra.Order.Monoid.NatCast
import Mathlib.Algebra.Order.Ring.Nat
import Mathlib.Data.Finset.Card
import Mathlib.Data.List.AList

/-! Families of metrics: one metric for each set of labels, created when it is
first asked for. The total of a family sums a weight over its labels. -/
namespace Semantics

universe u v

section EraseSum

variable {α : Type u} {β : α → Type v} [DecidableEq α]

/-- What is erased from a sum is the weight of the erased key. -/
theorem sum_kerase (weight : Sigma β → Nat) (a : α) {l : List (Sigma β)} (h : l.NodupKeys) :
    ((l.kerase a).map weight).sum + ((l.dlookup a).elim 0 fun b => weight ⟨a, b⟩) =
      (l.map weight).sum := by
  induction l with
  | nil => rfl
  | cons first rest ih =>
      obtain ⟨key, value⟩ := first
      have hRest := ih (List.nodupKeys_cons.mp h).2
      by_cases hKey : a = key
      · subst hKey
        simp only [List.kerase_cons_eq, List.dlookup_cons_eq, Option.elim_some, List.map_cons,
          List.sum_cons]
        exact Nat.add_comm _ _
      · rw [List.kerase_cons_ne hKey, List.dlookup_cons_ne rest ⟨key, value⟩ hKey]
        simp only [List.map_cons, List.sum_cons]
        omega

end EraseSum

/-- The metrics that exist so far, by label. -/
abbrev Family (Label : Type u) (Metric : Type v) := AList fun _ : Label => Metric

namespace Family

section Total

variable {Label : Type u} {Metric : Type v}

/-- A weight of labels and their metrics, summed over the family. -/
def total (weight : Label → Metric → Nat) (self : Family Label Metric) : Nat :=
  (self.entries.map fun entry => weight entry.1 entry.2).sum

/-- A family is no larger than the labels it may have. -/
theorem keys_length_le [DecidableEq Label] (self : Family Label Metric) (labels : Finset Label) (h : ∀ label ∈ self, label ∈ labels) :
    self.keys.length ≤ labels.card := by
  rw [← List.toFinset_card_of_nodup self.keys_nodup]
  refine Finset.card_le_card fun label hMem => h label ?_
  exact List.mem_toFinset.mp hMem

end Total

variable {Label : Type u} {Metric : Type v} [DecidableEq Label] [Inhabited Metric]

/-- The metric of a label; one that is not there yet has its initial value. -/
def get (self : Family Label Metric) (label : Label) : Metric := (self.lookup label).getD default

/-- Get the metric of a label, or create it, and change it. -/
def update (self : Family Label Metric) (label : Label) (change : Metric → Metric) :
    Family Label Metric :=
  self.insert label (change (self.get label))

variable (self : Family Label Metric) (label : Label) (change : Metric → Metric)

@[simp] theorem get_update_self : (self.update label change).get label = change (self.get label) := by
  rw [get, update, AList.lookup_insert, Option.getD_some]

@[simp] theorem get_update_of_ne {other : Label} (h : other ≠ label) :
    (self.update label change).get other = self.get other := by
  rw [get, update, AList.lookup_insert_ne h, get]

@[simp] theorem mem_update {other : Label} : other ∈ self.update label change ↔ other = label ∨ other ∈ self :=
  AList.mem_insert self

/-- A change of one metric changes the total by as much. -/
theorem total_update (weight : Label → Metric → Nat) (hInitial : weight label default = 0) :
    total weight (self.update label change) + weight label (self.get label) =
      total weight self + weight label (change (self.get label)) := by
  have hErased := sum_kerase (fun entry => weight entry.1 entry.2) label self.nodupKeys
  have hOld : ((self.entries.dlookup label).elim 0 fun b => weight label b) =
      weight label (self.get label) := by
    change (self.lookup label).elim 0 _ = weight label ((self.lookup label).getD default)
    cases self.lookup label with
    | none => exact hInitial.symm
    | some metric => rfl
  simp only [hOld] at hErased
  simp only [total, update, AList.insert, List.kinsert_def, List.map_cons, List.sum_cons]
  omega

end Family

end Semantics
