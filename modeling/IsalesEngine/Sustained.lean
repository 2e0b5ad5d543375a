import Mathlib.Algebra.Order.Monoid.Defs
import Mathlib.Algebra.Order.BigOperators.Group.List
import Mathlib.Data.List.Infix

/-!
A property that has held long enough. Each item of a history has a weight; the
property is sustained when it holds on a run at the end of the history that weighs
more than a limit. In a history that is heavy enough itself, it is sustained
exactly if no item without it lies within the limit of the end.
-/
namespace Sustained
variable {α M : Type} [AddCommMonoid M]

def total (weight : α → M) (items : List α) : M := (items.map weight).sum

theorem total_append (weight : α → M) (items more : List α) :
    total weight (items ++ more) = total weight items + total weight more := by
  rw [total, List.map_append, List.sum_append]
  rfl

theorem total_concat (weight : α → M) (items : List α) (item : α) :
    total weight (items ++ [item]) = total weight items + weight item := by
  rw [total_append]
  simp [total]

variable [LinearOrder M] {p : α → Prop} {weight : α → M} {limit : M} {history run : List α}

/-- A run at the end of the history, all with the property, exceeds the limit. -/
def Holds (p : α → Prop) (weight : α → M) (limit : M) (history : List α) : Prop :=
  ∃ run, run <:+ history ∧ run ≠ [] ∧ (∀ item ∈ run, p item) ∧ limit < total weight run

/-- The last item lacks the property, or one that does has no more than the limit behind it. -/
def Recent (p : α → Prop) (weight : α → M) (limit : M) (history : List α) : Prop :=
  ∃ item rest, (item :: rest) <:+ history ∧ ¬ p item ∧ (rest = [] ∨ total weight rest ≤ limit)

/-- Behind its last item without the property, a history has it throughout. -/
theorem all_or_last (p : α → Prop) (history : List α) : (∀ item ∈ history, p item) ∨
      ∃ item rest, (item :: rest) <:+ history ∧ ¬ p item ∧ ∀ later ∈ rest, p later := by
  induction history with
  | nil => exact Or.inl nofun
  | cons head tail ih =>
      obtain all | ⟨item, rest, initial, lacks, later⟩ := ih
      · by_cases has : p head
        · exact Or.inl (List.forall_mem_cons.mpr ⟨has, all⟩)
        · exact Or.inr ⟨head, tail, List.suffix_rfl, has, all⟩
      · exact Or.inr ⟨item, rest, initial.trans (List.suffix_cons head tail), lacks, later⟩

variable [IsOrderedAddMonoid M]

section
variable (nonneg : ∀ item, 0 ≤ weight item)
include nonneg

theorem total_le_of_suffix (ends : run <:+ history) : total weight run ≤ total weight history := by
  obtain ⟨front, rfl⟩ := ends
  rw [total_append]
  have positive : 0 ≤ total weight front := by
    refine List.sum_nonneg fun m member => ?_
    obtain ⟨item, -, rfl⟩ := List.mem_map.mp member
    exact nonneg item
  exact le_add_of_nonneg_left positive

theorem Holds.not_recent (holds : Holds p weight limit history) :
    ¬ Recent p weight limit history := by
  obtain ⟨run, ends, nonempty, all, long⟩ := holds
  rintro ⟨item, rest, ends', lacks, short⟩
  obtain inside | inside := List.suffix_or_suffix_of_suffix ends ends'
  · obtain same | behind := List.suffix_cons_iff.mp inside
    · exact lacks (all item (same ▸ List.mem_cons_self))
    · obtain rfl | short := short
      · exact nonempty (List.suffix_nil.mp behind)
      · exact absurd (lt_of_lt_of_le long (total_le_of_suffix nonneg behind)) (not_lt.mpr short)
  · exact lacks (all item (inside.subset List.mem_cons_self))

theorem holds_iff_not_recent (nonempty : history ≠ []) (long : limit < total weight history) :
    Holds p weight limit history ↔ ¬ Recent p weight limit history := by
  refine ⟨fun holds => holds.not_recent nonneg, fun recent => ?_⟩
  obtain all | ⟨item, rest, ends, lacks, later⟩ := all_or_last p history
  · exact ⟨history, List.suffix_rfl, nonempty, all, long⟩
  · have behind : rest <:+ history := (List.suffix_cons item rest).trans ends
    refine ⟨rest, behind, fun empty => ?_, later, ?_⟩
    · exact recent ⟨item, rest, ends, lacks, Or.inl empty⟩
    · exact not_le.mp fun short => recent ⟨item, rest, ends, lacks, Or.inr short⟩

end

end Sustained
