import IsalesEngine.Framing
import Mathlib.Data.List.Nodup
import Mathlib.Data.List.Perm.Subperm

/-!
Picking from a pool without repetition until it is used up, and then anew. The
picks so far are whole rounds, in each of which everything came once, followed by
the round that is going on.
-/
namespace Rounds
variable {α : Type} {pool used picks : List α} {a : α}

/-- The picks so far, of which `used` are those of the current round. -/
structure Fair (pool used picks : List α) : Prop where
  rounds : ∃ rounds : List (List α), picks = rounds.flatten ++ used ∧ ∀ r ∈ rounds, r.Perm pool
  nodup : used.Nodup
  inside : used ⊆ pool

namespace Fair

theorem start (pool : List α) : Fair pool [] [] where
  rounds := ⟨[], rfl, fun _ inside => by cases inside⟩
  nodup := List.nodup_nil
  inside := List.nil_subset pool

variable (fair : Fair pool used picks)
include fair

/-- Something is picked that has not come in this round. -/
theorem pick (member : a ∈ pool) (fresh : a ∉ used) : Fair pool (used ++ [a]) (picks ++ [a]) where
  rounds := by
    obtain ⟨rounds, split, perms⟩ := fair.rounds
    exact ⟨rounds, by rw [split, List.append_assoc], perms⟩
  nodup := by
    rw [← List.concat_eq_append]
    exact fair.nodup.concat fresh
  inside := by
    apply List.append_subset.mpr
    exact ⟨fair.inside, fun _ same => List.mem_singleton.mp same ▸ member⟩

theorem perm (distinct : pool.Nodup) (spent : pool ⊆ used) : used.Perm pool :=
  (List.perm_ext_iff_of_nodup fair.nodup distinct).mpr fun _ =>
    ⟨fun member => fair.inside member, fun member => spent member⟩

/-- The pool is used up, and a new round begins. -/
theorem restart (distinct : pool.Nodup) (spent : pool ⊆ used) (member : a ∈ pool) :
    Fair pool [a] (picks ++ [a]) where
  rounds := by
    obtain ⟨rounds, split, perms⟩ := fair.rounds
    refine ⟨rounds ++ [used], by rw [split, List.flatten_concat], ?_⟩
    intro r inside
    rcases List.mem_append.mp inside with before | last
    · exact perms r before
    · rw [List.mem_singleton.mp last]
      exact fair.perm distinct spent
  nodup := List.nodup_singleton a
  inside := fun _ same => List.mem_singleton.mp same ▸ member

end Fair

/-- Cut into blocks as long as the pool, these are rounds and a part of one. -/
def Cut (pool picks : List α) : Prop :=
  (∀ block ∈ Framing.cut pool.length picks, block.Perm pool) ∧
    (Framing.rest pool.length picks).Nodup

theorem Cut.round {r : List α} (cut : Cut pool picks) (nonempty : pool ≠ [])
    (round : r.Perm pool) : Cut pool (r ++ picks) := by
  have positive : 0 < pool.length := List.length_pos_iff.mpr nonempty
  rw [Cut, Framing.cut_frame_append positive round.length_eq,
    Framing.rest_frame_append positive round.length_eq]
  refine ⟨?_, cut.2⟩
  intro block inside
  rcases List.mem_cons.mp inside with rfl | later
  · exact round
  · exact cut.1 block later

theorem Cut.rounds {rounds : List (List α)} (cut : Cut pool picks) (nonempty : pool ≠ [])
    (perms : ∀ r ∈ rounds, r.Perm pool) : Cut pool (rounds.flatten ++ picks) := by
  induction rounds with
  | nil => exact cut
  | cons r rounds ih =>
      rw [List.flatten_cons, List.append_assoc]
      apply Cut.round _ nonempty (perms r List.mem_cons_self)
      exact ih fun r later => perms r (List.mem_cons_of_mem _ later)

theorem Cut.short (short : picks.length < pool.length) (nodup : picks.Nodup) : Cut pool picks := by
  rw [Cut, Framing.cut_of_short short, Framing.rest_of_short short]
  exact ⟨fun _ inside => (by cases inside), nodup⟩

namespace Fair

variable (fair : Fair pool used picks)
include fair

theorem cut_used (nonempty : pool ≠ []) : Cut pool used := by
  rcases Nat.lt_or_ge used.length pool.length with short | whole
  · exact Cut.short short fair.nodup
  · have perm : used.Perm pool :=
      (List.subperm_of_subset fair.nodup fair.inside).perm_of_length_le whole
    have last : Cut pool ([] : List α) :=
      Cut.short (List.length_pos_iff.mpr nonempty) List.nodup_nil
    have cut := last.round nonempty perm
    rwa [List.append_nil] at cut

theorem cut (nonempty : pool ≠ []) : Cut pool picks := by
  obtain ⟨rounds, rfl, perms⟩ := fair.rounds
  exact (fair.cut_used nonempty).rounds nonempty perms

theorem subset : picks ⊆ pool := by
  obtain ⟨rounds, rfl, perms⟩ := fair.rounds
  apply List.append_subset.mpr
  refine ⟨?_, fair.inside⟩
  intro a member
  obtain ⟨r, inside, own⟩ := List.mem_flatten.mp member
  exact (perms r inside).subset own

end Fair
end Rounds
