import Mathlib.Data.List.Infix

/-!
Two runs of one system, of which the second takes further steps in between. A
relation that a common step keeps, and a further step keeps if it is harmless,
bounds what the further steps can be seen to do.
-/
namespace Asyncio
variable {σ ε : Type}

/-- A step of both runs, or one that only the second run takes. -/
inductive Woven (ε : Type) where
  | both (e : ε)
  | extra (e : ε)

namespace Woven

/-- The steps of the first run. -/
def base : List (Woven ε) → List ε
  | [] => []
  | .both e :: w => e :: base w
  | .extra _ :: w => base w

/-- The steps of the second run. -/
def full : List (Woven ε) → List ε
  | [] => []
  | .both e :: w | .extra e :: w => e :: full w

section Unwinding
variable {agree : σ → σ → Prop} {allowed harmless : σ → ε → Prop} {P : List (Woven ε) → ε → Prop}

theorem forall_extra_nil : (∀ p e, p ++ [.extra e] <+: ([] : List (Woven ε)) → P p e) ↔ True := by
  simp

theorem forall_extra_both {x : ε} {w : List (Woven ε)} :
    (∀ p e, p ++ [.extra e] <+: .both x :: w → P p e) ↔
      ∀ p e, p ++ [.extra e] <+: w → P (.both x :: p) e := by
  constructor
  · exact fun all p e inside => all (.both x :: p) e (List.cons_prefix_cons.mpr ⟨rfl, inside⟩)
  · rintro later (_ | ⟨y, p⟩) e inside
    · cases (List.cons_prefix_cons.mp inside).1
    · obtain ⟨rfl, behind⟩ := List.cons_prefix_cons.mp inside
      exact later p e behind

theorem forall_extra_extra {x : ε} {w : List (Woven ε)} :
    (∀ p e, p ++ [.extra e] <+: .extra x :: w → P p e) ↔
      P [] x ∧ ∀ p e, p ++ [.extra e] <+: w → P (.extra x :: p) e := by
  constructor
  · intro all
    refine ⟨all [] x (List.cons_prefix_cons.mpr ⟨rfl, List.nil_prefix⟩), ?_⟩
    exact fun p e inside => all (.extra x :: p) e (List.cons_prefix_cons.mpr ⟨rfl, inside⟩)
  · rintro ⟨here, later⟩ (_ | ⟨y, p⟩) e inside
    · obtain ⟨same, -⟩ := List.cons_prefix_cons.mp inside
      exact Woven.extra.inj same ▸ here
    · obtain ⟨rfl, behind⟩ := List.cons_prefix_cons.mp inside
      exact later p e behind

/-- The two runs agree all along exactly if every further step is harmless. -/
theorem agree_iff (step : σ → ε → σ) (related : σ → σ → Prop)
    (agrees : ∀ {s t}, related s t → agree s t)
    (both : ∀ {s t e}, related s t → related (step s e) (step t e))
    (extra : ∀ {s t e}, related s t → allowed t e → harmless t e → related s (step t e))
    (seen : ∀ {s t e}, related s t → allowed t e → agree s (step t e) → harmless t e)
    {s t : σ} (w : List (Woven ε)) (start : related s t)
    (only : ∀ p e, p ++ [.extra e] <+: w → allowed ((full p).foldl step t) e) :
    (∀ p, p <+: w → agree ((base p).foldl step s) ((full p).foldl step t)) ↔
      ∀ p e, p ++ [.extra e] <+: w → harmless ((full p).foldl step t) e := by
  induction w generalizing s t with
  | nil =>
      refine ⟨fun _ => forall_extra_nil.mpr trivial, fun _ p inside => ?_⟩
      rw [List.prefix_nil.mp inside]
      exact agrees start
  | cons x w ih =>
      have split : (∀ p, p <+: x :: w → agree ((base p).foldl step s) ((full p).foldl step t)) ↔
          ∀ p, p <+: w → agree ((base (x :: p)).foldl step s) ((full (x :: p)).foldl step t) := by
        constructor
        · exact fun all p inside => all (x :: p) (List.cons_prefix_cons.mpr ⟨rfl, inside⟩)
        · rintro later (_ | ⟨y, p⟩) inside
          · exact agrees start
          · obtain ⟨rfl, behind⟩ := List.cons_prefix_cons.mp inside
            exact later p behind
      rw [split]
      cases x with
      | both e =>
          rw [forall_extra_both]
          exact ih (both start) (forall_extra_both.mp only)
      | extra e =>
          obtain ⟨first, rest⟩ := forall_extra_extra.mp only
          rw [forall_extra_extra]
          constructor
          · intro later
            have fine := seen start first (later [] List.nil_prefix)
            exact ⟨fine, (ih (extra start first fine) rest).mp later⟩
          · rintro ⟨fine, harmless⟩
            exact (ih (extra start first fine) rest).mpr harmless

end Unwinding
end Woven
end Asyncio
