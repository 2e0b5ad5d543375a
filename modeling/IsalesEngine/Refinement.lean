import Mathlib.Data.List.Basic

/-!
Objects and refinement. An object answers one operation after another and may
change its state with each. It refines another object when a relation between
their states is kept by every operation and related states answer alike; then the
two cannot be told apart by any sequence of operations.
-/
namespace Refinement

/-- An object with states `σ`, operations `ω` and answers `ρ`. -/
structure Object (σ ω ρ : Type) where
  step : σ → ω → ρ × σ

namespace Object
variable {σ ω ρ α : Type}

/-- The state after a sequence of operations. -/
def after (O : Object σ ω ρ) (s : σ) : List ω → σ
  | [] => s
  | op :: ops => O.after (O.step s op).2 ops

def answers (O : Object σ ω ρ) (s : σ) : List ω → List ρ
  | [] => []
  | op :: ops => (O.step s op).1 :: O.answers (O.step s op).2 ops

/-- What is observed of the operations of a sequence, in order. -/
def collect (O : Object σ ω ρ) (observe : σ → ω → List α) (s : σ) : List ω → List α
  | [] => []
  | op :: ops => observe s op ++ O.collect observe (O.step s op).2 ops

variable {O : Object σ ω ρ} {s : σ} {ops : List ω}

/-- What every operation keeps holds after every sequence of them. -/
theorem invariant {J : σ → Prop} (kept : ∀ s op, J s → J (O.step s op).2) (holds : J s)
    (ops : List ω) : J (O.after s ops) := by
  induction ops generalizing s with
  | nil => exact holds
  | cons op ops ih => exact ih (kept s op holds)

/-- What every operation keeps of the state and of what was observed so far. -/
theorem collect_invariant {observe : σ → ω → List α} {J : σ → List α → Prop} {seen : List α}
    (kept : ∀ s op seen, J s seen → J (O.step s op).2 (seen ++ observe s op)) (holds : J s seen)
    (ops : List ω) : J (O.after s ops) (seen ++ O.collect observe s ops) := by
  induction ops generalizing s seen with
  | nil =>
      rw [collect, List.append_nil]
      exact holds
  | cons op ops ih =>
      rw [collect, ← List.append_assoc]
      exact ih (kept s op seen holds)

end Object

variable {σ τ ω ρ : Type}

/-- Every operation keeps `R`, and states related by it answer alike. -/
structure Refines (C : Object σ ω ρ) (A : Object τ ω ρ) (R : σ → τ → Prop) : Prop where
  answer : ∀ s t op, R s t → (C.step s op).1 = (A.step t op).1
  related : ∀ s t op, R s t → R (C.step s op).2 (A.step t op).2

namespace Refines
variable {C : Object σ ω ρ} {A : Object τ ω ρ} {R : σ → τ → Prop} {s : σ} {t : τ}

theorem after (refines : Refines C A R) (start : R s t) (ops : List ω) :
    R (C.after s ops) (A.after t ops) := by
  induction ops generalizing s t with
  | nil => exact start
  | cons op ops ih => exact ih (refines.related s t op start)

theorem answers (refines : Refines C A R) (start : R s t) (ops : List ω) :
    C.answers s ops = A.answers t ops := by
  induction ops generalizing s t with
  | nil => rfl
  | cons op ops ih =>
      simp only [Object.answers]
      rw [refines.answer s t op start, ih (refines.related s t op start)]

/-- What is observed in related states alike is observed alike of a sequence. -/
theorem collect {α : Type} {observe : σ → ω → List α} {observe' : τ → ω → List α}
    (refines : Refines C A R) (alike : ∀ s t op, R s t → observe s op = observe' t op)
    (start : R s t) (ops : List ω) : C.collect observe s ops = A.collect observe' t ops := by
  induction ops generalizing s t with
  | nil => rfl
  | cons op ops ih =>
      simp only [Object.collect]
      rw [alike s t op start, ih (refines.related s t op start)]

end Refines
end Refinement
