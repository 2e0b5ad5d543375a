import Mathlib.Data.List.Infix

/-!
Tasks that interleave over a shared state. A label names one atomic section of
one task, and a section the task cannot take now is `none`. A run is a list of
labels. Restricting a system keeps the runs all of whose sections are allowed in
the state before them; when a section is allowed exactly if it establishes an
assertion, these are the runs that never leave the assertion.
-/
namespace Asyncio

/-- A section that is taken has passed its guard. -/
theorem of_guard {σ : Type} {p : Prop} [Decidable p] {s s' : σ}
    (taken : (if p then some s else none) = some s') : p ∧ s = s' := by
  obtain ⟨guard, same⟩ := Option.ite_none_right_eq_some.mp taken
  exact ⟨guard, Option.some.inj same⟩

/-- Where a run ends is found by evaluating what matters of its end. -/
theorem exists_of_map {α β : Type} {end? : Option α} {P : α → Prop} (f : α → β) (b : β)
    (found : end?.map f = some b) (holds : ∀ a, end? = some a → f a = b → P a) :
    ∃ a, end? = some a ∧ P a := by
  obtain ⟨a, run, same⟩ := Option.map_eq_some_iff.mp found
  exact ⟨a, run, holds a run same⟩

section Table
variable {α : Type} {table : List α} {i j : Nat} {a b : α}

/-- The entries of a table of tasks after one of them has changed. -/
theorem getElem?_set_iff {old : α} (own : table[i]? = some old) :
    (table.set i a)[j]? = some b ↔ (j = i ∧ a = b) ∨ (j ≠ i ∧ table[j]? = some b) := by
  have inside : i < table.length := (List.getElem?_eq_some_iff.mp own).1
  by_cases same : j = i
  · subst same
    simp [inside]
  · rw [List.getElem?_set_ne (Ne.symm same)]
    simp [same]

/-- The entries of a table after a task has been added. -/
theorem getElem?_concat_iff :
    (table ++ [a])[j]? = some b ↔ table[j]? = some b ∨ (j = table.length ∧ a = b) := by
  by_cases inside : j < table.length
  · rw [List.getElem?_append_left inside]
    simp [Nat.ne_of_lt inside]
  · have beyond : table[j]? = none := List.getElem?_eq_none (Nat.le_of_not_lt inside)
    rw [List.getElem?_append_right (Nat.le_of_not_lt inside), beyond]
    cases offset : j - table.length with
    | zero =>
        have last : j = table.length := by omega
        simp [last]
    | succ k =>
        have past : j ≠ table.length := by omega
        simp [past]

theorem map_set_same {β : Type} {old : α} {f : α → β} (own : table[i]? = some old)
    (same : f a = f old) : (table.set i a).map f = table.map f := by
  have here : (table.map f)[i]? = some (f old) := by simp [own]
  obtain ⟨inside, value⟩ := List.getElem?_eq_some_iff.mp here
  rw [List.map_set, same, ← value, List.set_getElem_self]

end Table

structure System (σ ε : Type) where
  step : σ → ε → Option σ

namespace System
variable {σ ε : Type} {S : System σ ε} {s s' : σ} {es : List ε}

def exec (S : System σ ε) (s : σ) : List ε → Option σ
  | [] => some s
  | e :: es => (S.step s e).bind fun s' => S.exec s' es

/-- The system in which only the allowed sections are taken. -/
def restrict (S : System σ ε) (allow : σ → ε → Bool) : System σ ε where
  step s e := if allow s e then S.step s e else none

variable {allow : σ → ε → Bool}

theorem restrict_some {e : ε} (stepped : (S.restrict allow).step s e = some s') :
    allow s e = true ∧ S.step s e = some s' := by
  simp only [restrict, Option.ite_none_right_eq_some] at stepped
  exact stepped

theorem exec_cons {e : ε} (run : S.exec s (e :: es) = some s') :
    ∃ t, S.step s e = some t ∧ S.exec t es = some s' := Option.bind_eq_some_iff.mp run

theorem exec_concat {e : ε} {t : σ} (run : S.exec s es = some t)
    (stepped : S.step t e = some s') : S.exec s (es ++ [e]) = some s' := by
  induction es generalizing s with
  | nil =>
      obtain rfl := Option.some.inj run
      exact Option.bind_eq_some_iff.mpr ⟨s', stepped, rfl⟩
  | cons e es ih =>
      obtain ⟨u, first, rest⟩ := exec_cons run
      exact Option.bind_eq_some_iff.mpr ⟨u, first, ih rest⟩

/-- What every section keeps holds at the end of every run. -/
theorem invariant {J : σ → Prop} (kept : ∀ {s e s'}, J s → S.step s e = some s' → J s')
    (run : S.exec s es = some s') (holds : J s) : J s' := by
  induction es generalizing s with
  | nil => exact Option.some.inj run ▸ holds
  | cons e es ih =>
      obtain ⟨t, stepped, rest⟩ := exec_cons run
      exact ih rest (kept holds stepped)

/-- What is observed of the sections of a run, in order. -/
def collect {α : Type} (S : System σ ε) (observe : σ → ε → List α) (s : σ) : List ε → List α
  | [] => []
  | e :: es => observe s e ++ (S.step s e).elim [] fun s' => S.collect observe s' es

/-- What every section keeps of the state and of what was observed so far. -/
theorem collect_invariant {α : Type} {observe : σ → ε → List α} {J : σ → List α → Prop}
    (kept : ∀ {s e s' as}, J s as → S.step s e = some s' → J s' (as ++ observe s e)) {as : List α}
    (run : S.exec s es = some s') (holds : J s as) : J s' (as ++ S.collect observe s es) := by
  induction es generalizing s as with
  | nil =>
      obtain rfl := Option.some.inj run
      rwa [collect, List.append_nil]
  | cons e es ih =>
      obtain ⟨t, stepped, rest⟩ := exec_cons run
      rw [collect, stepped, Option.elim_some, ← List.append_assoc]
      exact ih rest (kept holds stepped)

/-- What is observed of the labels alone does not depend on the states. -/
theorem collect_labels {α : Type} {observe : ε → List α} (run : S.exec s es = some s') :
    S.collect (fun _ => observe) s es = es.flatMap observe := by
  induction es generalizing s with
  | nil => rfl
  | cons e es ih =>
      obtain ⟨t, stepped, rest⟩ := exec_cons run
      rw [collect, stepped, Option.elim_some, ih rest, List.flatMap_cons]

/-- A measure that every section lowers bounds the length of a run. -/
theorem exec_length_le {μ : σ → Nat} (lowers : ∀ {s e s'}, S.step s e = some s' → μ s' < μ s)
    (run : S.exec s es = some s') : es.length + μ s' ≤ μ s := by
  induction es generalizing s with
  | nil =>
      obtain rfl := Option.some.inj run
      exact Nat.le_of_eq (Nat.zero_add _)
  | cons e es ih =>
      obtain ⟨t, stepped, rest⟩ := exec_cons run
      have first := lowers stepped
      have later := ih rest
      rw [List.length_cons]
      omega

theorem exec_of_restrict (run : (S.restrict allow).exec s es = some s') :
    S.exec s es = some s' := by
  induction es generalizing s with
  | nil => exact run
  | cons e es ih =>
      obtain ⟨t, stepped, rest⟩ := exec_cons run
      exact Option.bind_eq_some_iff.mpr ⟨t, (restrict_some stepped).2, ih rest⟩

/-- A run all of whose sections are allowed ends in the restricted system as it does without. -/
theorem restrict_exec (allow : σ → ε → Bool) (run : S.exec s es = some s')
    (allowed : ((S.restrict allow).exec s es).isSome = true) :
    (S.restrict allow).exec s es = some s' := by
  obtain ⟨t, restricted⟩ := Option.isSome_iff_exists.mp allowed
  rw [restricted, ← exec_of_restrict restricted, run]

/-- The runs of the restricted system are those that never leave `P`. -/
theorem exec_restrict_iff {J P : σ → Prop}
    (kept : ∀ {s e s'}, J s → allow s e = true → S.step s e = some s' → J s')
    (allows : ∀ {s e s'}, J s → S.step s e = some s' → (allow s e = true ↔ P s'))
    (holds : J s) (here : P s) (run : S.exec s es = some s') :
    (S.restrict allow).exec s es = some s' ↔ ∀ pre t, pre <+: es → S.exec s pre = some t → P t := by
  induction es generalizing s with
  | nil =>
      refine ⟨fun _ pre t initial reached => ?_, fun _ => run⟩
      obtain rfl := List.prefix_nil.mp initial
      exact Option.some.inj reached ▸ here
  | cons e es ih =>
      obtain ⟨s₁, stepped, rest⟩ := exec_cons run
      constructor
      · intro restricted
        obtain ⟨t₁, stepped', rest'⟩ := exec_cons restricted
        obtain ⟨allowed, same⟩ := restrict_some stepped'
        obtain rfl := Option.some.inj (stepped.symm.trans same)
        have here₁ := (allows holds stepped).mp allowed
        have later := (ih (kept holds allowed stepped) here₁ rest).mp rest'
        intro pre t initial reached
        cases pre with
        | nil => exact Option.some.inj reached ▸ here
        | cons e' pre =>
            obtain ⟨rfl, shorter⟩ := List.cons_prefix_cons.mp initial
            obtain ⟨t', first, reached⟩ := exec_cons reached
            obtain rfl := Option.some.inj (stepped.symm.trans first)
            exact later pre t shorter reached
      · intro never
        have reached : S.exec s [e] = some s₁ := Option.bind_eq_some_iff.mpr ⟨s₁, stepped, rfl⟩
        have here₁ := never [e] s₁ (List.cons_prefix_cons.mpr ⟨rfl, List.nil_prefix⟩) reached
        have allowed := (allows holds stepped).mpr here₁
        refine Option.bind_eq_some_iff.mpr ⟨s₁, by simp [restrict, allowed, stepped], ?_⟩
        refine (ih (kept holds allowed stepped) here₁ rest).mpr fun pre t initial reached => ?_
        refine never (e :: pre) t (List.cons_prefix_cons.mpr ⟨rfl, initial⟩) ?_
        exact Option.bind_eq_some_iff.mpr ⟨s₁, stepped, reached⟩

end System
end Asyncio
