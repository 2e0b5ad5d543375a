import Mathlib.Data.List.Basic

/-!
Codes that show where they end. An encoder refuses a value by `none`. Two values
are separated by it when their codes, whatever follows, are followed by the same
and equal as a whole only if the values are equal; a code that separates all
values can be read back from any longer text. Codes put one behind the other,
headed by a tag or by a count, keep this.
-/
namespace Binary
variable {α β γ κ : Type} {code : α → Option (List β)} {a b : α}

/-- One code behind the other, unless one of them is refused. -/
def join (first second : Option (List β)) : Option (List β) :=
  first.bind fun u => second.map fun v => u ++ v

/-- The codes of several values one behind the other. -/
def many (code : α → Option (List β)) : List α → Option (List β)
  | [] => some []
  | a :: as => join (code a) (many code as)

def Separated (code : α → Option (List β)) (a b : α) : Prop :=
  ∀ ⦃u v s t⦄, code a = some u → code b = some v → u ++ s = v ++ t → a = b ∧ s = t

def SelfDelimiting (code : α → Option (List β)) : Prop := ∀ a b, Separated code a b

theorem join_eq_some {first second : Option (List β)} {w : List β} :
    join first second = some w ↔ ∃ u v, first = some u ∧ second = some v ∧ u ++ v = w := by
  simp [join, Option.bind_eq_some_iff]

theorem isSome_join {first second : Option (List β)} :
    (join first second).isSome = true ↔ first.isSome = true ∧ second.isSome = true := by
  cases first <;> cases second <;> simp [join]

theorem isSome_many {as : List α} :
    (many code as).isSome = true ↔ ∀ a ∈ as, (code a).isSome = true := by
  induction as with
  | nil => simp [many]
  | cons a as ih => simp [many, isSome_join, ih]

/-- Codes of one length are separated if they differ. -/
theorem separated_of_length (width : ∀ u v, code a = some u → code b = some v → u.length = v.length)
    (differ : ∀ u, code a = some u → code b = some u → a = b) : Separated code a b := by
  intro u v s t first second same
  obtain ⟨rfl, rest⟩ := List.append_inj same (width u v first second)
  exact ⟨differ u first second, rest⟩

theorem Separated.imp {code' : γ → Option (List β)} {c d : γ} (separated : Separated code a b)
    (left : code' c = code a) (right : code' d = code b) (back : a = b → c = d) :
    Separated code' c d := by
  intro u v s t first second same
  obtain ⟨equal, rest⟩ := separated (left.symm.trans first) (right.symm.trans second) same
  exact ⟨back equal, rest⟩

namespace SelfDelimiting
variable {code code' : α → Option (List β)}

theorem of_eq (delimited : SelfDelimiting code) (same : ∀ a, code' a = code a) :
    SelfDelimiting code' := fun a b => (delimited a b).imp (same a) (same b) id

/-- A key comes first, and values with the same key are separated by what follows. -/
theorem headed {head : κ → Option (List β)} (delimited : SelfDelimiting head) (key : α → κ)
    (body : ∀ a b, key a = key b → Separated code a b) :
    SelfDelimiting fun a => join (head (key a)) (code a) := by
  intro a b w x s t first second same
  obtain ⟨u, u', headed, bodied, rfl⟩ := join_eq_some.mp first
  obtain ⟨v, v', headed', bodied', rfl⟩ := join_eq_some.mp second
  rw [List.append_assoc, List.append_assoc] at same
  obtain ⟨keys, rest⟩ := delimited _ _ headed headed' same
  exact body a b keys bodied bodied' rest

theorem pair {code' : γ → Option (List β)} (first : SelfDelimiting code)
    (second : SelfDelimiting code') : SelfDelimiting fun p : α × γ => join (code p.1) (code' p.2) :=
  first.headed Prod.fst fun p q same =>
    (second p.2 q.2).imp rfl rfl fun equal => Prod.ext same equal

/-- As many codes as there are values are told apart, if it is known how many there are. -/
theorem many (delimited : SelfDelimiting code) {as bs : List α} (same : as.length = bs.length) :
    Separated (many code) as bs := by
  induction as generalizing bs with
  | nil =>
      obtain rfl := List.length_eq_zero_iff.mp same.symm
      intro u v s t first second equal
      obtain rfl := Option.some.inj (first.symm.trans second)
      exact ⟨rfl, List.append_cancel_left equal⟩
  | cons a as ih =>
      cases bs with
      | nil => simp at same
      | cons b bs =>
          intro w x s t first second equal
          obtain ⟨u, u', headed, rest, rfl⟩ := join_eq_some.mp first
          obtain ⟨v, v', headed', rest', rfl⟩ := join_eq_some.mp second
          rw [List.append_assoc, List.append_assoc] at equal
          obtain ⟨rfl, behind⟩ := delimited a b headed headed' equal
          obtain ⟨rfl, end_⟩ := ih (Nat.succ.inj same) rest rest' behind
          exact ⟨rfl, end_⟩

/-- What follows a code can be read, so equal texts that begin with codes begin with the same. -/
theorem eq_of_append (delimited : SelfDelimiting code) {u v s t : List β} (first : code a = some u)
    (second : code b = some v) (same : u ++ s = v ++ t) : a = b :=
  (delimited a b first second same).1

end SelfDelimiting
end Binary
