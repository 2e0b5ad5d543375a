import Mathlib.Data.Nat.ModEq
import Mathlib.Data.List.Range
import Mathlib.Logic.Function.Basic

/-!
Circular storage. A window of a ring is what its cells hold from a start on, with
the indices wrapped around. A write outside the window does not change it, and a
write right behind it makes it longer.
-/
namespace Ring
variable {α : Type} {capacity : Nat} [NeZero capacity]

/-- The contents of `n` cells from `start` on. -/
def window (cells : Fin capacity → α) (start n : Nat) : List α :=
  (List.range n).map fun i => cells (Fin.ofNat capacity (start + i))

variable (cells : Fin capacity → α) (start n : Nat)

@[simp] theorem length_window : (window cells start n).length = n := by simp [window]

theorem window_cons : window cells start (n + 1) =
    cells (Fin.ofNat capacity start) :: window cells (start + 1) n := by
  rw [window, List.range_succ_eq_map, List.map_cons, List.map_map]
  congr 1
  apply List.map_congr_left
  intro i _
  rw [Function.comp_apply, Nat.succ_eq_add_one, Nat.add_assoc, Nat.add_comm 1 i]

theorem window_concat : window cells start (n + 1) =
    window cells start n ++ [cells (Fin.ofNat capacity (start + n))] := by
  rw [window, List.range_succ, List.map_append]
  rfl

/-- Where a window starts matters up to whole turns only. -/
theorem window_mod : window cells (start % capacity) n = window cells start n := by
  apply List.map_congr_left
  intro i _
  congr 1
  apply Fin.ext
  simp [Fin.ofNat]

variable {start n}

/-- Within one turn no cell comes twice. -/
theorem ofNat_ne {i k : Nat} (before : i < k) (once : k < capacity) :
    Fin.ofNat capacity (start + i) ≠ Fin.ofNat capacity (start + k) := by
  intro same
  have wrapped : start + i ≡ start + k [MOD capacity] := congrArg Fin.val same
  have offsets : i % capacity = k % capacity := Nat.ModEq.add_left_cancel' start wrapped
  rw [Nat.mod_eq_of_lt (Nat.lt_trans before once), Nat.mod_eq_of_lt once] at offsets
  omega

/-- A write behind the window leaves it alone. -/
theorem window_update {k : Nat} (behind : n ≤ k) (once : k < capacity) (a : α) :
    window (Function.update cells (Fin.ofNat capacity (start + k)) a) start n =
      window cells start n := by
  apply List.map_congr_left
  intro i inside
  apply Function.update_of_ne
  exact ofNat_ne (Nat.lt_of_lt_of_le (List.mem_range.mp inside) behind) once

/-- A write right behind the window makes it longer. -/
theorem window_push (room : n < capacity) (a : α) :
    window (Function.update cells (Fin.ofNat capacity (start + n)) a) start (n + 1) =
      window cells start n ++ [a] := by
  rw [window_concat, window_update cells (Nat.le_refl n) room, Function.update_self]

/-- A write right in front of the window leaves it alone. -/
theorem window_update_front (room : n < capacity) (a : α) :
    window (Function.update cells (Fin.ofNat capacity start) a) (start + 1) n =
      window cells (start + 1) n := by
  have around : Fin.ofNat capacity start = Fin.ofNat capacity (start + 1 + (capacity - 1)) := by
    apply Fin.ext
    have whole : start + 1 + (capacity - 1) = start + capacity := by omega
    simp [Fin.ofNat, whole]
  rw [around]
  apply window_update
  · omega
  · omega

end Ring
