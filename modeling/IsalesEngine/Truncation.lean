import Mathlib.Algebra.Order.Floor.Ring
import Mathlib.Data.Rat.Floor

/-!
Truncation toward zero, as `int(x)` of Python does it. It keeps integers and the
order, moves a number by less than one and never away from zero.
-/
namespace Truncation
variable {K : Type} [Ring K] [LinearOrder K] [FloorRing K]

def truncate (x : K) : Int := if 0 ≤ x then ⌊x⌋ else ⌈x⌉

theorem truncate_of_nonneg {x : K} (nonneg : 0 ≤ x) : truncate x = ⌊x⌋ := if_pos nonneg

variable [IsStrictOrderedRing K] {x y : K}

theorem truncate_of_nonpos (nonpos : x ≤ 0) : truncate x = ⌈x⌉ := by
  by_cases nonneg : 0 ≤ x
  · obtain rfl : x = 0 := le_antisymm nonpos nonneg
    rw [truncate_of_nonneg nonneg, Int.floor_zero, Int.ceil_zero]
  · exact if_neg nonneg

theorem truncate_intCast (n : Int) : truncate (n : K) = n := by
  rw [truncate, Int.floor_intCast, Int.ceil_intCast, ite_self]

theorem truncate_mono (le : x ≤ y) : truncate x ≤ truncate y := by
  rcases le_total 0 x with nonneg | nonpos
  · rw [truncate_of_nonneg nonneg, truncate_of_nonneg (nonneg.trans le)]
    exact Int.floor_le_floor le
  · rw [truncate_of_nonpos nonpos]
    rcases le_total 0 y with above | below
    · rw [truncate_of_nonneg above]
      exact (Int.ceil_nonpos.mpr nonpos).trans (Int.floor_nonneg.mpr above)
    · rw [truncate_of_nonpos below]
      exact Int.ceil_le_ceil le

theorem le_truncate {n : Int} (le : (n : K) ≤ x) : n ≤ truncate x := by
  have kept := truncate_mono le
  rwa [truncate_intCast] at kept

theorem truncate_le {n : Int} (le : x ≤ n) : truncate x ≤ n := by
  have kept := truncate_mono le
  rwa [truncate_intCast] at kept

theorem truncate_nonneg (nonneg : 0 ≤ x) : 0 ≤ truncate x := by
  apply le_truncate
  rwa [Int.cast_zero]

theorem truncate_nonpos (nonpos : x ≤ 0) : truncate x ≤ 0 := by
  apply truncate_le
  rwa [Int.cast_zero]

theorem abs_truncate_le {n : Int} (bounded : |x| ≤ |(n : K)|) : |truncate x| ≤ |n| := by
  rw [← Int.cast_abs] at bounded
  rw [abs_le] at bounded ⊢
  rw [← Int.cast_neg] at bounded
  exact ⟨le_truncate bounded.1, truncate_le bounded.2⟩

theorem abs_truncate_sub_lt : |(truncate x : K) - x| < 1 := by
  rcases le_total 0 x with nonneg | nonpos
  · rw [truncate_of_nonneg nonneg, abs_sub_comm, abs_of_nonneg (sub_nonneg.mpr (Int.floor_le x))]
    exact sub_lt_iff_lt_add'.mpr (Int.lt_floor_add_one x)
  · rw [truncate_of_nonpos nonpos, abs_of_nonneg (sub_nonneg.mpr (Int.le_ceil x))]
    exact sub_lt_iff_lt_add'.mpr (Int.ceil_lt_add_one x)

/-- A number that is scaled down further is truncated nearer to zero. -/
theorem abs_truncate_mul_le {g h : K} (nonneg : 0 ≤ h) (le : h ≤ g) :
    |truncate (x * h)| ≤ |truncate (x * g)| := by
  rcases le_total 0 x with above | below
  · have scaled := mul_nonneg above nonneg
    have ordered := truncate_mono (mul_le_mul_of_nonneg_left le above)
    have low := truncate_nonneg scaled
    rwa [abs_of_nonneg low, abs_of_nonneg (low.trans ordered)]
  · have scaled := mul_nonpos_of_nonpos_of_nonneg below nonneg
    have ordered := truncate_mono (mul_le_mul_of_nonpos_left le below)
    have high := truncate_nonpos scaled
    rw [abs_of_nonpos high, abs_of_nonpos (ordered.trans high)]
    exact neg_le_neg ordered

end Truncation
