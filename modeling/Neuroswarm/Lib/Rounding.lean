import Mathlib.Algebra.Order.Field.Rat
import Mathlib.Algebra.Order.Ring.Cast
import Mathlib.Data.Rat.Floor
import Mathlib.Tactic.Linarith

/-!
# From fractions to whole numbers

The two conversions of a scripting language: cutting off the fraction, and rounding
to the nearest integer with ties to the even one.
-/

namespace Rounding

/-- The fraction is cut off, towards zero. -/
def truncate (x : ℚ) : ℤ := x.num.tdiv x.den

/-- The nearest integer; halfway between two, the even one. -/
def halfEven (x : ℚ) : ℤ :=
  let below := x.floor
  if x - below < 1 / 2 then below
  else if 1 / 2 < x - below then below + 1
  else if below % 2 = 0 then below
  else below + 1

@[simp] theorem truncate_intCast (n : ℤ) : truncate n = n := by
  simp [truncate]

theorem abs_halfEven_sub_le (x : ℚ) : |(halfEven x : ℚ) - x| ≤ 1 / 2 := by
  have hLow : (x.floor : ℚ) ≤ x := Rat.floor_le x
  have hHigh : x < x.floor + 1 := by exact_mod_cast Rat.lt_floor_add_one x
  rw [abs_le]
  simp only [halfEven]
  split_ifs <;> push_cast <;> constructor <;> linarith

theorem halfEven_of_near {x : ℚ} {n : ℤ} (h : |x - n| < 1 / 2) : halfEven x = n := by
  have hRound := abs_halfEven_sub_le x
  rw [abs_lt] at h
  rw [abs_le] at hRound
  have hLow : (n : ℚ) - 1 < halfEven x := by linarith
  have hHigh : (halfEven x : ℚ) < n + 1 := by linarith
  have hLow' : n - 1 < halfEven x := by exact_mod_cast hLow
  have hHigh' : halfEven x < n + 1 := by exact_mod_cast hHigh
  omega

end Rounding
