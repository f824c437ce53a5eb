import Mathlib.Algebra.Order.Floor.Semifield
import Mathlib.Algebra.Order.Round
import Mathlib.Data.Rat.Floor
import Mathlib.Tactic.FieldSimp
import ScreenLayout.Number.Double

/-!
# Proofs/Number/Whole — the whole numbers near a double

A double is a rational number, its count of units over the units in one.  The two ways to make it
whole, cutting and rounding, are then the floor and the rounding of that number, computed on the count
alone.

* `FiniteDouble.toRat` — the number; `FiniteDouble.zero_lt_iff`, `FiniteDouble.one_le_iff` — its order.
* `FiniteDouble.truncMagnitude_eq`, `FiniteDouble.wholeMagnitude_eq` — cutting and rounding.
* `FiniteDouble.wholeMagnitude_eq_zero_iff` — what is rounded to nothing.
-/

namespace ScreenLayout.FiniteDouble

/-- **The number a double is.** -/
def toRat (x : FiniteDouble) : ℚ := x.signed / Units.perOne

variable {x : FiniteDouble}

theorem perOne_cast_pos : (0 : ℚ) < Units.perOne := Nat.cast_pos.2 Units.perOne_pos

/-! ## Order -/

theorem zero_lt_iff : zero < x ↔ 0 < x.toRat := by
  have hzero : zero.signed = 0 := by decide +kernel
  have hlt : zero < x ↔ 0 < x.signed := hzero ▸ Iff.rfl
  rw [hlt, toRat, div_pos_iff_of_pos_right perOne_cast_pos, Int.cast_pos]

theorem one_le_iff : one ≤ x ↔ 1 ≤ x.toRat := by
  have hone : one.signed = (Units.perOne : ℤ) := by decide +kernel
  have hle : one ≤ x ↔ (Units.perOne : ℤ) ≤ x.signed := hone ▸ Iff.rfl
  rw [hle, toRat, one_le_div perOne_cast_pos, ← Int.cast_natCast (R := ℚ), Int.cast_le]

/-- A double above zero is its count over the units in one. -/
theorem toRat_of_pos (h : 0 < x.toRat) : x.toRat = x.units / Units.perOne := by
  have hpos : 0 < x.signed := Int.cast_pos.1 ((div_pos_iff_of_pos_right perOne_cast_pos).1 h)
  have hsigned : x.signed = x.units := by
    rw [signed] at hpos ⊢
    split
    · rename_i hneg
      rw [if_pos hneg] at hpos
      omega
    · rfl
  rw [toRat, hsigned, Int.cast_natCast]

/-! ## Cutting and rounding -/

/-- **Cutting a double above zero** is taking the floor. -/
theorem truncMagnitude_eq (h : 0 < x.toRat) : x.truncMagnitude = ⌊x.toRat⌋₊ := by
  rw [toRat_of_pos h, Nat.floor_div_eq_div]
  rfl

/-- The rounding of a number above zero is the floor of a half more. -/
theorem toNat_round (q : ℚ) : (round q).toNat = ⌊q + 1 / 2⌋₊ := by
  rw [round_eq, Int.floor_toNat]

/-- **Rounding a double above zero** is rounding the number, a half up. -/
theorem wholeMagnitude_eq (h : 0 < x.toRat) : x.wholeMagnitude = (round x.toRat).toNat := by
  have hne := perOne_cast_pos.ne'
  have hhalf : x.toRat + 1 / 2
      = ((2 * x.units + Units.perOne : ℕ) : ℚ) / ((2 * Units.perOne : ℕ) : ℚ) := by
    rw [toRat_of_pos h]
    push_cast
    field_simp
  rw [toNat_round, hhalf, Nat.floor_div_eq_div]
  rfl

/-- **What is rounded to nothing** is below a half. -/
theorem wholeMagnitude_eq_zero_iff (h : 0 < x.toRat) : x.wholeMagnitude = 0 ↔ x.toRat < 1 / 2 := by
  rw [wholeMagnitude_eq h, toNat_round, Nat.floor_eq_zero]
  constructor
  · intro hlt
    linarith
  · intro hlt
    linarith

/-- A double of at least one is cut to at least one. -/
theorem one_le_truncMagnitude (h : 1 ≤ x.toRat) : 1 ≤ x.truncMagnitude := by
  rw [truncMagnitude_eq (zero_lt_one.trans_le h)]
  exact Nat.le_floor (by exact_mod_cast h)

end ScreenLayout.FiniteDouble
