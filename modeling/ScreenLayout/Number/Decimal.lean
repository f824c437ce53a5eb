import ScreenLayout.Number.Double

/-!
# Number/Decimal — the double nearest to a decimal

A `Decimal` is `± coefficient · 10 ^ exponent`, exactly.  `Decimal.units` is its magnitude rounded
to a count of units; exponents far outside the range of doubles are answered without the power.

* `Decimal.toDouble` — the nearest double, infinite beyond the range.
* `Decimal.units_exact` — a decimal that is exactly a representable count reads as that count.
-/

namespace ScreenLayout

/-- **A decimal number** `± coefficient · 10 ^ exponent`. -/
structure Decimal where
  negative : Bool
  coefficient : Nat
  exponent : Int
deriving DecidableEq

namespace Decimal

/-- A power of ten. -/
def tenPow (k : Nat) : Nat := Nat.pow 10 k

theorem tenPow_pos (k : Nat) : 0 < tenPow k := Nat.pow_pos (Nat.zero_lt_succ 9)

theorem twoPow_dvd_tenPow (k : Nat) : Units.twoPow k ∣ tenPow k :=
  ⟨Nat.pow 5 k, Nat.mul_pow 2 5 k⟩

/-- The magnitude of `coefficient · 10 ^ exponent`, rounded to a count of units.  From `10 ^ 401` on
the count is the limit, and a decimal far below half a unit counts zero. -/
def units (coefficient : Nat) : Int → Nat
  | .ofNat k =>
    if coefficient = 0 then 0
    else if 400 < k then Units.limit
    else Units.round (coefficient * tenPow k * Units.perOne) 1
  | .negSucc k =>
    if coefficient.log2 + 1100 < k then 0
    else Units.round (coefficient * Units.perOne) (tenPow (k + 1))

theorem twoPow_lastPlace_dvd_units (c : Nat) (e : Int) :
    Units.twoPow (Units.lastPlace (units c e)) ∣ units c e := by
  unfold units
  split
  · split
    · exact Nat.dvd_zero _
    · split
      · exact Units.twoPow_dvd_twoPow (by
          rw [Units.lastPlace, Units.limit, Units.log2_twoPow]; omega)
      · exact Units.twoPow_lastPlace_dvd_round _ _
  · split
    · exact Nat.dvd_zero _
    · exact Units.twoPow_lastPlace_dvd_round _ _

/-- A decimal whose denominator is cleared by a representable count reads as that count. -/
theorem units_exact {c k n : Nat} (h : c * Units.perOne = n * tenPow (k + 1))
    (hn : Units.twoPow (Units.lastPlace n) ∣ n) (hk : k ≤ c.log2 + 1100) :
    units c (.negSucc k) = n := by
  change (if c.log2 + 1100 < k then 0 else Units.round (c * Units.perOne) (tenPow (k + 1))) = n
  rw [if_neg (by omega), h, Units.round_mul_right hn (tenPow_pos _)]

/-- **The double nearest to a decimal.** -/
def toDouble (d : Decimal) : Double :=
  if h : units d.coefficient d.exponent < Units.limit then
    .finite ⟨d.negative, units d.coefficient d.exponent, twoPow_lastPlace_dvd_units _ _, h⟩
  else .infinite d.negative

end Decimal

end ScreenLayout
