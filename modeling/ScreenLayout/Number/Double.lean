import ScreenLayout.Number.Units

/-!
# Number/Double — doubles in exact arithmetic

A `FiniteDouble` is a sign and a representable count of units; a `Double` adds the infinities and
the value that is no number.  A result is the exact one rounded once (`Double.ofRatio`), so every
statement about arithmetic here is a statement about `Units.round`.

* `FiniteDouble.ofInt` — the double nearest to a whole number, `FiniteDouble.half` half a double.
* `FiniteDouble.wholeMagnitude` — rounding to a whole number, a half going away from zero.
* `Double.ofRatio`, `Double.mul`, `Double.div` — arithmetic, rounded once.
-/

namespace ScreenLayout

/-- **A finite double**: a sign, which zero has too, and a representable count of units. -/
structure FiniteDouble where
  negative : Bool
  units : Nat
  representable : Units.Representable units
deriving DecidableEq

/-- **A double**: finite, infinite with a sign, or no number. -/
inductive Double where
  | finite (value : FiniteDouble)
  | infinite (negative : Bool)
  | nan
deriving DecidableEq

instance : Coe FiniteDouble Double := ⟨.finite⟩

namespace FiniteDouble

/-! ## Finite doubles from whole numbers -/

/-- The double nearest to `± num / den` units, for a ratio well inside the range. -/
def ofRatio (negative : Bool) (num den : Nat) {k : Nat} (h : num < den * Units.twoPow k)
    (hk : 53 ≤ k) (hlim : k < Units.limitPlace) : FiniteDouble where
  negative := negative
  units := Units.round num den
  representable := Units.representable_round_of_lt h hk hlim

/-- A whole number of 64 bits is far below the limit in units. -/
theorem units_of_natAbs_lt {n : Int} (h : n.natAbs < Units.twoPow 64) :
    n.natAbs * Units.perOne < 1 * Units.twoPow (64 + Units.onePlace) := by
  rw [Units.twoPow_add, Nat.one_mul]
  exact (Nat.mul_lt_mul_right (Units.twoPow_pos _)).2 h

/-- The double nearest to a whole number that fits in 64 bits. -/
def ofInt (n : Int) (h : n.natAbs < Units.twoPow 64) : FiniteDouble :=
  ofRatio (n < 0) (n.natAbs * Units.perOne) 1 (units_of_natAbs_lt h) (by decide) (by decide)

/-- The double nearest to a 64-bit word. -/
def ofUInt64 (n : UInt64) : FiniteDouble := ofInt n.toNat n.toNat_lt

/-- A finite double is below twice the leading place of the greatest. -/
theorem units_lt_two_mul (x : FiniteDouble) :
    x.units < 2 * Units.twoPow (Units.limitPlace - 1) :=
  Nat.lt_of_lt_of_eq x.representable.2 Units.limit_eq_two_mul

/-- Half a double, rounded where the last bit is lost. -/
def half (x : FiniteDouble) : FiniteDouble :=
  ofRatio x.negative x.units 2 x.units_lt_two_mul (by decide) (by decide)

def zero : FiniteDouble := ofUInt64 0
def one : FiniteDouble := ofUInt64 1

/-! ## Order -/

/-- The count with its sign, in which the two zeros are one. -/
def signed (x : FiniteDouble) : Int := if x.negative then -(x.units : Int) else x.units

instance : LE FiniteDouble := ⟨fun x y => x.signed ≤ y.signed⟩
instance : LT FiniteDouble := ⟨fun x y => x.signed < y.signed⟩

instance (x y : FiniteDouble) : Decidable (x ≤ y) := inferInstanceAs (Decidable (x.signed ≤ y.signed))
instance (x y : FiniteDouble) : Decidable (x < y) := inferInstanceAs (Decidable (x.signed < y.signed))

def isZero (x : FiniteDouble) : Bool := x.units == 0

/-! ## Whole numbers near a double -/

/-- The whole part of the magnitude. -/
def truncMagnitude (x : FiniteDouble) : Nat := x.units / Units.perOne

/-- The whole number nearest to the magnitude, a half going up. -/
def wholeMagnitude (x : FiniteDouble) : Nat :=
  (2 * x.units + Units.perOne) / (2 * Units.perOne)

/-- A double with a fraction lies below `2 ^ 52`, so the whole number next to it is a double. -/
theorem wholeMagnitude_le (x : FiniteDouble) (h : ¬ Units.perOne ∣ x.units) :
    x.wholeMagnitude ≤ Units.twoPow 53 := by
  have hlast : Units.lastPlace x.units < Units.onePlace := by
    refine Nat.lt_of_not_le fun hle => h ?_
    exact Nat.dvd_trans (Units.twoPow_dvd_twoPow hle) x.representable.1
  have hlt : x.units < Units.twoPow 52 * Units.perOne := by
    rw [Units.perOne, ← Units.twoPow_add]
    exact Nat.lt_of_lt_of_le (Units.lt_twoPow_lastPlace x.units)
      (Units.twoPow_le_twoPow (by omega))
  have hpos := Units.perOne_pos
  have hstep : Units.twoPow 53 = 2 * Units.twoPow 52 := Units.twoPow_succ 52
  have hone : 1 ≤ Units.twoPow 52 := Units.twoPow_pos 52
  have hmul := Nat.mul_le_mul_right Units.perOne hone
  unfold wholeMagnitude
  refine Nat.le_of_lt ((Nat.div_lt_iff_lt_mul (by omega)).2 ?_)
  rw [hstep, Nat.mul_mul_mul_comm]
  omega

/-- **The whole number nearest to a double is a double**: up to `2 ^ 53` every whole number is
one. -/
theorem representable_wholeMagnitude (x : FiniteDouble) (h : ¬ Units.perOne ∣ x.units) :
    Units.Representable (x.wholeMagnitude * Units.perOne) := by
  refine ⟨Units.twoPow_lastPlace_dvd_mul (x.wholeMagnitude_le h), ?_⟩
  refine Nat.lt_of_le_of_lt (Nat.mul_le_mul_right _ (x.wholeMagnitude_le h)) ?_
  rw [Units.perOne, ← Units.twoPow_add]
  exact Units.twoPow_lt_limit (by decide)

/-- **Rounding to a whole double**, a half going away from zero; a whole double stays itself. -/
def roundWhole (x : FiniteDouble) : FiniteDouble :=
  if h : Units.perOne ∣ x.units then x
  else ⟨x.negative, x.wholeMagnitude * Units.perOne, x.representable_wholeMagnitude h⟩

end FiniteDouble

namespace Double

/-- **The double nearest to `± num / den` units**, infinite when that is beyond the range. -/
def ofRatio (negative : Bool) (num den : Nat) : Double :=
  if h : Units.round num den < Units.limit then
    .finite ⟨negative, Units.round num den, Units.representable_round h⟩
  else .infinite negative

/-- The finite double, if it is one. -/
def finite? : Double → Option FiniteDouble
  | .finite x => some x
  | _ => none

@[simp] theorem finite?_finite (x : FiniteDouble) : finite? (.finite x) = some x := rfl
@[simp] theorem finite?_infinite (s : Bool) : finite? (.infinite s) = none := rfl
@[simp] theorem finite?_nan : finite? .nan = none := rfl

theorem finite?_eq_some_iff {x : Double} {y : FiniteDouble} : x.finite? = some y ↔ x = .finite y := by
  cases x <;> simp

def isZero : Double → Bool
  | .finite x => x.isZero
  | _ => false

/-- The order of the reals with the infinities at its ends; nothing compares with `nan`. -/
def le : Double → Double → Bool
  | .nan, _ | _, .nan => false
  | .infinite true, _ | _, .infinite false => true
  | .infinite false, _ | _, .infinite true => false
  | .finite x, .finite y => x ≤ y

/-- Strictly above zero. -/
def isPositive : Double → Bool
  | .finite x => FiniteDouble.zero < x
  | .infinite negative => !negative
  | .nan => false

/-- The product, rounded; zero times an infinity is no number. -/
def mul : Double → Double → Double
  | .nan, _ | _, .nan => .nan
  | .infinite s, .infinite t => .infinite (s ^^ t)
  | .infinite s, .finite y => if y.isZero then .nan else .infinite (s ^^ y.negative)
  | .finite x, .infinite t => if x.isZero then .nan else .infinite (x.negative ^^ t)
  | .finite x, .finite y => ofRatio (x.negative ^^ y.negative) (x.units * y.units) Units.perOne

/-- The quotient, rounded; over zero it is infinite, but for zero over zero, which is no number. -/
def div : Double → Double → Double
  | .nan, _ | _, .nan => .nan
  | .infinite _, .infinite _ => .nan
  | .infinite s, .finite y => .infinite (s ^^ y.negative)
  | .finite x, .infinite t => .finite { FiniteDouble.zero with negative := x.negative ^^ t }
  | .finite x, .finite y =>
    if y.isZero then
      if x.isZero then .nan else .infinite (x.negative ^^ y.negative)
    else ofRatio (x.negative ^^ y.negative) (x.units * Units.perOne) y.units

instance : Mul Double := ⟨mul⟩
instance : Div Double := ⟨div⟩

end Double

end ScreenLayout
