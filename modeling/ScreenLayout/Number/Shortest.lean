import ScreenLayout.Number.Decimal

/-!
# Number/Shortest — the fewest digits that read back

The digits of a double are the fewest that `Decimal.units` reads back to the same count; of two such
decimals the nearer one, and `Tie` decides when both are equally near.  The search tries one to
seventeen digits and falls back on the exact decimal, so what it finds always reads back.

* `Shortest.units_shortest` — the decimal found reads back to the count it was found for.
-/

namespace ScreenLayout

/-- Which of two equally near decimals is written. -/
inductive Tie where
  | up
  | even
deriving DecidableEq

namespace Shortest

/-- The number of decimal digits of a whole number. -/
def digitCount (n : Nat) : Nat := (Nat.toDigits 10 n).length

/-- The place `k` of a count of units: its value is in `[10 ^ (k - 1), 10 ^ k)`. -/
def leadingPlace (n : Nat) : Int :=
  if Units.perOne ≤ n then digitCount (n / Units.perOne)
  else 1 - (digitCount ((Units.perOne - 1) / n) : Int)

/-- The ratio of a count of units to `10 ^ place`, as numerator and denominator. -/
def gridRatio (n : Nat) : Int → Nat × Nat
  | .ofNat g => (n, Units.perOne * Decimal.tenPow g)
  | .negSucc g => (n * Decimal.tenPow (g + 1), Units.perOne)

/-- Of the two neighbours of `num / den`, the one that is nearer. -/
def nearer (tie : Tie) (num den : Nat) : Nat :=
  let low := num / den
  if 2 * (num % den) < den then low
  else if den < 2 * (num % den) then low + 1
  else match tie with
    | .up => low + 1
    | .even => low + low % 2

/-- The multiple of `10 ^ place` that reads back to `n`: of the two neighbours of its value, the
one that does, and the nearer if both do. -/
def onGrid? (tie : Tie) (n : Nat) (place : Int) : Option Nat :=
  let (num, den) := gridRatio n place
  let low := num / den
  match Decimal.units low place == n, Decimal.units (low + 1) place == n with
  | true, true => some (nearer tie num den)
  | true, false => some low
  | false, true => some (low + 1)
  | false, false => none

/-- The decimal that is exactly the count `n`, in units of `10 ^ -1074`. -/
def exactCoefficient (n : Nat) : Nat := n * (Decimal.tenPow Units.onePlace / Units.perOne)

/-- **The shortest decimal** that reads back to the count `n`, as coefficient and exponent. -/
def shortest (tie : Tie) (n : Nat) : Nat × Int :=
  let place := leadingPlace n
  let found := (List.range 17).findSome? fun (i : Nat) =>
    let e := place - (i + 1)
    (onGrid? tie n e).map (·, e)
  found.getD (exactCoefficient n, .negSucc (Units.onePlace - 1))

/-! ## What is found reads back -/

theorem nearer_eq (tie : Tie) (num den : Nat) :
    nearer tie num den = num / den ∨ nearer tie num den = num / den + 1 := by
  unfold nearer
  have := Nat.mod_lt (num / den) (show 0 < 2 by decide)
  cases tie <;> simp only <;> (repeat' split) <;> omega

theorem units_of_onGrid? {tie : Tie} {n c : Nat} {place : Int}
    (h : onGrid? tie n place = some c) : Decimal.units c place = n := by
  unfold onGrid? at h
  simp only at h
  split at h
  · rename_i hl hu
    rcases nearer_eq tie (gridRatio n place).1 (gridRatio n place).2 with e | e
    · rw [e] at h; cases h; exact eq_of_beq hl
    · rw [e] at h; cases h; exact eq_of_beq hu
  · rename_i hl _; cases h; exact eq_of_beq hl
  · rename_i hu; cases h; exact eq_of_beq hu
  · cases h

theorem exactCoefficient_mul (n : Nat) :
    exactCoefficient n * Units.perOne = n * Decimal.tenPow (Units.onePlace - 1 + 1) := by
  rw [exactCoefficient, Nat.mul_assoc,
    Nat.div_mul_cancel (show Units.perOne ∣ _ from Decimal.twoPow_dvd_tenPow _)]
  exact congrArg (n * Decimal.tenPow ·) (show Units.onePlace = Units.onePlace - 1 + 1 by decide)

/-- **The decimal found reads back.** -/
theorem units_shortest (tie : Tie) {n : Nat}
    (h : Units.twoPow (Units.lastPlace n) ∣ n) :
    Decimal.units (shortest tie n).1 (shortest tie n).2 = n := by
  unfold shortest
  simp only
  cases hf : (List.range 17).findSome? (fun (i : Nat) =>
      (onGrid? tie n (leadingPlace n - ((i : Int) + 1))).map (·, leadingPlace n - ((i : Int) + 1)))
  with
  | none =>
    exact Decimal.units_exact (exactCoefficient_mul n) h
      (Nat.le_trans (show Units.onePlace - 1 ≤ 1100 by decide) (Nat.le_add_left _ _))
  | some r =>
    obtain ⟨i, _, hi⟩ := List.exists_of_findSome?_eq_some hf
    obtain ⟨c, hc, rfl⟩ := Option.map_eq_some_iff.1 hi
    exact units_of_onGrid? hc

end Shortest

/-- Significant digits of a double and the exponent of the last one. -/
structure Digits where
  digits : List Char
  exponent : Int
deriving DecidableEq

/-- Digits without the zeros they end in. -/
def Digits.normalized (d : Digits) : Digits :=
  let kept := (d.digits.reverse.dropWhile (· == '0')).reverse
  { digits := kept, exponent := d.exponent + (d.digits.length - kept.length : Nat) }

/-- **The significant digits of a double** other than zero, none of them a trailing zero. -/
def FiniteDouble.digits (tie : Tie) (x : FiniteDouble) : Digits :=
  let (c, e) := Shortest.shortest tie x.units
  Digits.normalized { digits := Nat.toDigits 10 c, exponent := e }

end ScreenLayout
