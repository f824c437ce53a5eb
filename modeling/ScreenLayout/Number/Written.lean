import ScreenLayout.Number.Numeral
import ScreenLayout.Number.Shortest

/-!
# Number/Written — doubles as text

Two written forms of the same digits.  The *plain* form is positional at every size, writes a whole
number without a point and both zeros as `0`; of two equally near decimals it takes the upper.  The
*data* form, of JSON text, always shows a point or an exponent, keeps the sign of zero, turns to an
exponent from `1e+16` up and below `1e-5`, and takes the even decimal.

* `Digits.positional` — digits with zeros and a point put in place.
* `Double.plain` — the plain form.
* `FiniteDouble.data` — the data form.
-/

namespace ScreenLayout

namespace Digits

/-- The place of the leading digit: digits `d₁d₂…` stand for `0.d₁d₂… · 10 ^ leading`. -/
def leading (d : Digits) : Int := d.digits.length + d.exponent

/-- Digits written positionally: zeros after them, a point among them, or zeros before them. -/
def positional (d : Digits) : List Char :=
  match d.exponent with
  | .ofNat zeros => d.digits ++ List.replicate zeros '0'
  | .negSucc k =>
    let places := k + 1
    if places < d.digits.length then
      d.digits.take (d.digits.length - places) ++ '.' :: d.digits.drop (d.digits.length - places)
    else '0' :: '.' :: (List.replicate (places - d.digits.length) '0' ++ d.digits)

/-- Digits with one of them before the point and an exponent. -/
def scientific (d : Digits) : List Char :=
  let power := d.leading - 1
  let significand := match d.digits with
    | [] => []
    | [c] => [c]
    | c :: cs => c :: '.' :: cs
  significand ++ 'e' :: (if power < 0 then '-' else '+') :: Nat.toDigits 10 power.natAbs

end Digits

/-- A minus sign where it is wanted. -/
def signText (negative : Bool) : List Char := if negative then ['-'] else []

/-- The plain form of a finite double. -/
def FiniteDouble.plain (x : FiniteDouble) : List Char :=
  if x.isZero then ['0'] else signText x.negative ++ (x.digits .up).positional

/-- **The plain form of a double.** -/
def Double.plain : Double → List Char
  | .finite x => x.plain
  | .infinite negative => signText negative ++ "inf".toList
  | .nan => "NaN".toList

/-- **The data form of a double.** -/
def FiniteDouble.data (x : FiniteDouble) : List Char :=
  if x.isZero then signText x.negative ++ "0.0".toList
  else
    let d := x.digits .even
    let body :=
      if d.leading ≤ -5 ∨ 16 < d.leading then d.scientific
      else if 0 ≤ d.exponent then d.positional ++ ".0".toList
      else d.positional
    signText x.negative ++ body

/-! ## Numbers read and written again -/

/-- Whole numbers have no point, and no exponent at any size. -/
example : (Double.parse? "1e21".toList).map Double.plain
    = some "1000000000000000000000".toList := by decide +kernel

/-- Both zeros are written alike. -/
example : (Double.parse? "-0.0".toList).map Double.plain = some ['0'] := by decide +kernel

/-- Of two decimals equally near the upper is plain. -/
example : (Double.parse? "176287643144453.125".toList).map Double.plain
    = some "176287643144453.13".toList := by decide +kernel

/-- Of two decimals equally near the even is data. -/
example : (FiniteDouble.parse? "176287643144453.125".toList).map FiniteDouble.data
    = some "176287643144453.12".toList := by decide +kernel

/-- Data is positional below `10 ^ 16`. -/
example : (FiniteDouble.parse? "1e15".toList).map FiniteDouble.data
      = some "1000000000000000.0".toList
    ∧ (FiniteDouble.parse? "1e16".toList).map FiniteDouble.data = some "1e+16".toList := by
  decide +kernel

/-- Data is positional down to `0.00001`. -/
example : (FiniteDouble.parse? "1e-5".toList).map FiniteDouble.data = some "0.00001".toList
    ∧ (FiniteDouble.parse? "1e-6".toList).map FiniteDouble.data = some "1e-6".toList := by
  decide +kernel

/-- The least positive double has one digit. -/
example : (FiniteDouble.parse? "4.9e-324".toList).map FiniteDouble.data
    = some "5e-324".toList := by decide +kernel

end ScreenLayout
