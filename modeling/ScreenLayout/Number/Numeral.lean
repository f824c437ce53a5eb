import ScreenLayout.Number.Decimal

/-!
# Number/Numeral — reading numbers from text

Two readers of one grammar.  `Double.parse?` takes a whole text: an optional sign, digits with an
optional point (a digit on one side is enough), an optional exponent, or one of the words for the
infinite and undefined values.  `numeralPrefix?` takes the longest numeral that begins a text, in
the stricter grammar where a point is followed by a digit.

* `Double.parse?` — the number a whole text spells.
* `numeralPrefix?` — the longest numeral a text begins with.
-/

namespace ScreenLayout

namespace Numeral

/-! ## Signs and runs of digits -/

/-- An optional sign and what follows it. -/
def splitSign : List Char → List Char × List Char
  | '-' :: cs => (['-'], cs)
  | '+' :: cs => (['+'], cs)
  | cs => ([], cs)

/-- The digits a text begins with. -/
def digits (cs : List Char) : List Char := cs.takeWhile Char.isDigit

/-- What follows the digits a text begins with. -/
def afterDigits (cs : List Char) : List Char := cs.dropWhile Char.isDigit

def isExponentMark (c : Char) : Bool := c == 'e' || c == 'E'

/-- The whole number a sign and digits spell. -/
def signedValue (sign ds : List Char) : Int :=
  if sign = ['-'] then -(Nat.ofDigitChars 10 ds 0 : Int) else Nat.ofDigitChars 10 ds 0

theorem splitSign_append (cs : List Char) : (splitSign cs).1 ++ (splitSign cs).2 = cs := by
  unfold splitSign; split <;> rfl

theorem digits_append_afterDigits (cs : List Char) : digits cs ++ afterDigits cs = cs :=
  List.takeWhile_append_dropWhile

/-! ## A whole text -/

/-- The exponent spelled by what follows the digits: nothing is zero; else a mark, an optional sign
and at least one digit, to the end. -/
def exponent? : List Char → Option Int
  | [] => some 0
  | mark :: cs =>
    let (sign, ds) := splitSign cs
    if isExponentMark mark && !ds.isEmpty && ds.all Char.isDigit then some (signedValue sign ds)
    else none

/-- The digits after a point, and what follows them; without a point there are none. -/
def splitFraction : List Char → List Char × List Char
  | '.' :: cs => (digits cs, afterDigits cs)
  | cs => ([], cs)

/-- The decimal an unsigned text spells. -/
def decimal? (negative : Bool) (cs : List Char) : Option Decimal :=
  let whole := digits cs
  let (fraction, rest) := splitFraction (afterDigits cs)
  if whole.isEmpty && fraction.isEmpty then none
  else (exponent? rest).map fun e =>
    { negative
      coefficient := Nat.ofDigitChars 10 (whole ++ fraction) 0
      exponent := e - fraction.length }

/-- The words for values that no digits spell. -/
def word? (negative : Bool) (cs : List Char) : Option Double :=
  let word := cs.map Char.toLower
  if word = "inf".toList ∨ word = "infinity".toList then some (.infinite negative)
  else if word = "nan".toList then some .nan
  else none

/-! ## The longest numeral at the front -/

/-- A point and the digits after it, when there are some, and what follows. -/
def splitPointDigits : List Char → List Char × List Char
  | '.' :: cs => if (digits cs).isEmpty then ([], '.' :: cs) else ('.' :: digits cs, afterDigits cs)
  | cs => ([], cs)

/-- The exponent a text begins with: a mark, an optional sign and at least one digit. -/
def exponentPart : List Char → List Char
  | [] => []
  | mark :: cs =>
    let (sign, rest) := splitSign cs
    if isExponentMark mark && !(digits rest).isEmpty then mark :: (sign ++ digits rest) else []

end Numeral

open Numeral in
/-- **The number a whole text spells.** -/
def Double.parse? (cs : List Char) : Option Double :=
  let (sign, body) := splitSign cs
  let negative := decide (sign = ['-'])
  word? negative body <|> (decimal? negative body).map Decimal.toDouble

/-- The finite number a whole text spells. -/
def FiniteDouble.parse? (cs : List Char) : Option FiniteDouble :=
  (Double.parse? cs).bind Double.finite?

open Numeral in
/-- **The longest numeral a text begins with**, if it begins with one. -/
def numeralPrefix? (cs : List Char) : Option (List Char) :=
  let (sign, body) := splitSign cs
  let whole := digits body
  let (fraction, rest) := splitPointDigits (afterDigits body)
  if whole.isEmpty && fraction.isEmpty then none
  else some (sign ++ whole ++ fraction ++ exponentPart rest)

end ScreenLayout
