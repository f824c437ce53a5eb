import ScreenLayout.Json.Compact
import ScreenLayout.Number.Numeral
import ScreenLayout.Text.Blank
import ScreenLayout.Text.Case

/-!
# Value/Coercion — booleans, numbers and texts read out of plain values

Authors write a flag as `true`, `1` or `"yes"` and a number as `12` or `"12px"`.  Each coercion
answers `none` for a value it cannot read.

* `Json.toBool?` — flags: booleans, numbers other than zero, and eight words.
* `Json.toNumber?` — numbers: a text gives the numeral it begins with.
* `Json.toText?` — texts that are not empty; numbers and booleans are written out.
-/

namespace ScreenLayout

/-- The number a text begins with, blanks at its front aside; none beyond the range of doubles. -/
def leadingNumber? (cs : List Char) : Option FiniteDouble :=
  (numeralPrefix? (Text.trimStart cs)).bind FiniteDouble.parse?

namespace Json

/-- The words for a set flag. -/
def trueWords : List String := ["true", "1", "yes", "y"]

/-- The words for a flag that is not set. -/
def falseWords : List String := ["false", "0", "no", "n"]

/-- The flag a word spells, in any case and between blanks. -/
def wordToBool? (s : String) : Option Bool :=
  let word := String.ofList (Text.lowerAscii (Text.trim s.toList))
  if trueWords.contains word then some true
  else if falseWords.contains word then some false
  else none

/-- **The flag a value stands for.** -/
def toBool? : Json → Option Bool
  | .bool b => some b
  | .number n => some (!n.value.isZero)
  | .string s => wordToBool? s
  | _ => none

/-- **The number a value stands for.** -/
def toNumber? : Json → Option FiniteDouble
  | .number n => some n.value
  | .string s => leadingNumber? s.toList
  | _ => none

/-- The text of a number: integers in decimal, doubles in the plain form. -/
def numberText : Number → List Char
  | .int n _ => intText n
  | .double x => x.plain

/-- **The text a value stands for**, when it is not empty. -/
def toText? : Json → Option String
  | .string s => if s.isEmpty then none else some s
  | .number n => some (String.ofList (numberText n))
  | .bool b => some (if b then "true" else "false")
  | _ => none

end Json

end ScreenLayout
