import ScreenLayout.Number.Numeral
import ScreenLayout.Text.Blank
import ScreenLayout.Text.Case

/-!
# Style/Dimension — numbers with a unit

A dimension is a finite number with an optional unit, `12`, `12px`, `50 %`.  The unit starts at the
first ASCII letter or percent sign, so a number here has no exponent.

* `Dimension.parse?` — the dimension a whole text spells, blanks at its ends aside.
* `Dimension.toPoints?` — its length in points, where it has one by itself.
* `LengthUnit.ofSuffix?_suffix` — a unit is read from its own suffix.
-/

namespace ScreenLayout

/-- **A unit of length or angle.** -/
inductive LengthUnit where
  | px | pt | dp | em | rem | percent | deg | vw | vh
deriving DecidableEq

namespace LengthUnit

def all : List LengthUnit := [px, pt, dp, em, rem, percent, deg, vw, vh]

/-- The suffix of a unit, in lower case. -/
def suffix : LengthUnit → List Char
  | px => ['p', 'x']
  | pt => ['p', 't']
  | dp => ['d', 'p']
  | em => ['e', 'm']
  | rem => ['r', 'e', 'm']
  | percent => ['%']
  | deg => ['d', 'e', 'g']
  | vw => ['v', 'w']
  | vh => ['v', 'h']

/-- The unit with a suffix, in any case. -/
def ofSuffix? (cs : List Char) : Option LengthUnit :=
  all.find? fun u => u.suffix == Text.lowerAscii cs

theorem ofSuffix?_suffix (u : LengthUnit) : ofSuffix? u.suffix = some u := by
  cases u <;> decide

theorem suffix_eq_of_ofSuffix? {cs : List Char} {u : LengthUnit} (h : ofSuffix? cs = some u) :
    u.suffix = Text.lowerAscii cs := by
  unfold ofSuffix? at h
  exact eq_of_beq (List.find?_some (p := fun u : LengthUnit => u.suffix == Text.lowerAscii cs) h)

end LengthUnit

/-- **A number with an optional unit.** -/
structure Dimension where
  value : FiniteDouble
  unit : Option LengthUnit
deriving DecidableEq

namespace Dimension

def isSuffixStart (c : Char) : Bool := c.isAlpha || c == '%'

/-- The unit part of a dimension: nothing, or a suffix to the end. -/
def unit? (suffix : List Char) : Option (Option LengthUnit) :=
  if suffix.isEmpty then some none else (LengthUnit.ofSuffix? suffix).map some

/-- **The dimension a text spells.** -/
def parse? (cs : List Char) : Option Dimension :=
  let body := Text.trim cs
  let number := Text.trimEnd (body.takeWhile (!isSuffixStart ·))
  if number.any Char.isDigit then
    match FiniteDouble.parse? number, unit? (body.dropWhile (!isSuffixStart ·)) with
    | some value, some unit => some { value, unit }
    | _, _ => none
  else none

/-- The length in points: as written without a unit or in an absolute one, scaled by the font size
in the units of the font; the other units depend on more than that. -/
def toPoints? (d : Dimension) (fontSize : Double) : Option Double :=
  match d.unit with
  | none | some .px | some .pt | some .dp => some d.value
  | some .em | some .rem => some (d.value * fontSize)
  | some .percent | some .deg | some .vw | some .vh => none

def isPercent (d : Dimension) : Bool := d.unit == some .percent

/-- The number of a dimension that has a unit. -/
def stripUnit? (cs : List Char) : Option FiniteDouble :=
  (parse? cs).bind fun d => d.unit.map fun _ => d.value

end Dimension

end ScreenLayout
