import ScreenLayout.Json.Compact
import ScreenLayout.Style.Dimension

/-!
# Style/Gradient — linear gradients in background values

The first `linear-gradient(…)` of a text, in any case, is read as an angle and colours.  Its body
runs to the parenthesis that closes it and is cut at the commas outside inner parentheses; the first
part may be the angle, and each other part is a colour with optional positions after it.

* `Gradient.parse?` — the gradient in a text.
* `Gradient.render` — the text of a gradient, `Gradient.toJson` the gradient as data.
* `Gradient.balancedBody?`, `Gradient.topLevelParts` — parentheses and commas.
* `Gradient.stopColor?` — the colour of a part, without its positions.
-/

namespace ScreenLayout

/-- **A linear gradient**: its colours in order, and its angle in degrees clockwise from upward. -/
structure Gradient where
  colors : List String
  angle : Double
deriving DecidableEq

namespace Gradient

/-- The function name that begins a gradient, with its parenthesis. -/
def opening : List Char := "linear-gradient(".toList

/-- What follows the first opening in a text, whatever the case of its letters. -/
def afterOpening? : List Char → Option (List Char)
  | [] => none
  | c :: cs =>
    if Text.sameAscii ((c :: cs).take opening.length) opening then
      some ((c :: cs).drop opening.length)
    else afterOpening? cs

/-- Whether a text contains a gradient opening. -/
def isGradient (cs : List Char) : Bool := (afterOpening? cs).isSome

/-! ## Parentheses and commas -/

/-- The text up to the parenthesis that closes `depth` further ones. -/
def bodyWithin? : (depth : Nat) → List Char → Option (List Char)
  | _, [] => none
  | depth, '(' :: cs => (bodyWithin? (depth + 1) cs).map ('(' :: ·)
  | 0, ')' :: _ => some []
  | depth + 1, ')' :: cs => (bodyWithin? depth cs).map (')' :: ·)
  | depth, c :: cs => (bodyWithin? depth cs).map (c :: ·)

/-- **The text inside a parenthesis** that is already open. -/
def balancedBody? (cs : List Char) : Option (List Char) := bodyWithin? 0 cs

/-- The pieces of a text between the commas at depth zero, as they stand. -/
def piecesWithin : (depth : Nat) → List Char → List (List Char)
  | _, [] => [[]]
  | depth, c :: cs =>
    if c = ',' ∧ depth = 0 then [] :: piecesWithin 0 cs
    else
      let deeper := if c = '(' then depth + 1 else if c = ')' then depth - 1 else depth
      match piecesWithin deeper cs with
      | [] => [[c]]
      | piece :: pieces => (c :: piece) :: pieces

/-- **The parts of a text between its outer commas**, trimmed, without the blank ones. -/
def topLevelParts (cs : List Char) : List (List Char) :=
  ((piecesWithin 0 cs).map Text.trim).filter (!·.isEmpty)

/-! ## Angles and stops -/

/-- The angle of a direction. -/
def directionAngle? (direction : List Char) : Option FiniteDouble :=
  let word := String.ofList direction
  if word = "top" then some (.ofUInt64 0)
  else if word = "right" then some (.ofUInt64 90)
  else if word = "bottom" then some (.ofUInt64 180)
  else if word = "left" then some (.ofUInt64 270)
  else if word = "top right" ∨ word = "right top" then some (.ofUInt64 45)
  else if word = "bottom right" ∨ word = "right bottom" then some (.ofUInt64 135)
  else if word = "bottom left" ∨ word = "left bottom" then some (.ofUInt64 225)
  else if word = "top left" ∨ word = "left top" then some (.ofUInt64 315)
  else none

/-- **The angle a part spells**: a direction after `to`, or a number of degrees. -/
def parseAngle? (part : List Char) : Option FiniteDouble :=
  match Text.lowerAscii (Text.trim part) with
  | 't' :: 'o' :: ' ' :: direction => directionAngle? (Text.trim direction)
  | word => (Dimension.parse? word).bind fun d => if d.unit = some .deg then some d.value else none

/-- A stop without the dimensions it ends in. -/
def withoutPositions (cs : List Char) : List Char :=
  match _h : Text.splitLast? Text.isBlank cs with
  | none => cs
  | some (head, tail) =>
    if (Dimension.parse? tail).isNone then cs else withoutPositions (Text.trimEnd head)
termination_by cs.length
decreasing_by
  exact Nat.lt_of_le_of_lt (Text.length_dropEndWhile_le _ _) (Text.length_splitLast?_lt (by assumption))

/-- **The colour of a stop**, none when a stop is only a position. -/
def stopColor? (cs : List Char) : Option (List Char) :=
  let color := withoutPositions (Text.trim cs)
  if color.isEmpty || (Dimension.parse? color).isSome then none else some color

/-! ## Reading and writing -/

/-- The angle without one written: downward. -/
def defaultAngle : FiniteDouble := .ofUInt64 180

/-- The gradient with an angle and the colours of its stops, if it has any. -/
def ofStops? (angle : FiniteDouble) (stops : List (List Char)) : Option Gradient :=
  let colors := stops.filterMap stopColor?
  if colors.isEmpty then none else some { colors := colors.map String.ofList, angle }

/-- The gradient the parts of a body describe. -/
def ofParts? : List (List Char) → Option Gradient
  | [] => none
  | part :: parts => match parseAngle? part with
    | some angle => ofStops? angle parts
    | none => ofStops? defaultAngle (part :: parts)

/-- **The first gradient in a text.** -/
def parse? (cs : List Char) : Option Gradient :=
  ((afterOpening? cs).bind balancedBody?).bind fun body => ofParts? (topLevelParts body)

/-- **The text of a gradient.** -/
def render (g : Gradient) : List Char :=
  opening ++ g.angle.plain ++ "deg, ".toList
    ++ Text.joined ", ".toList (g.colors.map String.toList) ++ [')']

/-- **A gradient as data.** -/
def toJson (g : Gradient) : Json :=
  .object [("colors", .array (g.colors.map .string)), ("angle", .ofDouble g.angle),
    ("type", .string "linear")]

/-- The positions of stops are left out, and the commas of a colour do not part it. -/
example : (parse? "LINEAR-GRADIENT(to right, red 0%, rgb(0, 0, 0) 50% 60%)".toList).map render
    = some "linear-gradient(90deg, red, rgb(0, 0, 0))".toList := by decide +kernel

end Gradient

end ScreenLayout
