import ScreenLayout.Style.Basic
import ScreenLayout.Style.Error
import ScreenLayout.Style.Token

/-!
# Style/Shorthand/Border — width, colour and line of a border

A border value holds a width, a colour and a line style in any order; the last of each counts, and
other words are passed over.  A border of one side has no line style of its own.

* `Shorthand.border` — the properties a border value writes.
-/

namespace ScreenLayout

/-- The length a token denotes, without its unit. -/
def Token.length? (t : Token) : Option FiniteDouble :=
  if t.kind = .dimension ∨ t.kind = .number then (Dimension.parse? t.text).map Dimension.value
  else none

/-- The colour a token denotes. -/
def Token.color? (t : Token) : Option (List Char) := if t.isColor then some t.text else none

namespace Shorthand

def lineStyles : List (List Char) := ["solid".toList, "dashed".toList, "dotted".toList]

/-- The line style a token denotes, in lower case. -/
def lineStyle? (t : Token) : Option (List Char) :=
  let word := Text.lowerAscii t.text
  if t.kind = .ident ∧ lineStyles.contains word then some word else none

/-- **The parts of a border.** -/
structure BorderParts where
  width : Option FiniteDouble
  color : Option (List Char)
  line : Option (List Char)
deriving DecidableEq

/-- The parts the tokens of a text denote, the last of each kind. -/
def BorderParts.ofTokens (tokens : List Token) : BorderParts where
  width := (tokens.filterMap Token.length?).getLast?
  color := (tokens.filterMap Token.color?).getLast?
  line := (tokens.filterMap lineStyle?).getLast?

def BorderParts.isEmpty (p : BorderParts) : Bool :=
  p.width.isNone && p.color.isNone && p.line.isNone

def widthName (side : String) : String := "border" ++ side ++ "Width"

def colorName (side : String) : String := "border" ++ side ++ "Color"

/-- The properties of the parts of a border; only a border of all sides has a line style. -/
def BorderParts.writes (p : BorderParts) (side : String) : List (String × StyleValue) :=
  (p.width.toList.map fun w => (widthName side, .number (.finite w)))
    ++ (p.color.toList.map fun c => (colorName side, .ofText c))
    ++ if side = "" then p.line.toList.map fun l => ("borderStyle", .ofText l) else []

/-- The properties a border text writes. -/
def borderOfText (side : String) (cs : List Char) : Except InvalidReason StylePatch :=
  if Text.sameAscii cs "none".toList then
    .ok (.one (widthName side) (.number FiniteDouble.zero))
  else
    let parts := BorderParts.ofTokens (Token.scan cs)
    if parts.isEmpty then .error (.emptyBorder (String.ofList cs))
    else .ok { writes := parts.writes side }

/-- **The border shorthand**, of one side or, with no name of a side, of all. -/
def border (property side : String) (v : Json) : Except StyleError StylePatch :=
  Except.mapError (.invalidValue property) <| match v with
    | .number n => .ok (.one (widthName side) (.number n.value))
    | .string s => borderOfText side (Text.trim s.toList)
    | v => .error (.notString v)

end Shorthand

end ScreenLayout
