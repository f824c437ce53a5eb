import ScreenLayout.Json.Compact
import ScreenLayout.Style.Dimension

/-!
# Style/Value — the values of style properties

A compiled property is a number, a text, a list of words, an offset in two directions, or data that
is passed on as it came.

* `StyleValue.render` — the text of a value, `StyleValue.toJson` the value as data.
* `StyleValue.ofLength` — a length loses its unit; what is no length passes through.
* `StyleValue.lengthPart?` — one word of a shorthand that takes lengths.
-/

namespace ScreenLayout

/-- **A concrete value of a style property.** -/
inductive StyleValue where
  | number (value : Double)
  | text (value : String)
  | list (items : List String)
  | offset (width height : Double)
  | json (value : Json)
deriving DecidableEq

namespace StyleValue

def number? : StyleValue → Option Double
  | number x => some x
  | _ => none

def text? : StyleValue → Option String
  | text s => some s
  | _ => none

/-- **The text of a value.** -/
def render : StyleValue → List Char
  | number x => x.plain
  | text s => s.toList
  | list items => Text.joined [' '] (items.map String.toList)
  | offset width height => width.plain ++ ' ' :: height.plain
  | json v => v.compact

/-- **A value as data**: an offset is an object, and doubles that are not finite are `null`. -/
def toJson : StyleValue → Json
  | number x => .ofDouble x
  | text s => .string s
  | list items => .array (items.map .string)
  | offset width height => .object [("width", .ofDouble width), ("height", .ofDouble height)]
  | json v => v

/-- A value made of characters. -/
def ofText (cs : List Char) : StyleValue := text (String.ofList cs)

/-! ## Lengths -/

/-- **A length without its unit**; any other value passes through. -/
def ofLength : Json → StyleValue
  | .number n => number n.value
  | .string s => match Dimension.parse? s.toList with
    | some d => number d.value
    | none => text s
  | v => json v

/-- One word of a shorthand that takes lengths: `auto`, or a length without its unit. -/
def lengthPart? (word : List Char) : Option StyleValue :=
  if Text.sameAscii (Text.trim word) "auto".toList then some (text "auto")
  else (Dimension.parse? (Text.trim word)).map fun d => number d.value

end StyleValue

end ScreenLayout
