import ScreenLayout.Style.Gradient
import ScreenLayout.Style.Properties

/-!
# Style/Basic — compiled styles

A compiled style is a map of properties with at most one gradient beside it.  A `StylePatch` is what
the writes of one rule come to: properties in order, and perhaps a gradient.

* `Style.apply` — a patch written into a style, `Style.merge` — one style laid over another.
* `Style.toJson`, `Style.render` — a style as data and as text, the gradient last.
-/

namespace ScreenLayout

/-- **A compiled style.** -/
structure Style where
  properties : Properties
  gradient : Option Gradient
deriving DecidableEq

/-- **What the writes of one rule come to**: properties in order, and perhaps a gradient. -/
structure StylePatch where
  writes : List (String × StyleValue) := []
  gradient : Option Gradient := none
deriving DecidableEq

/-- The patch that writes one property. -/
def StylePatch.one (name : String) (v : StyleValue) : StylePatch := { writes := [(name, v)] }

namespace Style

def empty : Style := ⟨Properties.empty, none⟩

variable (s : Style)

def get? (name : String) : Option StyleValue := s.properties.get? name

def contains (name : String) : Bool := s.properties.contains name

def number? (name : String) : Option Double := (s.get? name).bind StyleValue.number?

def text? (name : String) : Option String := (s.get? name).bind StyleValue.text?

/-- The number of properties; the gradient is not counted. -/
def size : Nat := s.properties.size

def isEmpty : Bool := s.properties.isEmpty && s.gradient.isNone

def insert (name : String) (v : StyleValue) : Style :=
  { s with properties := s.properties.insert name v }

def erase (name : String) : Style := { s with properties := s.properties.erase name }

def setGradient (g : Gradient) : Style := { s with gradient := some g }

/-- **A patch written into a style**; a patch without a gradient leaves the one there. -/
def apply (p : StylePatch) : Style where
  properties := s.properties.insertMany p.writes
  gradient := p.gradient <|> s.gradient

/-- **One style laid over another**: its properties and its gradient win. -/
def merge (upper : Style) : Style :=
  s.apply { writes := upper.properties.entries, gradient := upper.gradient }

/-! ## Written forms -/

/-- The member under which a gradient is written. -/
def gradientKey : String := "gradient"

/-- **A style as data**: a gradient takes the place of a property of its name, or comes last. -/
def toJson : Json :=
  let fields := s.properties.entries.map fun (name, v) => (name, v.toJson)
  match s.gradient with
  | none => .object fields
  | some g =>
    if s.contains gradientKey then
      .object (fields.map fun (name, v) => (name, if name = gradientKey then g.toJson else v))
    else .object (fields ++ [(gradientKey, g.toJson)])

/-- One line of the text of a style. -/
def line (name : String) (value : List Char) : List Char :=
  name.toList ++ ':' :: ' ' :: (value ++ [';'])

/-- **The text of a style**: a line for each property, and one for the gradient at the end. -/
def render : List Char :=
  Text.joined ['\n'] <|
    (s.properties.entries.map fun (name, v) => line name v.render)
      ++ (s.gradient.toList.map fun g => line gradientKey g.render)

/-! ## Look-ups -/

theorem get?_insert (name : String) (v : StyleValue) (key : String) :
    (s.insert name v).get? key = if key = name then some v else s.get? key :=
  s.properties.get?_insert name v key

end Style

end ScreenLayout
