import ScreenLayout.Style.Basic
import ScreenLayout.Style.Error

/-!
# Style/Shorthand/Font — the parts of a font

A font value is a run of modifiers (style, variant and weight, in any order), a size with an optional
line height after a slash, and a family.

* `Shorthand.FontModifier.ofWord?` — the modifier a word denotes.
* `Shorthand.firstFamily?` — the first family of a list, without quotes.
* `Shorthand.font` — the properties a font value writes.
-/

namespace ScreenLayout.Shorthand

/-! ## Modifiers -/

/-- **A word before the size.** -/
inductive FontModifier where
  | normal
  | italic
  | smallCaps
  | weight (word : List Char)
deriving DecidableEq

/-- The whole number a text of digits spells, with an optional plus sign. -/
def wholeNumber? (cs : List Char) : Option Nat :=
  let ds := match cs with
    | '+' :: ds => ds
    | ds => ds
  if ds.isEmpty || !ds.all Char.isDigit then none else some (Nat.ofDigitChars 10 ds 0)

/-- Whether a word spells a weight: a hundred to nine hundred, by hundreds. -/
def isNumericWeight (cs : List Char) : Bool :=
  (wholeNumber? cs).any fun w => 100 ≤ w && w ≤ 900 && w % 100 == 0

/-- The weights that are words. -/
def weightWords : List (List Char) := ["bold".toList, "bolder".toList, "lighter".toList]

/-- The modifier a word denotes, in any case. -/
def FontModifier.ofWord? (word : List Char) : Option FontModifier :=
  let lower := Text.lowerAscii word
  if lower = "normal".toList then some .normal
  else if lower = "italic".toList ∨ lower = "oblique".toList then some .italic
  else if lower = "small-caps".toList then some .smallCaps
  else if weightWords.contains lower || isNumericWeight lower then some (.weight lower)
  else none

def FontModifier.weight? : FontModifier → Option (List Char)
  | weight word => some word
  | _ => none

/-- The properties modifiers write: a style if any is italic, a variant for each that asks for small
capitals, and the last weight. -/
def modifierWrites (modifiers : List FontModifier) : List (String × StyleValue) :=
  (if modifiers.contains .italic then [("fontStyle", .text "italic")] else [])
    ++ (if modifiers.contains .smallCaps then
        [("fontVariant", .list (List.replicate (modifiers.count .smallCaps) "small-caps"))]
      else [])
    ++ ((modifiers.filterMap FontModifier.weight?).getLast?.toList.map fun w =>
        ("fontWeight", .ofText w))

/-! ## Size and family -/

/-- **The size and line height** in one word. -/
structure FontSize where
  size : FiniteDouble
  lineHeight : Option FiniteDouble
deriving DecidableEq

/-- The size and line height a word spells. -/
def FontSize.ofWord (word : List Char) : Except InvalidReason FontSize :=
  let (size, lineHeight) := match Text.splitOnce? '/' word with
    | some (size, lineHeight) => (size, some lineHeight)
    | none => (word, none)
  match Dimension.parse? size, lineHeight with
  | none, _ => .error (.unexpectedWord (String.ofList word))
  | some d, none => .ok { size := d.value, lineHeight := none }
  | some d, some height => match Dimension.parse? height with
    | none => .error (.badLineHeight (String.ofList height))
    | some h => .ok { size := d.value, lineHeight := some h.value }

def FontSize.writes (f : FontSize) : List (String × StyleValue) :=
  ("fontSize", .number f.size) :: (f.lineHeight.toList.map fun h => ("lineHeight", .number (.finite h)))

def isQuote (c : Char) : Bool := c == '"' || c == '\''

/-- **The first family of a list**, without the quotes and blanks around it. -/
def firstFamily? (cs : List Char) : Option (List Char) :=
  let entry := Text.trim (cs.takeWhile (· != ','))
  let family := Text.trim (Text.dropEndWhile isQuote (entry.dropWhile isQuote))
  if family.isEmpty then none else some family

/-! ## The shorthand -/

/-- The properties a font text writes. -/
def fontOfText (cs : List Char) : Except InvalidReason StylePatch :=
  let words := Text.words cs
  let modifiers := (words.takeWhile fun w => (FontModifier.ofWord? w).isSome).filterMap
    FontModifier.ofWord?
  match words.dropWhile fun w => (FontModifier.ofWord? w).isSome with
  | [] => .error (.noFontSize (String.ofList cs))
  | word :: rest => match FontSize.ofWord word with
    | .error e => .error e
    | .ok size => match firstFamily? (Text.joined [' '] rest) with
      | none => .error (.noFontFamily (String.ofList cs))
      | some family =>
        .ok { writes := modifierWrites modifiers ++ size.writes ++ [("fontFamily", .ofText family)] }

/-- **The font shorthand.** -/
def font (v : Json) : Except StyleError StylePatch :=
  Except.mapError (.invalidValue "font") <| match v with
    | .string s => fontOfText (Text.trim s.toList)
    | v => .error (.notString v)

end ScreenLayout.Shorthand
