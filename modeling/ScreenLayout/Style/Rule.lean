import ScreenLayout.Style.Shorthand.Box
import ScreenLayout.Style.Shorthand.Font
import ScreenLayout.Style.Shorthand.Radius
import ScreenLayout.Style.Shorthand.Shadow

/-!
# Style/Rule — how each property is compiled

Every canonical name has one rule, looked up in `Rule.table`; a name that is not there has the rule
`other`.  A rule reads a value and writes properties for it, or refuses it.  It writes them in place,
into the style of the whole dictionary (`Rule.apply`); its patch is what that comes to by the value
alone.

* `Rule.ofName` — the rule of a property.
* `Rule.patch` — what a rule comes to for a value.
* `unitless` — numbers, and ratios such as `16/9`.
-/

namespace ScreenLayout

/-- **A rule for a property.** -/
inductive Rule where
  | unsupported
  | box
  | lengthAs (name : String)
  | border (side : String)
  | borderRadius
  | background
  | opacity
  | opacityPercent
  | boxShadow
  | font
  | fontFamily
  | fontWeight
  | fontVariant
  | fontStyle
  | textDecoration
  | letterSpacing
  | objectFit
  | keyword
  | length
  | unitless
  | other
deriving DecidableEq

namespace Rule

/-! ## Names -/

/-- Layout properties that have no counterpart on a screen. -/
def unsupportedNames : List String := ["gap", "rowGap", "columnGap"]

/-- Words from a fixed choice. -/
def keywordNames : List String :=
  ["textAlign", "flexDirection", "flexWrap", "justifyContent", "alignItems", "alignSelf",
   "alignContent", "position", "overflow", "display", "borderStyle", "textTransform",
   "writingDirection"]

/-- Lengths. -/
def lengthNames : List String :=
  ["width", "height", "minWidth", "maxWidth", "minHeight", "maxHeight", "top", "left", "right",
   "bottom", "start", "end", "fontSize", "lineHeight", "flexBasis", "borderWidth",
   "borderTopWidth", "borderRightWidth", "borderBottomWidth", "borderLeftWidth",
   "borderTopLeftRadius", "borderTopRightRadius", "borderBottomLeftRadius",
   "borderBottomRightRadius", "paddingTop", "paddingRight", "paddingBottom", "paddingLeft",
   "paddingVertical", "paddingHorizontal", "marginTop", "marginRight", "marginBottom",
   "marginLeft", "marginVertical", "marginHorizontal", "shadowRadius"]

/-- Numbers without a unit. -/
def unitlessNames : List String := ["flex", "flexGrow", "flexShrink", "zIndex", "aspectRatio"]

/-- The properties with a rule of their own. -/
def dedicated : List (String × Rule) :=
  [("padding", box), ("margin", box), ("paddingX", lengthAs "paddingHorizontal"),
   ("paddingY", lengthAs "paddingVertical"), ("marginX", lengthAs "marginHorizontal"),
   ("marginY", lengthAs "marginVertical"), ("border", border ""), ("borderTop", border "Top"),
   ("borderRight", border "Right"), ("borderBottom", border "Bottom"),
   ("borderLeft", border "Left"), ("borderRadius", borderRadius), ("background", background),
   ("backgroundColor", background), ("opacity", opacity), ("backgroundOpacity", opacityPercent),
   ("boxShadow", boxShadow), ("font", font), ("fontFamily", fontFamily),
   ("fontWeight", fontWeight), ("fontVariant", fontVariant), ("fontStyle", fontStyle),
   ("textDecoration", textDecoration), ("textDecorationLine", textDecoration),
   ("letterSpacing", letterSpacing), ("objectFit", objectFit)]

/-- **The rules by name.** -/
def table : List (String × Rule) :=
  unsupportedNames.map (·, unsupported) ++ dedicated ++ keywordNames.map (·, keyword)
    ++ lengthNames.map (·, length) ++ unitlessNames.map (·, unitless)

/-- **The rule of a property.** -/
def ofName (name : String) : Rule := (table.lookup name).getD other

end Rule

/-! ## Values -/

/-- The value of a ratio `a/b`, whose parts may be any numbers but a zero below. -/
def ratio? (cs : List Char) : Option Double :=
  (Text.splitOnce? '/' cs).bind fun (a, b) =>
    match Double.parse? (Text.trim a), Double.parse? (Text.trim b) with
    | some x, some y => if y.isZero then none else some (x / y)
    | _, _ => none

/-- The text of a unitless property as a number: a ratio, or a finite number. -/
def unitlessNumber? (cs : List Char) : Option Double :=
  ratio? cs <|> (FiniteDouble.parse? (Text.trim cs)).map .finite

/-- **A number without a unit**; what is no number passes through. -/
def unitless : Json → StyleValue
  | .number n => .number n.value
  | .string s => match unitlessNumber? s.toList with
    | some x => .number x
    | none => .text s
  | v => .json v

/-- A property without a rule: a number with a unit loses it, and all else passes through. -/
def otherValue : Json → StyleValue
  | .string s => match Dimension.stripUnit? s.toList with
    | some x => .number x
    | none => .text s
  | v => .ofLength v

/-- A word from a fixed choice, in lower case. -/
def keywordValue : Json → StyleValue
  | .string s => .ofText (Text.lowerAscii (Text.trim s.toList))
  | v => .json v

/-- The patch of a background: a gradient and its first colour, or what is written for a colour. -/
def backgroundPatch : Json → Except InvalidReason StylePatch
  | .string s =>
    let cs := Text.trim s.toList
    if Gradient.isGradient cs then
      match Gradient.parse? cs, Token.firstColor? cs with
      | some g, _ =>
        .ok { writes := g.colors.head?.toList.map fun c => ("backgroundColor", .text c)
              gradient := some g }
      | none, some color => .ok (.one "backgroundColor" (.ofText color))
      | none, none => .error (.unreadableGradient (String.ofList cs))
    else .ok (.one "backgroundColor" (.ofText cs))
  | v => .ok (.one "backgroundColor" (.json v))

/-- The weight of a font: a number written out, or a word in lower case. -/
def fontWeight? : Json → Option (List Char)
  | .number n => some n.value.plain
  | .string s =>
    let word := Text.lowerAscii (Text.trim s.toList)
    if word.isEmpty then none else some word
  | _ => none

/-- The variants of a font: the words of a text, or the texts in an array. -/
def fontVariants (r : Resolver) : Json → List String
  | .string s => (Text.words s.toList).map String.ofList
  | .array items => (items.filterMap r.unwrap).filterMap Json.string?
  | _ => []

/-- The style of a font: italic where that is written. -/
def fontStyleWord (v : Json) : String :=
  match v with
  | .string s =>
    if Text.sameAscii (Text.trim s.toList) "italic".toList then "italic" else "normal"
  | _ => "normal"

/-- The line of a decoration that a text mentions. -/
def decorationLine (v : Json) : String :=
  let text := Text.lowerAscii ((v.string?.getD "").toList)
  if Text.contains "underline".toList text then "underline"
  else if Text.contains "line-through".toList text then "line-through"
  else "none"

/-- A percentage as a fraction of one. -/
def ofPercent (x : FiniteDouble) : Double := Double.div x (FiniteDouble.ofUInt64 100)

/-- The letter spacing in points. -/
def letterSpacing? (c : Config) : Json → Option Double
  | .number n => some n.value
  | .string s => (Dimension.parse? s.toList).bind (·.toPoints? c.baseFontSize)
  | _ => none

/-- How an image fills its frame. -/
def resizeMode (v : Json) : String :=
  match v with
  | .string s =>
    let word := String.ofList (Text.lowerAscii (Text.trim s.toList))
    if word = "cover" then "cover" else if word = "fill" then "stretch" else "contain"
  | _ => "contain"

/-! ## Patches -/

namespace Rule

/-- The patch for a value that could be read, or a refusal of the value. -/
def orUnreadable {α : Type} (property : String) (v : Json) (f : α → StylePatch) :
    Option α → Except StyleError StylePatch
  | some a => .ok (f a)
  | none => .error (.invalidValue property (.unreadable v))

/-- **What a rule comes to** for a property with a value inside its wrappers: all it writes, or the
refusal of the value.  `Rule.apply_eq` says so of the rule written in place. -/
def patch (c : Config) (property : String) (v : Json) : Rule → Except StyleError StylePatch
  | unsupported => .error (.unsupported property)
  | box => Shorthand.box property v
  | lengthAs name => .ok (.one name (.ofLength v))
  | border side => Shorthand.border property side v
  | borderRadius => (Shorthand.borderRadius c v).map fun x => .one "borderRadius" (.number x)
  | background => (backgroundPatch v).mapError (.invalidValue property)
  | opacity => orUnreadable property v (fun x => .one "opacity" (.number (.finite x))) v.toNumber?
  | opacityPercent =>
    orUnreadable property v (fun x => .one "opacity" (.number (ofPercent x))) v.toNumber?
  | boxShadow => Shorthand.boxShadow c v
  | font => Shorthand.font v
  | fontFamily =>
    orUnreadable property v (fun f => .one "fontFamily" (.ofText f))
      (v.string?.bind fun s => Shorthand.firstFamily? s.toList)
  | fontWeight => orUnreadable property v (fun w => .one "fontWeight" (.ofText w)) (fontWeight? v)
  | fontVariant =>
    match fontVariants c.resolver v with
    | [] => .error (.invalidValue property (.unreadable v))
    | variants => .ok (.one "fontVariant" (.list variants))
  | fontStyle => .ok (.one "fontStyle" (.text (fontStyleWord v)))
  | textDecoration => .ok (.one "textDecorationLine" (.text (decorationLine v)))
  | letterSpacing =>
    orUnreadable property v (fun x => .one "letterSpacing" (.number x)) (letterSpacing? c v)
  | objectFit => .ok (.one "resizeMode" (.text (resizeMode v)))
  | keyword => .ok (.one property (keywordValue v))
  | length => .ok (.one property (.ofLength v))
  | unitless => .ok (.one property (ScreenLayout.unitless v))
  | other => .ok (.one property (otherValue v))

end Rule

end ScreenLayout
