import ScreenLayout.Style.Shorthand.Box
import ScreenLayout.Style.Shorthand.Font
import ScreenLayout.Style.Shorthand.Shadow

/-!
# Style/Writer — writing into a style

A style that is there already is written in place, one property after the other.  A shorthand is
written so while its value is read, which may be refused at any point; whatever was written before
that stays written.

* `StyleWriter` — a computation that writes into a style and may be refused; `StyleWriter.put`,
  `StyleWriter.setGradient`, `StyleWriter.require` — its steps.
* `Shorthand.expandBox`, `Shorthand.expandBorder`, `Shorthand.expandFont`,
  `Shorthand.expandBoxShadow` — the shorthands written in place.
* `Expander` — a shorthand with what it needs to know besides its value.
* `StyleOp` — the operations on a style, `StyleOp.run` what each writes.
* `Style.after` — the style after several operations, begun with the empty one.
-/

namespace ScreenLayout

/-- **A computation that writes into a style and may be refused**; the style is what was written up to
there in either case. -/
abbrev StyleWriter := EStateM StyleError Style

namespace StyleWriter

def put (name : String) (v : StyleValue) : StyleWriter Unit := modify (·.insert name v)

/-- A property written if there is a value for it. -/
def putIf (name : String) : Option StyleValue → StyleWriter Unit
  | some v => put name v
  | none => pure ()

def setGradient (g : Gradient) : StyleWriter Unit := modify (·.setGradient g)

/-- A value that must be there. -/
def require {α : Type} (refusal : StyleError) : Option α → StyleWriter α
  | some a => pure a
  | none => throw refusal

end StyleWriter

namespace Shorthand

open StyleWriter

/-! ## Boxes -/

/-- The lengths that words denote, read one after the other. -/
def readLengths (name : String) : List (List Char) → StyleWriter (List StyleValue)
  | [] => pure []
  | word :: words => do
    match StyleValue.lengthPart? word with
    | none => throw (.invalidValue name (.badLength (String.ofList word)))
    | some length => return length :: (← readLengths name words)

/-- **The padding or margin shorthand**, written in place. -/
def expandBox (name : String) : Json → StyleWriter Unit
  | .number n => put name (.number n.value)
  | .string s => do
    match ← readLengths name (Text.words s.toList) with
    | [all] => put name all
    | [vertical, horizontal] =>
      put (name ++ "Vertical") vertical
      put (name ++ "Horizontal") horizontal
    | [top, horizontal, bottom] =>
      put (name ++ "Top") top
      put (name ++ "Horizontal") horizontal
      put (name ++ "Bottom") bottom
    | [top, right, bottom, left] =>
      put (name ++ "Top") top
      put (name ++ "Right") right
      put (name ++ "Bottom") bottom
      put (name ++ "Left") left
    | _ => throw (.invalidValue name .wrongCount)
  | v => throw (.invalidValue name (.notNumberOrString v))

/-! ## Borders -/

/-- The parts of a border with one token more: a width, else a colour, else a line style. -/
def BorderParts.read (p : BorderParts) (t : Token) : BorderParts :=
  if t.kind = .dimension ∨ t.kind = .number then { p with width := t.length?.or p.width }
  else if t.isColor then { p with color := some t.text }
  else { p with line := (lineStyle? t).or p.line }

/-- **The border shorthand**, written in place. -/
def expandBorder (property side : String) : Json → StyleWriter Unit
  | .number n => put (widthName side) (.number n.value)
  | .string s => do
    let cs := Text.trim s.toList
    if Text.sameAscii cs "none".toList then put (widthName side) (.number FiniteDouble.zero)
    else
      let parts := (Token.scan cs).foldl BorderParts.read ⟨none, none, none⟩
      if parts.isEmpty then throw (.invalidValue property (.emptyBorder (String.ofList cs)))
      putIf (widthName side) (parts.width.map fun w => .number (.finite w))
      putIf (colorName side) (parts.color.map .ofText)
      if side = "" then putIf "borderStyle" (parts.line.map .ofText)
  | v => throw (.invalidValue property (.notString v))

/-! ## Fonts -/

/-- **What the modifiers of a font come to.** -/
structure FontFace where
  style : Option String := none
  variants : List String := []
  weight : Option (List Char) := none

def FontFace.read (f : FontFace) : FontModifier → FontFace
  | .normal => f
  | .italic => { f with style := some "italic" }
  | .smallCaps => { f with variants := f.variants ++ ["small-caps"] }
  | .weight word => { f with weight := some word }

/-- The modifiers at the front of the words of a font, the word after them and the rest. -/
def readFace (cs : List Char) :
    FontFace → List (List Char) → StyleWriter (FontFace × List Char × List (List Char))
  | _, [] => throw (.invalidValue "font" (.noFontSize (String.ofList cs)))
  | f, word :: words => match FontModifier.ofWord? word with
    | some modifier => readFace cs (f.read modifier) words
    | none => return (f, word, words)

/-- The size and line height in one word. -/
def readSize (word : List Char) : StyleWriter FontSize :=
  match FontSize.ofWord word with
  | .ok size => pure size
  | .error e => throw (.invalidValue "font" e)

/-- **The font shorthand**, written in place. -/
def expandFont : Json → StyleWriter Unit
  | .string s => do
    let cs := Text.trim s.toList
    let (face, word, rest) ← readFace cs {} (Text.words cs)
    let size ← readSize word
    match firstFamily? (Text.joined [' '] rest) with
    | none => throw (.invalidValue "font" (.noFontFamily (String.ofList cs)))
    | some family =>
      putIf "fontStyle" (face.style.map .text)
      putIf "fontVariant" (if face.variants.isEmpty then none else some (.list face.variants))
      putIf "fontWeight" (face.weight.map .ofText)
      put "fontSize" (.number size.size)
      putIf "lineHeight" (size.lineHeight.map fun h => .number (.finite h))
      put "fontFamily" (.ofText family)
  | v => throw (.invalidValue "font" (.notString v))

/-! ## Shadows -/

/-- **The parts of a shadow**: its lengths in their order and its colour. -/
structure ShadowParts where
  lengths : List FiniteDouble := []
  color : Option (List Char) := none

/-- The parts of a shadow with one token more; the first colour counts. -/
def ShadowParts.read (p : ShadowParts) (t : Token) : ShadowParts :=
  if t.kind = .dimension ∨ t.kind = .number then { p with lengths := p.lengths ++ t.length?.toList }
  else if p.color.isNone && t.isColor then { p with color := some t.text }
  else p

/-- **The shadow shorthand**, written in place. -/
def expandBoxShadow (c : Config) : Json → StyleWriter Unit
  | .string s => do
    let cs := Text.trim s.toList
    if Text.sameAscii cs "none".toList then throw (.invalidValue "boxShadow" .noShadow)
    let parts := (Token.scan cs).foldl ShadowParts.read {}
    match parts.lengths with
    | x :: y :: rest =>
      let blur := rest.head?.getD FiniteDouble.zero
      put "shadowOffset" (.offset x y)
      put "shadowRadius" (.number blur)
      put "shadowOpacity" (.number c.shadowOpacity)
      putIf "shadowColor" (parts.color.map .ofText)
      put "elevation" (.number (elevation blur))
    | _ => throw (.invalidValue "boxShadow" (.tooFewOffsets (String.ofList cs)))
  | v => throw (.invalidValue "boxShadow" (.notString v))

end Shorthand

/-! ## Operations -/

/-- **A shorthand** with what it needs to know besides its value. -/
inductive Expander where
  | box (name : String)
  | border (property side : String)
  | font
  | boxShadow (c : Config)

/-- The shorthand written in place. -/
def Expander.expand : Expander → Json → StyleWriter Unit
  | box name => Shorthand.expandBox name
  | border property side => Shorthand.expandBorder property side
  | font => Shorthand.expandFont
  | boxShadow c => Shorthand.expandBoxShadow c

/-- **An operation on a style.** -/
inductive StyleOp where
  | insert (name : String) (v : StyleValue)
  | remove (name : String)
  | setGradient (g : Gradient)
  | merge (upper : Style)
  | expand (x : Expander) (v : Json)

/-- What an operation writes. -/
def StyleOp.run : StyleOp → StyleWriter Unit
  | insert name v => StyleWriter.put name v
  | remove name => modify (·.erase name)
  | setGradient g => StyleWriter.setGradient g
  | merge upper => modify (·.merge upper)
  | expand x v => x.expand v

/-- The style an operation leaves, refused or not. -/
def Style.step (s : Style) (op : StyleOp) : Style :=
  match op.run.run s with
  | .ok _ t => t
  | .error _ t => t

/-- **The style after several operations**, begun with the empty one. -/
def Style.after (ops : List StyleOp) : Style := ops.foldl Style.step Style.empty

end ScreenLayout
