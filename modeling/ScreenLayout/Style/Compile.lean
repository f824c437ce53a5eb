import ScreenLayout.Diagnostic
import ScreenLayout.Style.PropertyName
import ScreenLayout.Style.Rule
import ScreenLayout.Style.Writer

/-!
# Style/Compile — style dictionaries compiled

The entries of a dictionary are compiled into one style, one after the other.  The value of an entry is
unwrapped, and the rule of its canonical name writes into the style that is there; a value that is
refused leaves an event in the log.

* `Compiler` — a computation that writes into a style, keeps a log and may be refused.
* `Rule.apply` — a rule written in place.
* `compileInto` — one entry compiled into what is there; `compile` — a dictionary.
* `compileValue` — a value that must resolve to a dictionary.
* `compileField` — a dictionary among the props of a component, empty when there is none.
-/

namespace ScreenLayout

/-- **What happens to the entries of a dictionary** besides what they write. -/
inductive StyleEvent where
  | tooManyWrappers (bound : Nat)
  | unresolvable (property : String)
  | refused (property : String) (error : StyleError)
  | ignoredField (field : String) (error : StyleError)
deriving DecidableEq

/-- An event as an entry of the log. -/
def StyleEvent.diagnostic : StyleEvent → Diagnostic
  | tooManyWrappers bound =>
    ⟨.trace, "schema value exceeded wrapper depth", [("max_depth", .count bound)]⟩
  | unresolvable property =>
    ⟨.debug, "dropped unresolvable style property", [("property", .text property)]⟩
  | refused property error =>
    ⟨.debug, "dropped style property", [("property", .text property), ("error", .text error.message)]⟩
  | ignoredField field error =>
    ⟨.debug, "ignored style field", [("field", .text field), ("error", .text error.message)]⟩

/-- **A compiled style with the events of its compilation.** -/
structure Compiled where
  style : Style
  events : List StyleEvent
deriving DecidableEq

/-- The style of a dictionary that writes nothing. -/
def Compiled.nothing : Compiled := ⟨Style.empty, []⟩

/-- Events told of at the end of the log. -/
def Compiled.log (out : Compiled) (events : List StyleEvent) : Compiled :=
  { out with events := out.events ++ events }

theorem Compiled.log_nil (out : Compiled) : out.log [] = out :=
  congrArg (Compiled.mk out.style) (List.append_nil out.events)

theorem Compiled.log_append (out : Compiled) (front back : List StyleEvent) :
    out.log (front ++ back) = (out.log front).log back :=
  congrArg (Compiled.mk out.style) (List.append_assoc out.events front back).symm

variable (c : Config)

/-- The event of unwrapping a value, if it lies too deep. -/
def wrapperEvents (v : Json) : List StyleEvent :=
  match c.resolver.peel v with
  | .tooDeep => [.tooManyWrappers c.maxDepth]
  | _ => []

/-! ## Compilers -/

/-- **A computation that writes into a style, keeps a log and may be refused**; what was written and
told of up to there stays in either case. -/
abbrev Compiler := EStateM StyleError Compiled

namespace Compiler

def log (events : List StyleEvent) : Compiler Unit := modify (·.log events)

/-- What is written into the style, beside the log. -/
def write {α : Type} (w : StyleWriter α) : Compiler α := fun out =>
  match w.run out.style with
  | .ok a style => .ok a { out with style }
  | .error error style => .error error { out with style }

/-- A value unwrapped, with the event of that. -/
def unwrap (v : Json) : Compiler (Option Json) := do
  log (wrapperEvents c v)
  return c.resolver.unwrap v

/-- The items of an array unwrapped in turn, without those that hold no value. -/
def unwrapAll : List Json → Compiler (List Json)
  | [] => return []
  | item :: items => do
    let v ← unwrap c item
    return v.toList ++ (← unwrapAll items)

end Compiler

/-! ## Rules in place -/

namespace Rule

open StyleWriter

/-- A background, written in place: the gradient first, then its first colour or the one it falls back
to. -/
def writeBackground (property : String) : Json → StyleWriter Unit
  | .string s => do
    let cs := Text.trim s.toList
    if Gradient.isGradient cs then
      let gradient := Gradient.parse? cs
      let fallback := (gradient.bind (·.colors.head?)).or ((Token.firstColor? cs).map String.ofList)
      if gradient.isNone && fallback.isNone then
        throw (.invalidValue property (.unreadableGradient (String.ofList cs)))
      match gradient with
      | some g => setGradient g
      | none => pure ()
      putIf "backgroundColor" (fallback.map .text)
    else put "backgroundColor" (.ofText cs)
  | v => put "backgroundColor" (.json v)

/-- The variants of a font, the items of an array unwrapped in turn. -/
def readVariants : Json → Compiler (List String)
  | .string s => return (Text.words s.toList).map String.ofList
  | .array items => return (← Compiler.unwrapAll c items).filterMap Json.string?
  | _ => return []

/-- **A rule written in place**, for a property with a value inside its wrappers. -/
def apply (property : String) (v : Json) : Rule → Compiler Unit
  | unsupported => throw (.unsupported property)
  | box => .write (Shorthand.expandBox property v)
  | lengthAs name => .write (put name (.ofLength v))
  | border side => .write (Shorthand.expandBorder property side v)
  | borderRadius => .write do
    let radius ← MonadExcept.ofExcept (Shorthand.borderRadius c v)
    put "borderRadius" (.number radius)
  | background => .write (writeBackground property v)
  | opacity => .write do
    let opacity ← require (.invalidValue property (.unreadable v)) v.toNumber?
    put "opacity" (.number (.finite opacity))
  | opacityPercent => .write do
    let percent ← require (.invalidValue property (.unreadable v)) v.toNumber?
    put "opacity" (.number (ofPercent percent))
  | boxShadow => .write (Shorthand.expandBoxShadow c v)
  | font => .write (Shorthand.expandFont v)
  | fontFamily => .write do
    let family ← require (.invalidValue property (.unreadable v))
      (v.string?.bind fun s => Shorthand.firstFamily? s.toList)
    put "fontFamily" (.ofText family)
  | fontWeight => .write do
    let weight ← require (.invalidValue property (.unreadable v)) (fontWeight? v)
    put "fontWeight" (.ofText weight)
  | fontVariant => do
    let variants ← readVariants c v
    if variants.isEmpty then throw (.invalidValue property (.unreadable v))
    .write (put "fontVariant" (.list variants))
  | fontStyle => .write (put "fontStyle" (.text (fontStyleWord v)))
  | textDecoration => .write (put "textDecorationLine" (.text (decorationLine v)))
  | letterSpacing => .write do
    let spacing ← require (.invalidValue property (.unreadable v)) (letterSpacing? c v)
    put "letterSpacing" (.number spacing)
  | objectFit => .write (put "resizeMode" (.text (resizeMode v)))
  | keyword => .write (put property (keywordValue v))
  | length => .write (put property (.ofLength v))
  | unitless => .write (put property (ScreenLayout.unitless v))
  | other => .write (put property (otherValue v))

end Rule

/-! ## Dictionaries -/

/-- **One entry compiled into what is there.**  A value that is refused is told of, and what its rule
wrote before that stays. -/
def compileInto (out : Compiled) (entry : String × Json) : Compiled :=
  let property := canonicalName entry.1
  let out := out.log (wrapperEvents c entry.2)
  match c.resolver.unwrap entry.2 with
  | none => out.log [.unresolvable property]
  | some v => match ((Rule.ofName property).apply c property v).run out with
    | .ok _ out => out
    | .error error out => out.log [.refused property error]

/-- **A dictionary compiled**: its entries in their order, into one style. -/
def compile (entries : List (String × Json)) : Compiled :=
  entries.foldl (compileInto c) Compiled.nothing

/-- **A value compiled**: a dictionary inside wrappers, or nothing at all. -/
def compileValue (v : Json) : Except StyleError Compiled :=
  match c.resolver.unwrap v with
  | none => .ok { Compiled.nothing with events := wrapperEvents c v }
  | some (.object entries) => .ok (compile c entries)
  | some other => .error (.notAnObject other.kindName)

/-- **The style among some props**: empty when the field is missing or holds no dictionary. -/
def compileField (props : Json) (key : String) : Compiled :=
  match c.resolver.field? props key with
  | none => { Compiled.nothing with events := wrapperEvents c props }
  | some v => match compileValue c v with
    | .ok compiled => compiled
    | .error error => { Compiled.nothing with events := [.ignoredField key error] }

end ScreenLayout
