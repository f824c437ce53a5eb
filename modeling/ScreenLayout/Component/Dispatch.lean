import ScreenLayout.Component.Kind
import ScreenLayout.Document.Basic

/-!
# Component/Dispatch — the component a section asks for

The identifier of a section is normalized: trimmed, in lower case, with dashes and spaces as
underscores.  A header whose label or variant mentions a mobile screen becomes its mobile variant.

* `Section.componentId` — the identifier a section is dispatched on.
* `Section.resolution` — the kind it names, or the identifier that names none.
-/

namespace ScreenLayout

/-- An identifier in its normal form. -/
def normalizedId (cs : List Char) : List Char :=
  (Text.lower (Text.trim cs)).map fun c => if c = '-' ∨ c = ' ' then '_' else c

/-- The first text among several fields of an object. -/
def Resolver.firstText? (r : Resolver) (props : Json) (keys : List String) : Option String :=
  keys.findSome? fun key => r.text? (r.field? props key)

/-- **What an identifier comes to.** -/
inductive Resolution where
  | resolved (kind : ComponentKind)
  | unrecognized (id : String)
deriving DecidableEq

/-- The warning about an identifier that names no component. -/
def Resolution.warning? : Resolution → Option Warning
  | resolved _ => none
  | unrecognized id => some (.unregisteredComponent id)

namespace Section

/-- The props that hold the label of a section, in the order they are looked up. -/
def labelKeys : List String := ["title", "label", "name", "displayName"]

/-- The props that hold the variant of a section, in the order they are looked up. -/
def variantKeys : List String := ["variant", "layoutVariant"]

variable (r : Resolver)

def mentionsMobile (s : String) : Bool := Text.contains "mobile".toList (Text.lower s.toList)

/-- Whether the label or the variant among some props mentions a mobile screen. -/
def asksForMobile (props : Json) : Bool :=
  (r.firstText? props labelKeys).any mentionsMobile
    || (r.firstText? props variantKeys).any mentionsMobile

/-- The normal form of the identifier a section names. -/
def namedId (s : Section) : String :=
  String.ofList (normalizedId ((r.text? (some s.component)).getD "").toList)

/-- **The identifier a section is dispatched on.** -/
def componentId (s : Section) : String :=
  match (ComponentKind.ofId? (namedId r s)).bind ComponentKind.mobileVariant? with
  | some mobile => if asksForMobile r s.props then mobile.id else namedId r s
  | none => namedId r s

/-- **What the identifier of a section comes to.** -/
def resolution (s : Section) : Resolution :=
  match ComponentKind.ofId? (componentId r s) with
  | some kind => .resolved kind
  | none => .unrecognized (componentId r s)

end Section

end ScreenLayout
