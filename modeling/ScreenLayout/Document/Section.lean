import ScreenLayout.Diagnostic
import ScreenLayout.Value.Resolver

/-!
# Document/Section — one entry of a layout document

A section names a component, carries the props for it and perhaps a visibility block.  An object that
names a component directly is the section itself; any other value is unwrapped first.

* `Section.ofJson` — the section a value describes.
-/

namespace ScreenLayout

/-- **A section**: the component it names, still in its wrappers, the props and the visibility
block. -/
structure Section where
  component : Json
  props : Json
  visibility : Option Json
deriving DecidableEq

/-- **Why a value is no section.** -/
inductive SectionError where
  | notAnObject (got : Json)
  | missingComponent
deriving DecidableEq

/-- The wording of an error. -/
def SectionError.message : SectionError → String
  | notAnObject got => "section must be an object, got: " ++ got.compactString
  | missingComponent => "section has no component identifier"

namespace Section

/-- The keys that name a component, in the order they are looked up. -/
def componentKeys : List String := ["component", "componentId", "type", "name"]

/-- The keys that hold the props, in the order they are looked up. -/
def propsKeys : List String := ["props", "properties"]

def visibilityKey : String := "visibility"

variable (r : Resolver)

/-- Whether an object names a component directly. -/
def namesComponent (v : Json) : Bool := (v.firstField? componentKeys).isSome

/-- **The object that holds the keys of a section.** -/
def sourceObject (v : Json) : Except SectionError Json :=
  if namesComponent v then .ok v
  else match r.unwrap v with
    | some (.object fields) => .ok (.object fields)
    | some other => .error (.notAnObject other)
    | none => .error (.notAnObject .null)

/-- The first component a section names that resolves to a text. -/
def component? (v : Json) : Option Json :=
  (componentKeys.filterMap (v.field? ·)).find? fun id => (r.text? (some id)).isSome

/-- The props of a section; the section itself when it has no key for them. -/
def propsOf (v : Json) : Json := (v.firstField? propsKeys).getD v

/-- The visibility block of a section, or the one among its props. -/
def visibilityOf (v : Json) : Option Json :=
  v.field? visibilityKey <|> r.field? (propsOf v) visibilityKey

/-- **The section a value describes.** -/
def ofJson (v : Json) : Except SectionError Section :=
  match sourceObject r v with
  | .error e => .error e
  | .ok v => match component? r v with
    | none => .error .missingComponent
    | some component => .ok { component, props := propsOf v, visibility := visibilityOf r v }

end Section

end ScreenLayout
