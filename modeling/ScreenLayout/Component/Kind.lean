/-!
# Component/Kind — the components and their identifiers

Ten kinds of component are known.  `registry` lists the identifiers that name them, in lower case; a
header also has a variant for mobile screens.

* `ComponentKind.ofId?` — the kind an identifier names.
* `registeredIds` — the identifiers in order.
-/

namespace ScreenLayout

/-- **A kind of component.** -/
inductive ComponentKind where
  | header | mobileHeader | banner | carousel | button | text | image | spacer | divider | footer
deriving DecidableEq

namespace ComponentKind

/-- The canonical identifier of a kind. -/
def id : ComponentKind → String
  | header => "header"
  | mobileHeader => "mobile_header"
  | banner => "banner"
  | carousel => "carousel"
  | button => "button"
  | text => "text"
  | image => "image"
  | spacer => "spacer"
  | divider => "divider"
  | footer => "footer"

/-- The variant of a kind for mobile screens, if it has one. -/
def mobileVariant? : ComponentKind → Option ComponentKind
  | header => some mobileHeader
  | _ => none

/-- **The identifiers that name a component.** -/
def registry : List (String × ComponentKind) :=
  [("header", header), ("navbar", header), ("app_header", header),
   ("mobile_header", mobileHeader), ("header_mobile", mobileHeader),
   ("mobileheader", mobileHeader), ("banner", banner), ("hero", banner), ("carousel", carousel),
   ("slider", carousel), ("button", button), ("cta", button), ("text", text),
   ("paragraph", text), ("heading", text), ("image", image), ("spacer", spacer),
   ("divider", divider), ("footer", footer)]

/-- **The kind an identifier names.** -/
def ofId? (id : String) : Option ComponentKind := registry.lookup id

/-- Every kind is named by its canonical identifier. -/
theorem ofId?_id (k : ComponentKind) : ofId? k.id = some k := by
  cases k <;> decide

end ComponentKind

/-- The identifiers that name a component, in increasing order. -/
def registeredIds : List String :=
  (ComponentKind.registry.map Prod.fst).mergeSort fun a b => decide (a ≤ b)

end ScreenLayout
