import ScreenLayout.Document.Visibility
import ScreenLayout.View.Render

/-!
# Screen — a layout document rendered

Each section of a document is hidden, dispatched to a component and rendered, or left out because no
component has its identifier.  A screen keeps the views in document order and says which sections gave
none.

* `Screen.outcome` — what becomes of one section.
* `Screen.build` — the screen of a document.
-/

namespace ScreenLayout

/-- Why a section gives no view. -/
inductive SkipReason where
  | hidden
  | unrecognized (id : String)
deriving DecidableEq

/-- A section that gives no view, by its place among the sections. -/
structure Skipped where
  index : Nat
  reason : SkipReason
deriving DecidableEq

/-- **The views of a document**, the sections without one, and the warnings. -/
structure Screen where
  views : List View
  skipped : List Skipped
  warnings : List Warning
deriving DecidableEq

namespace Screen

/-- **What becomes of a section.** -/
inductive Outcome where
  | shown (view : View)
  | skipped (reason : SkipReason)
deriving DecidableEq

/-- The view of a section, or the reason there is none; `dispatcher` resolves the identifier. -/
def outcome (c : Config) (dispatcher : Resolver) (s : Section) : Outcome :=
  if s.isVisible c.resolver then
    match s.resolution dispatcher with
    | .resolved kind => .shown (View.render c kind s.props)
    | .unrecognized id => .skipped (.unrecognized id)
  else .skipped .hidden

def Outcome.view? : Outcome → Option View
  | shown view => some view
  | skipped _ => none

def Outcome.skipped? (index : Nat) : Outcome → Option Skipped
  | shown _ => none
  | skipped reason => some { index, reason }

/-- The warning about a section: that no component has its identifier. -/
def Outcome.warning? : Outcome → Option Warning
  | skipped (.unrecognized id) => some (.unregisteredComponent id)
  | _ => none

/-- **The screen of some sections.** -/
def ofSections (c : Config) (dispatcher : Resolver) (sections : List Section) : Screen :=
  let outcomes := sections.map (outcome c dispatcher)
  { views := outcomes.filterMap Outcome.view?
    skipped := outcomes.zipIdx.filterMap fun (o, index) => o.skipped? index
    warnings := outcomes.filterMap Outcome.warning? }

/-- The screen of a document, with a resolver of its own for identifiers. -/
def buildWith (c : Config) (dispatcher : Resolver) (doc : Json) : Screen :=
  let parsed := Document.parse c.resolver doc
  let screen := ofSections c dispatcher parsed.sections
  { screen with warnings := parsed.warnings ++ screen.warnings }

/-- **The screen of a document.** -/
def build (c : Config) (doc : Json) : Screen := buildWith c c.resolver doc

end Screen

end ScreenLayout
