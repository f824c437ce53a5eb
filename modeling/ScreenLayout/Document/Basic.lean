import ScreenLayout.Document.Section

/-!
# Document/Basic — layout documents

A document is an array of sections, or an object that leads to one through `sections`, `layout` or
`components`, and through wrappers, in at most as many steps as the resolver's bound.  Entries that
are no sections are left out with a warning.

* `Document.entries?` — the array of entries a document leads to.
* `Document.parse` — its sections, and the warnings.
-/

namespace ScreenLayout

/-- **What is worth a warning** when a document is turned into a screen. -/
inductive Warning where
  | noSectionList
  | malformedSection (index : Nat) (error : SectionError)
  | unregisteredComponent (id : String)
deriving DecidableEq

/-- A warning as an entry of the log. -/
def Warning.diagnostic : Warning → Diagnostic
  | noSectionList => ⟨.warn, "layout document has no section list", []⟩
  | malformedSection index error =>
    ⟨.warn, "skipped malformed section", [("index", .count index), ("error", .text error.message)]⟩
  | unregisteredComponent id =>
    ⟨.warn, "no renderer registered for component; section skipped", [("component", .text id)]⟩

namespace Document

/-- The keys that lead to the sections, in the order they are looked up. -/
def sectionKeys : List String := ["sections", "layout", "components"]

variable (r : Resolver)

/-- The value one step nearer to the sections: under a key for them, or inside all wrappers. -/
def step? (doc : Json) : Option Json :=
  match doc.firstField? sectionKeys with
  | some inner => some inner
  | none => match doc.wrapped? with
    | some _ => r.unwrap doc
    | none => none

/-- The entries reached in at most `steps` steps. -/
def entriesWithin? : (steps : Nat) → Json → Option (List Json)
  | _, .array items => some items
  | 0, _ => none
  | steps + 1, doc => (step? r doc).bind (entriesWithin? steps)

/-- **The entries a document leads to.** -/
def entries? (doc : Json) : Option (List Json) := entriesWithin? r r.bound doc

/-- **The sections of a document with the warnings about it.** -/
structure Parsed where
  sections : List Section
  warnings : List Warning
deriving DecidableEq

/-- The section an entry describes, if it is one. -/
def section? (entry : Json) : Option Section := (Section.ofJson r entry).toOption

/-- The warning about an entry, if it is no section. -/
def entryWarning? (entry : Json × Nat) : Option Warning :=
  match Section.ofJson r entry.1 with
  | .ok _ => none
  | .error error => some (.malformedSection entry.2 error)

/-- **A document parsed.** -/
def parse (doc : Json) : Parsed :=
  match entries? r doc with
  | none => ⟨[], [.noSectionList]⟩
  | some entries => ⟨entries.filterMap (section? r), entries.zipIdx.filterMap (entryWarning? r)⟩

end Document

end ScreenLayout
