import ScreenLayout.Document.Section

/-!
# Document/Visibility — whether a section is shown on a mobile screen

A visibility block that is a flag decides by itself.  Else a set hide flag hides the section, then a
target on the desktop or the web does, and last the show flag decides, set by default.

* `Visibility.shows` — the decision for a block.
* `Section.isVisible` — the decision for a section; without a block it is shown.
-/

namespace ScreenLayout

namespace Visibility

def hideKeys : List String :=
  ["hideOnMobile", "hiddenOnMobile", "hide_on_mobile", "isMobileHidden", "mobileHidden"]

def showKeys : List String :=
  ["showOnMobile", "show_in_mobile", "visibleOnMobile", "mobileVisible", "mobile",
   "isMobileVisible"]

def targetKeys : List String := ["target", "device", "platform", "for", "audience"]

variable (r : Resolver)

/-- The flag a block is by itself, if it is no object. -/
def flag? (block : Json) : Option Bool :=
  ((r.unwrap block).filter (!·.isObject)).bind Json.toBool?

/-- Whether the first hide flag present is set. -/
def isHidden (block : Json) : Bool :=
  (r.bool? (r.firstPresent? block hideKeys)).getD false

/-- Whether the first show flag present is set; it is when there is none to read. -/
def isShown (block : Json) : Bool :=
  (r.bool? (r.firstPresent? block showKeys)).getD true

/-- The first target present, in lower case. -/
def target (block : Json) : List Char :=
  Text.lower ((r.text? (r.firstPresent? block targetKeys)).getD "").toList

/-- Whether a target is some other screen than a mobile one. -/
def isElsewhere (target : List Char) : Bool :=
  Text.contains "desktop".toList target || Text.contains "web".toList target

/-- **Whether a block lets its section be shown.** -/
def shows (block : Json) : Bool :=
  match flag? r block with
  | some flag => flag
  | none => !isHidden r block && !isElsewhere (target r block) && isShown r block

end Visibility

/-- **Whether a section is shown.** -/
def Section.isVisible (r : Resolver) (s : Section) : Bool :=
  match s.visibility with
  | none => true
  | some block => Visibility.shows r block

end ScreenLayout
