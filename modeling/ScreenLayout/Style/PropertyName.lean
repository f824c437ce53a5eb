import ScreenLayout.Text.Case

/-!
# Style/PropertyName — dashed names of properties

A style dictionary may spell a property with dashes, `background-color`, or without,
`backgroundColor`.  The canonical name has no dash: the character after a dash is in upper case, except
at the front.

* `canonicalName` — the name without dashes.
-/

namespace ScreenLayout

/-- The name without dashes of what follows a name already `begun` or not; `raised` says that a dash
stood just before. -/
def canonicalFrom : (begun raised : Bool) → List Char → List Char
  | _, _, [] => []
  | begun, raised, c :: cs =>
    if c = '-' then canonicalFrom begun begun cs
    else (if raised then Text.Case.upperChar c else [c]) ++ canonicalFrom true false cs

/-- **The canonical name of a property.** -/
def canonicalName (name : String) : String := String.ofList (canonicalFrom false false name.toList)

example : canonicalName "background-color" = "backgroundColor" := by decide +kernel

/-- Dashes at the ends and beside each other vanish, and one character may be raised to several. -/
example : canonicalName "--a--ß-" = "aSS" := by decide +kernel

end ScreenLayout
