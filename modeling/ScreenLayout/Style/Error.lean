import ScreenLayout.Json.Compact

/-!
# Style/Error — why a style or a property is refused

An error names its cause; the wording is in `InvalidReason.message` and `StyleError.message` alone.
-/

namespace ScreenLayout

/-- **What is wrong with the value of a property.** -/
inductive InvalidReason where
  | notNumberOrString (got : Json)
  | notString (got : Json)
  | unreadable (got : Json)
  | badLength (word : String)
  | wrongCount
  | emptyBorder (text : String)
  | perCornerRadii (text : String)
  | badRadius (text : String)
  | noFontSize (text : String)
  | unexpectedWord (word : String)
  | badLineHeight (text : String)
  | noFontFamily (text : String)
  | noShadow
  | tooFewOffsets (text : String)
  | unreadableGradient (text : String)
deriving DecidableEq

/-- The wording of a reason. -/
def InvalidReason.message : InvalidReason → String
  | notNumberOrString got => "expected number or string, got: " ++ got.compactString
  | notString got => "expected string, got: " ++ got.compactString
  | unreadable got => got.compactString
  | badLength word => "bad length: " ++ word
  | wrongCount => "expected 1-4 values"
  | emptyBorder text => "no width, color or style in: " ++ text
  | perCornerRadii text => "per-corner radii not supported: " ++ text
  | badRadius text => "bad radius: " ++ text
  | noFontSize text => "no font size in: " ++ text
  | unexpectedWord word => "unexpected token: " ++ word
  | badLineHeight text => "bad line height: " ++ text
  | noFontFamily text => "no font family in: " ++ text
  | noShadow => "none"
  | tooFewOffsets text => "expected at least two offsets in: " ++ text
  | unreadableGradient text => "unparseable gradient: " ++ text

/-- **Why a style or a property is refused.** -/
inductive StyleError where
  | notAnObject (kind : String)
  | invalidValue (property : String) (reason : InvalidReason)
  | unsupported (property : String)
deriving DecidableEq

/-- The wording of an error. -/
def StyleError.message : StyleError → String
  | notAnObject kind => "style dictionary must be an object, got " ++ kind
  | invalidValue property reason => "invalid value for " ++ property ++ ": " ++ reason.message
  | unsupported property => "unsupported property: " ++ property

end ScreenLayout
