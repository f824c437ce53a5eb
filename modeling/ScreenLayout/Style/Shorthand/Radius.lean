import ScreenLayout.Config
import ScreenLayout.Style.Dimension
import ScreenLayout.Style.Error

/-!
# Style/Shorthand/Radius — one radius for all corners

A radius is a length.  A percentage, and a length from the threshold up, become the radius of a pill;
several radii are refused.

* `Shorthand.borderRadius` — the radius a value stands for.
-/

namespace ScreenLayout.Shorthand

/-- The radius written for a length. -/
def roundedRadius (c : Config) (x : FiniteDouble) : Double :=
  if Double.le c.roundedThreshold x then c.pillRadius else x

/-- The radius a text stands for. -/
def radiusOfText (c : Config) (cs : List Char) : Except InvalidReason Double :=
  if 1 < (Text.words cs).length ∨ cs.contains '/' then .error (.perCornerRadii (String.ofList cs))
  else match Dimension.parse? cs with
    | none => .error (.badRadius (String.ofList cs))
    | some d => .ok (if d.isPercent then c.pillRadius else roundedRadius c d.value)

/-- **The radius of all corners.** -/
def borderRadius (c : Config) (v : Json) : Except StyleError Double :=
  Except.mapError (.invalidValue "borderRadius") <| match v with
    | .number n => .ok (roundedRadius c n.value)
    | .string s => radiusOfText c (Text.trim s.toList)
    | v => .error (.notNumberOrString v)

end ScreenLayout.Shorthand
