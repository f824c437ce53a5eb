import ScreenLayout.Style.Basic
import ScreenLayout.Style.Error

/-!
# Style/Shorthand/Box — one to four lengths around a box

Padding and margin take one to four lengths: all sides; vertical and horizontal; top, horizontal and
bottom; or top, right, bottom and left.

* `Shorthand.box` — the properties a value of such a shorthand writes.
-/

namespace ScreenLayout.Shorthand

/-- The properties for one to four values around a box. -/
def boxWrites (name : String) : List StyleValue → Option (List (String × StyleValue))
  | [all] => some [(name, all)]
  | [vertical, horizontal] =>
    some [(name ++ "Vertical", vertical), (name ++ "Horizontal", horizontal)]
  | [top, horizontal, bottom] =>
    some [(name ++ "Top", top), (name ++ "Horizontal", horizontal), (name ++ "Bottom", bottom)]
  | [top, right, bottom, left] =>
    some [(name ++ "Top", top), (name ++ "Right", right), (name ++ "Bottom", bottom),
      (name ++ "Left", left)]
  | _ => none

/-- The properties a text around a box writes; the first word that is no length is refused. -/
def boxOfText (name : String) (cs : List Char) : Except InvalidReason StylePatch :=
  let words := Text.words cs
  match words.find? fun w => (StyleValue.lengthPart? w).isNone with
  | some word => .error (.badLength (String.ofList word))
  | none => match boxWrites name (words.filterMap StyleValue.lengthPart?) with
    | some writes => .ok { writes }
    | none => .error .wrongCount

/-- **The padding or margin shorthand.** -/
def box (name : String) (v : Json) : Except StyleError StylePatch :=
  Except.mapError (.invalidValue name) <| match v with
    | .number n => .ok (.one name (.number n.value))
    | .string s => boxOfText name s.toList
    | v => .error (.notNumberOrString v)

end ScreenLayout.Shorthand
