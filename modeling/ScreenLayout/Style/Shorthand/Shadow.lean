import ScreenLayout.Config
import ScreenLayout.Style.Shorthand.Border

/-!
# Style/Shorthand/Shadow — the shadow of a box

The first two lengths of a shadow are its offsets and the third its blur; further lengths and other
words are passed over.  The first colour counts.  Elevation is half the blur in whole points, at
least one.

* `Shorthand.boxShadow` — the properties a shadow value writes.
-/

namespace ScreenLayout.Shorthand

/-- The elevation for a blur: half of it, rounded with a half away from zero, and at least one. -/
def elevation (blur : FiniteDouble) : FiniteDouble :=
  let half := blur.half.roundWhole
  if half < FiniteDouble.one then FiniteDouble.one else half

/-- The properties of a shadow. -/
def shadowWrites (c : Config) (x y blur : FiniteDouble) (color : Option (List Char)) :
    List (String × StyleValue) :=
  [("shadowOffset", .offset x y), ("shadowRadius", .number blur),
      ("shadowOpacity", .number c.shadowOpacity)]
    ++ (color.toList.map fun color => ("shadowColor", .ofText color))
    ++ [("elevation", .number (elevation blur))]

/-- The properties a shadow text writes. -/
def shadowOfText (c : Config) (cs : List Char) : Except InvalidReason StylePatch :=
  if Text.sameAscii cs "none".toList then .error .noShadow
  else
    let tokens := Token.scan cs
    match tokens.filterMap Token.length? with
    | x :: y :: rest =>
      let blur := rest.head?.getD FiniteDouble.zero
      .ok { writes := shadowWrites c x y blur (tokens.findSome? Token.color?) }
    | _ => .error (.tooFewOffsets (String.ofList cs))

/-- **The shadow shorthand.** -/
def boxShadow (c : Config) (v : Json) : Except StyleError StylePatch :=
  Except.mapError (.invalidValue "boxShadow") <| match v with
    | .string s => shadowOfText c (Text.trim s.toList)
    | v => .error (.notString v)

end ScreenLayout.Shorthand
