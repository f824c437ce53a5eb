import ScreenLayout.Value.Resolver

/-!
# Config — the settings of compilation and rendering

One record holds the bound on wrappers and the four numbers that styles depend on.
-/

namespace ScreenLayout

/-- **Settings**: the bound on wrappers, the font size that scales `em` letter spacing, the radius
written for a pill, the radius from which a corner counts as fully round, and the opacity of
shadows. -/
structure Config where
  maxDepth : Nat := 32
  baseFontSize : Double := FiniteDouble.ofUInt64 16
  pillRadius : Double := FiniteDouble.ofUInt64 9999
  roundedThreshold : Double := FiniteDouble.ofUInt64 999
  shadowOpacity : Double := Double.div (FiniteDouble.ofUInt64 3) (FiniteDouble.ofUInt64 10)
deriving DecidableEq

/-- The resolver with the bound of the settings. -/
def Config.resolver (c : Config) : Resolver := { bound := c.maxDepth }

end ScreenLayout
