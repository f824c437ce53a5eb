/-!
# Diagnostic — entries of the log

A diagnostic has a level, a message and named fields.  The events that give rise to diagnostics are
types of their own; each says how it is written.
-/

namespace ScreenLayout

/-- **The weight of a diagnostic.** -/
inductive Level where
  | warn
  | debug
  | trace
deriving DecidableEq

/-- The value of a diagnostic's field: a text or a count. -/
inductive FieldValue where
  | text (value : String)
  | count (value : Nat)
deriving DecidableEq

/-- **An entry of the log.** -/
structure Diagnostic where
  level : Level
  message : String
  fields : List (String × FieldValue)
deriving DecidableEq

/-- The word for a level. -/
def Level.name : Level → String
  | warn => "WARN"
  | debug => "DEBUG"
  | trace => "TRACE"

end ScreenLayout
