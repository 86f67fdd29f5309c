import Dataflow.Error
import Dataflow.Text.Blank

/-!
# Names

Ports, constants and transforms have a name that is not empty and neither begins nor ends with a
blank.  Blanks inside are allowed.
-/

namespace Dataflow

/-- Accepts a name that is not empty and that trimming leaves as it is. -/
def checkName (name : String) : Except Error Unit :=
  if name.toList = [] then .error (.invalidName name .empty)
  else if Text.trim name.toList ≠ name.toList then .error (.invalidName name .padded)
  else .ok ()

end Dataflow
