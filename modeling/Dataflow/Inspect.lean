import Dataflow.Store
import Dataflow.Text.Quoted

/-!
# Constants for inspection

The name and the value of a constant in full, with both texts quoted, so that nothing in them can
be mistaken for the words around them.  Of a computed value only its sort is shown.
-/

namespace Dataflow

/-- The value for inspection. -/
def Value.inspect : Value → String
  | literal text => "Literal(" ++ Text.quote text ++ ")"
  | computed _ => "Profiled(<fn>)"

/-- A named constant with its value, or with none, for inspection. -/
def inspectConstant (name : String) (value : Option Value) : String :=
  let shown := match value with
    | none => "None"
    | some v => "Some(" ++ v.inspect ++ ")"
  "Constant \x7b name: " ++ Text.quote name ++ ", value: " ++ shown ++ " \x7d"

/-- A constant with the value that the store gives it, for inspection. -/
def Store.inspect (s : Store) (c : Constant) : String :=
  inspectConstant c.name (s.valueAt? c.cell)

end Dataflow
