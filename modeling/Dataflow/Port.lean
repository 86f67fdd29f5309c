import Dataflow.Name

/-!
# Ports

A port is a typed, directed connection point.  It is told apart from every other port by its
identity, never by its name, and the type is a label that nothing interprets.
-/

namespace Dataflow

/-- The type of the data at a port.  Two types are the same when their names are. -/
structure PortType where
  name : String
deriving DecidableEq, Repr

namespace PortType

/-- Types are ordered as their names are, code point by code point. -/
def order (a b : PortType) : Ordering :=
  if a.name = b.name then .eq else if a.name < b.name then .lt else .gt

/-- The type written with its own kind, for inspection. -/
def inspect (t : PortType) : String := "TypeRef(" ++ t.name ++ ")"

end PortType

/-- A typed connection point of a transform. -/
structure Port where
  id : Ident
  name : String
  type : PortType
  direction : Direction
deriving DecidableEq, Repr

namespace Port

/-- Makes a port with the next free identity; the counter afterwards stands beside the answer.  A
name that is refused takes no identity. -/
def create (name : String) (type : PortType) (direction : Direction) (next : Nat) :
    Nat × Except Error Port :=
  match checkName name with
  | .error e => (next, .error e)
  | .ok () =>
    let (id, next) := Ident.allocate next
    (next, .ok ⟨id, name, type, direction⟩)

/-- The port as signatures show it, `name: type`. -/
def text (p : Port) : String := p.name ++ ": " ++ p.type.name

/-- Data enters here. -/
def isInput (p : Port) : Bool := p.direction = .input

/-- Data leaves here. -/
def isOutput (p : Port) : Bool := p.direction = .output

end Port

end Dataflow
