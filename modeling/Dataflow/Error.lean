import Dataflow.Direction
import Dataflow.Ident

/-!
# Reasons for a refusal

Everything that can go wrong while a graph is built, queried or checked, as a cause with the data
that belongs to it.  `Error.message` words a cause, `Error.kind` names its class.
-/

namespace Dataflow

/-- The collection in which a name has to be unique. -/
inductive Scope
  /-- The constants of a transform. -/
  | constants (transform : String)
  /-- The ports of one direction of a transform. -/
  | ports (direction : Direction) (transform : String)
  /-- The transforms registered in a graph. -/
  | transforms (graph : String)
  /-- The list of transforms that a graph holds, as a check of the whole graph sees it. -/
  | listed
deriving DecidableEq, Repr

/-- Something that was looked up in vain. -/
inductive Sought
  /-- A constant of a transform. -/
  | constant (transform name : String)
  /-- A port of a transform. -/
  | port (transform name : String)
  /-- A transform of a graph. -/
  | transform (name : String)
  /-- The transform that owns the port of this name. -/
  | ownerOfPort (name : String)
  /-- The transform that owns the port of this identity. -/
  | ownerOfIdent (id : Ident)
deriving DecidableEq, Repr

/-- The end of an edge. -/
inductive EdgeEnd
  | source
  | destination
deriving DecidableEq, Repr

/-- Why a constant has no text. -/
inductive UnboundReason
  /-- No value was ever assigned. -/
  | unassigned
  /-- The value is computed from records, and there are none. -/
  | noRecords
  /-- The computation comes back to where it was with the same records, and so never ends. -/
  | circular
deriving DecidableEq, Repr

/-- Why a name is not accepted. -/
inductive NameFault
  /-- It has no characters. -/
  | empty
  /-- It begins or ends with a blank. -/
  | padded
  /-- It belongs to a port of the other direction than the list it is offered to. -/
  | misdirected (wanted : Direction)
deriving DecidableEq, Repr

/-- A structural rule that a graph breaks. -/
inductive Violation
  /-- A port is kept in the list of the other direction. -/
  | misplacedPort (transform port : String) (list : Direction)
  /-- The parent index does not lead from the port to its transform. -/
  | unindexedPort (transform port : String)
  /-- The parent index has another number of entries than the transforms have ports. -/
  | indexSize (indexed owned : Nat)
  /-- The edge at this place does not run from an output to an input. -/
  | edgeDirection (position : Nat)
deriving DecidableEq, Repr

/-- Why an operation was refused. -/
inductive Error
  /-- The scope already has this name. -/
  | duplicateName (name : String) (scope : Scope)
  /-- There is no such thing. -/
  | notFound (what : Sought)
  /-- A port position beyond the list of `len` ports. -/
  | indexOutOfRange (direction : Direction) (index len : Nat)
  /-- Two ports of one direction, given by direction and name. -/
  | directionMismatch (a b : Direction × String)
  /-- The transform has not exactly one port of the direction. -/
  | ambiguousPort (transform : String) (direction : Direction) (count : Nat)
  /-- An end of an edge is no port of a transform in the graph. -/
  | danglingReference (side : EdgeEnd) (port : Ident) (graph : String)
  /-- The constant has no text. -/
  | unboundValue (constant : String) (reason : UnboundReason)
  /-- The name is not accepted. -/
  | invalidName (name : String) (reason : NameFault)
  /-- The graph breaks a structural rule. -/
  | invariant (what : Violation)
deriving DecidableEq, Repr

namespace Scope

/-- The scope as messages name it. -/
def text : Scope → String
  | constants t => "constants of transform '" ++ t ++ "'"
  | ports d t => d.text ++ "s of transform '" ++ t ++ "'"
  | transforms g => "transforms of graph '" ++ g ++ "'"
  | listed => "graph transforms"

end Scope

namespace Sought

/-- What sort of thing was looked up. -/
def sort : Sought → String
  | constant _ _ => "constant"
  | port _ _ => "vertex"
  | transform _ => "transform"
  | ownerOfPort _ => "owner of vertex"
  | ownerOfIdent _ => "owner of vertex"

/-- The name under which it was looked up. -/
def name : Sought → String
  | constant t n => t ++ "." ++ n
  | port t n => t ++ "." ++ n
  | transform n => n
  | ownerOfPort n => n
  | ownerOfIdent i => i.text

end Sought

namespace EdgeEnd

/-- The end as messages name it. -/
def text : EdgeEnd → String
  | source => "source"
  | destination => "destination"

end EdgeEnd

namespace UnboundReason

/-- The reason as messages word it. -/
def text : UnboundReason → String
  | unassigned => "no value assigned"
  | noRecords => "no profiling records supplied"
  | circular => "value depends on itself"

end UnboundReason

namespace NameFault

/-- The reason as messages word it. -/
def text : NameFault → String
  | empty => "name is empty"
  | padded => "name has leading or trailing whitespace"
  | misdirected .input => "an output vertex cannot be added as an input"
  | misdirected .output => "an input vertex cannot be added as an output"

end NameFault

namespace Violation

/-- The broken rule as messages word it. -/
def text : Violation → String
  | misplacedPort t p d => t ++ "." ++ p ++ " is stored among the " ++ d.text ++ "s"
  | unindexedPort t p => "parent index does not map " ++ t ++ "." ++ p ++ " to its transform"
  | indexSize indexed owned =>
    "parent index holds " ++ toString indexed ++ " vertices, transforms own " ++ toString owned
  | edgeDirection i => "edge " ++ toString i ++ " does not run from an output to an input"

end Violation

namespace Error

/-- The class of the cause. -/
def kind : Error → String
  | duplicateName _ _ => "DuplicateName"
  | notFound _ => "NotFound"
  | indexOutOfRange _ _ _ => "IndexOutOfRange"
  | directionMismatch _ _ => "DirectionMismatch"
  | ambiguousPort _ _ _ => "AmbiguousPort"
  | danglingReference _ _ _ => "DanglingReference"
  | unboundValue _ _ => "UnboundValue"
  | invalidName _ _ => "InvalidName"
  | invariant _ => "Invariant"

/-- The cause in words. -/
def message : Error → String
  | duplicateName n s => "Duplicate name: " ++ n ++ " already exists in " ++ s.text
  | notFound w => "Not found: " ++ w.sort ++ " '" ++ w.name ++ "'"
  | indexOutOfRange d i len =>
    "Index out of range: " ++ d.text ++ " port (index=" ++ toString i ++ ", len=" ++ toString len
      ++ ")"
  | directionMismatch a b =>
    "Direction mismatch: cannot connect " ++ a.1.text ++ " " ++ a.2 ++ " with " ++ b.1.text ++ " "
      ++ b.2
  | ambiguousPort t d n =>
    "Ambiguous port: transform '" ++ t ++ "' has " ++ toString n ++ " " ++ d.text
      ++ " ports (expected 1)"
  | danglingReference e i g =>
    "Dangling reference: " ++ e.text ++ " vertex " ++ i.text
      ++ " is not owned by a transform in graph '" ++ g ++ "'"
  | unboundValue c r => "Unbound value: constant '" ++ c ++ "' (" ++ r.text ++ ")"
  | invalidName n r => "Invalid name '" ++ n ++ "': " ++ r.text
  | invariant v => "Invariant violated: " ++ v.text

end Error

end Dataflow
