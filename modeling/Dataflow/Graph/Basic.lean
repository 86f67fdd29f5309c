import Dataflow.Edge
import Dataflow.Table

/-!
# Graphs

A graph holds transforms and edges, each in the order of registration, so that the place in the
list is the identity.  Beside the lists it keeps two tables that make lookups direct: from a name
to the transform's slot, and from a port to the slot of its owner.  Nothing is ever taken out.

The lookups here go through the tables.  That they find what a scan of the transforms would find
depends on the tables being in step with the list, which registration takes care of.
-/

namespace Dataflow

/-- From a port to the slot of the transform that owns it. -/
abbrev ParentIndex := Table Ident Ident

namespace ParentIndex

/-- Enters every port of the transform under this owner. -/
def enter (index : ParentIndex) (owner : Ident) (t : Transform) : ParentIndex :=
  t.ports.foldl (fun index p => index.insert p.id owner) index

end ParentIndex

/-- Transforms and the edges between their ports. -/
structure Graph where
  name : String
  /-- The transforms in the order of registration. -/
  transforms : List Transform
  /-- The edges in the order of registration. -/
  edges : List Edge
  /-- From the name of a transform to its slot. -/
  slots : Table String Ident
  /-- From a port to the slot of its owner. -/
  parents : ParentIndex

namespace Graph

/-- The name of a graph that was given none. -/
def defaultName : String := "FletcherDAG"

/-- A graph without transforms and edges. -/
def empty (name : String) : Graph := ⟨name, [], [], .empty, .empty⟩

/-! ## Looking up -/

/-- The transform registered in this slot. -/
def transformWithId? (g : Graph) (id : Ident) : Option Transform := g.transforms[id.slot]?

/-- The edge registered in this slot. -/
def edgeWithId? (g : Graph) (id : Ident) : Option Edge := g.edges[id.slot]?

/-- The transform of this name. -/
def transform? (g : Graph) (name : String) : Option Transform :=
  (g.slots.get? name).bind g.transformWithId?

/-- The transform that owns the port of this identity. -/
def owner? (g : Graph) (port : Ident) : Option Transform :=
  (g.parents.get? port).bind g.transformWithId?

/-- The registered port of this identity. -/
def port? (g : Graph) (id : Ident) : Option Port :=
  (g.owner? id).bind fun t => t.portWithId? id

/-- The owner of a port, or a refusal that names the port. -/
def ownerOfPort (g : Graph) (p : Port) : Except Error Transform :=
  match g.owner? p.id with
  | some t => .ok t
  | none => .error (.notFound (.ownerOfPort p.name))

/-- The owner of the port of this identity, or a refusal that names the identity. -/
def ownerOfId (g : Graph) (id : Ident) : Except Error Transform :=
  match g.owner? id with
  | some t => .ok t
  | none => .error (.notFound (.ownerOfIdent id))

/-! ## Text -/

/-- An end of an edge, as its owner and its name, or as its bare identity if it has no owner. -/
def describePort (g : Graph) (id : Ident) : String :=
  match g.owner? id, g.port? id with
  | some t, some p => t.name ++ "." ++ p.name
  | _, _ => "<vertex " ++ id.text ++ ">"

/-- An edge as `producer.port -> consumer.port`, and its label in brackets. -/
def describe (g : Graph) (e : Edge) : String :=
  let line := g.describePort e.source ++ " -> " ++ g.describePort e.destination
  match e.label with
  | none => line
  | some label => line ++ " [" ++ label ++ "]"

end Graph

end Dataflow
