import Dataflow.Graph.Basic

/-!
# Checking a whole graph

`Graph.validate` looks for broken structure from scratch and reports the first violation it meets:
first names and port lists, transform by transform; then the parent index, port by port and by its
size; then the edges.  A graph that was built by registration alone passes.
-/

namespace Dataflow

/-- Refuses with the given error when the condition fails. -/
def require (condition : Bool) (e : Error) : Except Error Unit :=
  if condition then .ok () else .error e

/-! ## Names and port lists -/

/-- No name comes a second time; `seen` holds the names that came before. -/
def checkDistinct (scope : Scope) (seen : List String) : List String → Except Error Unit
  | [] => .ok ()
  | name :: rest => do
    require (!seen.contains name) (.duplicateName name scope)
    checkDistinct scope (name :: seen) rest

namespace Transform

/-- Every port of the list has this direction and a new name. -/
def checkPorts (t : Transform) (d : Direction) (seen : List String) :
    List Port → Except Error Unit
  | [] => .ok ()
  | p :: rest => do
    require (p.direction = d) (.invariant (.misplacedPort t.name p.name d))
    require (!seen.contains p.name) (.duplicateName p.name (.ports d t.name))
    t.checkPorts d (p.name :: seen) rest

/-- The names of constants and ports are unique, and every port is in the list of its direction. -/
def check (t : Transform) : Except Error Unit := do
  checkDistinct (.constants t.name) [] (t.constants.map (·.name))
  t.checkPorts .input [] t.inputs
  t.checkPorts .output [] t.outputs

end Transform

/-- Transform names are unique, and each transform is in order. -/
def checkTransforms (seen : List String) : List Transform → Except Error Unit
  | [] => .ok ()
  | t :: rest => do
    require (!seen.contains t.name) (.duplicateName t.name .listed)
    t.check
    checkTransforms (t.name :: seen) rest

/-! ## The parent index -/

namespace ParentIndex

/-- The index leads from each of the ports to this slot. -/
def checkPorts (index : ParentIndex) (owner : Ident) (t : Transform) :
    List Port → Except Error Unit
  | [] => .ok ()
  | p :: rest => do
    require (index.get? p.id = some owner) (.invariant (.unindexedPort t.name p.name))
    index.checkPorts owner t rest

/-- The index leads from the ports of each transform to its slot, the first of them being
`start`. -/
def checkOwners (index : ParentIndex) (start : Nat) : List Transform → Except Error Unit
  | [] => .ok ()
  | t :: rest => do
    index.checkPorts (Ident.ofCounter start) t t.ports
    index.checkOwners (start + 1) rest

/-- The number of ports of all transforms. -/
def portCount : List Transform → Nat
  | [] => 0
  | t :: rest => t.ports.length + portCount rest

/-- The index holds the ports of the transforms, each under its owner, and nothing else. -/
def check (index : ParentIndex) (transforms : List Transform) : Except Error Unit := do
  index.checkOwners 0 transforms
  require (index.size = portCount transforms)
    (.invariant (.indexSize index.size (portCount transforms)))

end ParentIndex

/-! ## The edges -/

namespace Graph

/-- The port at an end of an edge, which has to be registered. -/
def portAtEnd (g : Graph) (side : EdgeEnd) (id : Ident) : Except Error Port :=
  match g.port? id with
  | some p => .ok p
  | none => .error (.danglingReference side id g.name)

/-- The edge runs from a registered output to a registered input. -/
def checkEdge (g : Graph) (position : Nat) (e : Edge) : Except Error Unit := do
  let source ← g.portAtEnd .source e.source
  let destination ← g.portAtEnd .destination e.destination
  require (source.isOutput && destination.isInput) (.invariant (.edgeDirection position))

/-- Every edge of the list, the first of which has the given position, is in order. -/
def checkEdgeList (g : Graph) (position : Nat) : List Edge → Except Error Unit
  | [] => .ok ()
  | e :: rest => do
    g.checkEdge position e
    g.checkEdgeList (position + 1) rest

/-- Names are unique and ports are kept by direction. -/
def validateTransforms (g : Graph) : Except Error Unit := checkTransforms [] g.transforms

/-- The parent index holds exactly the registered ports. -/
def validateParents (g : Graph) : Except Error Unit := g.parents.check g.transforms

/-- The edges run from registered outputs to registered inputs. -/
def validateEdges (g : Graph) : Except Error Unit := g.checkEdgeList 0 g.edges

/-- The graph breaks no structural rule; otherwise the first violation. -/
def validate (g : Graph) : Except Error Unit := do
  g.validateTransforms
  g.validateParents
  g.validateEdges

end Graph

end Dataflow
