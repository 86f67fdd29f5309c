import Dataflow.Graph.Register
import Dataflow.Store

/-!
# Answers of a session

A step is carried out, refused with a cause, or senseless because an object that it names is not
there or is of another sort.  What is shown of an object is a view: data read off the object and
the store, so that views can be compared without the objects.
-/

namespace Dataflow

/-- What is shown of a constant. -/
structure ConstantView where
  name : String
  /-- The value, or why there is none. -/
  value : Except Error Value

/-- What is shown of a transform after its parts have changed. -/
structure TransformOutline where
  signature : String
  constants : List String
deriving DecidableEq, Repr

/-- What is shown of a transform in full. -/
structure TransformView where
  transform : Transform
  constants : List ConstantView

/-- What is shown of a graph after a registration. -/
structure GraphSize where
  transforms : Nat
  edges : Nat
  /-- The number of ports in the parent index. -/
  indexed : Nat
deriving DecidableEq, Repr

/-- What is shown of a graph in full. -/
structure GraphView where
  name : String
  /-- The signatures of the transforms. -/
  transforms : List String
  edges : List Edge
  /-- The edges in words. -/
  shown : List String
  indexed : Nat
  indexEmpty : Bool
deriving DecidableEq, Repr

/-- What the parent index says about a port. -/
structure IndexView where
  owner : Option Ident
  contains : Bool
  size : Nat
  isEmpty : Bool
deriving DecidableEq, Repr

namespace ConstantView

/-- The constant is bound. -/
def isBound (v : ConstantView) : Bool := v.value.isOk

/-- The constant is bound to something that is computed. -/
def isComputed (v : ConstantView) : Bool :=
  match v.value with
  | .ok value => value.isComputed
  | .error _ => false

end ConstantView

namespace Store

/-- The view of a constant. -/
def view (s : Store) (c : Constant) : ConstantView := ⟨c.name, s.value c⟩

/-- The view of a transform. -/
def viewTransform (s : Store) (t : Transform) : TransformView := ⟨t, t.constants.map s.view⟩

end Store

namespace Transform

/-- The outline of a transform. -/
def outline (t : Transform) : TransformOutline := ⟨t.signature, t.constants.map (·.name)⟩

end Transform

namespace Graph

/-- The size of a graph. -/
def size (g : Graph) : GraphSize := ⟨g.transforms.length, g.edges.length, g.parents.size⟩

/-- The view of a graph. -/
def view (g : Graph) : GraphView :=
  ⟨g.name, g.transforms.map (·.signature), g.edges, g.edges.map g.describe, g.parents.size,
    g.parents.isEmpty⟩

/-- What the parent index of a graph says about a port. -/
def viewIndex (g : Graph) (port : Ident) : IndexView :=
  ⟨g.parents.get? port, g.parents.contains port, g.parents.size, g.parents.isEmpty⟩

end Graph

/-- The result of a step that was carried out. -/
inductive Reply
  | nothing
  | text (s : String)
  | truth (b : Bool)
  | memory (reads writes : Bool)
  /-- Whether two ports are equal, and whether their types are. -/
  | comparison (same sameType : Bool)
  | port (p : Port)
  | constant (v : ConstantView)
  /-- A constant and its value for inspection. -/
  | inspection (constant : String) (value : Option String)
  | outline (o : TransformOutline)
  | transform (v : TransformView)
  | edge (e : Edge)
  /-- An edge and its description. -/
  | registered (e : Edge) (shown : String)
  | size (s : GraphSize)
  | graph (v : GraphView)
  | index (v : IndexView)
  | events (log : List Event)

/-- How a step ended. -/
inductive Outcome
  | done (r : Reply)
  | refused (e : Error)
  /-- The step makes no sense for the objects that there are. -/
  | senseless

/-- What is shown of the object that a step may have changed. -/
inductive StateView
  | constant (v : ConstantView)
  | transform (o : TransformOutline)
  | graph (s : GraphSize)

/-- The answer to a step: how it ended, and the object that it may have changed. -/
structure Answer where
  outcome : Outcome
  state : Option StateView

end Dataflow
