import Dataflow.Edge
import Dataflow.Value

/-!
# Steps of a session

A step is one operation on named objects.  It names the objects that it works on (`PortRef`,
`ConstantRef`, `EndpointRef`) and the variable that its result is bound to; nothing is looked up
before the step is carried out.

The last steps of the list break the rules on purpose: they put edges, transforms and index entries
into a graph unchecked, so that a check of the whole graph has something to find.
-/

namespace Dataflow

/-- A port, named by a variable or by way of a transform. -/
inductive PortRef
  /-- A port that belongs to no transform. -/
  | loose (var : String)
  /-- The port of a transform at a position. -/
  | positioned (transform : String) (direction : Direction) (index : Nat)
  /-- The port of a transform with a name. -/
  | named (transform name : String)
deriving DecidableEq, Repr

/-- A constant, named by a variable or by way of a transform. -/
inductive ConstantRef
  /-- A constant that belongs to no transform. -/
  | loose (var : String)
  /-- The constant of a transform with a name. -/
  | named (transform name : String)
deriving DecidableEq, Repr

/-- A side of a connection. -/
inductive EndpointRef
  | port (port : PortRef)
  | whole (transform : String)
deriving DecidableEq, Repr

/-- A value to be bound, in which transforms are named by variables. -/
inductive ValueSpec
  /-- A specification that means nothing. -/
  | unknown
  | literal (text : String)
  | measure (m : Measure)
  | rebind (owner constant text : String)
  | chain (owner constant : String) (skip : Nat)

/-- A transform to be made with all its parts. -/
structure PlanSpec where
  name : String
  readsMemory : Bool
  writesMemory : Bool
  inputs : List (String × PortType)
  outputs : List (String × PortType)
  constants : List (String × Option ValueSpec)

/-- A part of the check of a whole graph. -/
inductive ValidatePart
  | transforms
  | parents
  | edges
deriving DecidableEq, Repr

/-- An operation of a session.  `target` is the variable for the result. -/
inductive Step
  | createPort (target name : String) (type : PortType) (direction : Direction)
  | viewPort (port : PortRef)
  | comparePorts (a b : PortRef)
  | createConstant (target name : String) (value : Option ValueSpec)
  | viewConstant (constant : ConstantRef)
  | inspectConstant (constant : ConstantRef)
  | setConstant (constant : ConstantRef) (value : ValueSpec)
  /-- Binds one constant to the value of another. -/
  | copyValue (giver receiver : ConstantRef)
  | resolveConstant (constant : ConstantRef) (records : List Profile)
  | createTransform (target : String) (plan : PlanSpec)
  | markMemory (transform : String) (reads writes : Bool)
  | addConstant (transform constant : String)
  /-- Moves a port to the list of its direction. -/
  | addPort (transform port : String)
  /-- Moves a port to the list of the given direction. -/
  | addPortTo (direction : Direction) (transform port : String)
  | viewTransform (transform : String)
  | viewSolePort (transform : String) (direction : Direction)
  | ownsPort (transform : String) (port : PortRef)
  | ownsId (transform : String) (id : Ident)
  | connect (target : String) (a b : EndpointRef) (label : Option String)
  | joinPorts (target : String) (a b : PortRef)
  | relabel (target edge label : String)
  | compareEdges (a b : String)
  | createGraph (target : String) (name : Option String)
  | buildDesign (target name : String)
  /-- Registers a transform, which is only a handle afterwards. -/
  | addTransform (graph transform : String)
  | addEdge (graph edge : String)
  | viewGraph (graph : String)
  | findTransform (graph name : String) (target : Option String)
  | findTransformWithId (graph : String) (id : Ident) (target : Option String)
  | findEdgeWithId (graph : String) (id : Ident)
  | findOwner (graph : String) (port : PortRef) (target : Option String)
  | findOwnerOfId (graph : String) (id : Ident) (target : Option String)
  | findPortWithId (graph : String) (id : Ident)
  | viewIndex (graph : String) (id : Ident)
  | describeEdge (graph edge : String)
  /-- Checks the graph, or one part of it. -/
  | validate (graph : String) (part : Option ValidatePart)
  | drop (var : String)
  /-- Empties the log. -/
  | takeLog
  /-- Makes an edge between any two identities. -/
  | forgeEdge (target : String) (edge : Edge)
  /-- Puts an edge into a graph unchecked. -/
  | forceEdge (graph : String) (edge : Edge)
  /-- Puts a transform into the list of a graph, but not into its tables. -/
  | forceTransform (graph transform : String)
  /-- Enters the ports of a transform in the parent index of a graph, under any slot. -/
  | forceIndex (graph transform : String) (slot : Ident)

end Dataflow
