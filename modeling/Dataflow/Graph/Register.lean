import Dataflow.Graph.Basic

/-!
# Registration

Transforms and edges enter a graph one at a time.  A registration works on the graph: first it
checks, then it makes its entries, one table or list after another.  The graph afterwards and one
event for the log stand beside the answer, whether the registration succeeds or is refused
(`Registration`).
-/

namespace Dataflow

/-- How important an event is. -/
inductive Level
  | debug
  | warn
deriving DecidableEq, Repr

/-- The level as the log names it. -/
def Level.text : Level → String
  | debug => "DEBUG"
  | warn => "WARN"

/-- What the log holds about one registration. -/
inductive Event
  /-- A transform was refused because its name is taken. -/
  | nameTaken (graph transform : String)
  /-- An edge was refused because one of its ends has no owner. -/
  | noOwner (graph : String) (side : EdgeEnd) (port : Ident)
  /-- A transform was registered. -/
  | transformRegistered (graph : String) (slot : Ident) (signature : String)
  /-- An edge was registered. -/
  | edgeRegistered (graph : String) (edge : String)
deriving DecidableEq, Repr

namespace Event

/-- Refusals are warnings. -/
def level : Event → Level
  | nameTaken _ _ => .warn
  | noOwner _ _ _ => .warn
  | transformRegistered _ _ _ => .debug
  | edgeRegistered _ _ => .debug

/-- The name of the graph. -/
def graph : Event → String
  | nameTaken g _ => g
  | noOwner g _ _ => g
  | transformRegistered g _ _ => g
  | edgeRegistered g _ => g

/-- The event in words. -/
def message : Event → String
  | nameTaken _ _ => "duplicate transform name"
  | noOwner _ side _ => "edge " ++ side.text ++ " has no owner in graph"
  | transformRegistered _ _ signature => "registered transform " ++ signature
  | edgeRegistered _ edge => "registered edge " ++ edge

end Event

/-- A registration that has been carried out: the graph afterwards, an event for the log, and the
answer. -/
structure Registration where
  graph : Graph
  event : Event
  result : Except Error Unit

namespace Graph

/-- The slot of the transform that is registered next. -/
def nextSlot (g : Graph) : Ident := Ident.ofCounter g.transforms.length

/-- Enters the ports of a transform in the parent index. -/
def enterPorts (g : Graph) (slot : Ident) (t : Transform) : Graph :=
  { g with parents := g.parents.enter slot t }

/-- Enters the name of a transform. -/
def enterName (g : Graph) (name : String) (slot : Ident) : Graph :=
  { g with slots := g.slots.insert name slot }

/-- Puts a transform at the end of the list. -/
def pushTransform (g : Graph) (t : Transform) : Graph :=
  { g with transforms := g.transforms ++ [t] }

/-- The graph with a further transform and its ports in the tables. -/
def appendTransform (g : Graph) (t : Transform) : Graph :=
  let slot := g.nextSlot
  let g := g.enterPorts slot t
  let g := g.enterName t.name slot
  g.pushTransform t

/-- The graph with a further edge. -/
def appendEdge (g : Graph) (e : Edge) : Graph := { g with edges := g.edges ++ [e] }

/-- Registers a transform whose name is new in the graph. -/
def addTransform (g : Graph) (t : Transform) : Registration :=
  if g.slots.contains t.name then
    ⟨g, .nameTaken g.name t.name, .error (.duplicateName t.name (.transforms g.name))⟩
  else
    let slot := g.nextSlot
    ⟨g.appendTransform t, .transformRegistered g.name slot t.signature, .ok ()⟩

/-- The first end of the edge, the source before the destination, that has no owner. -/
def ownerlessEnd? (g : Graph) (e : Edge) : Option (EdgeEnd × Ident) :=
  if !g.parents.contains e.source then some (.source, e.source)
  else if !g.parents.contains e.destination then some (.destination, e.destination)
  else none

/-- Registers an edge whose ends belong to registered transforms.  The event describes the edge as
the graph shows it before the edge is in. -/
def addEdge (g : Graph) (e : Edge) : Registration :=
  match g.ownerlessEnd? e with
  | some (side, id) => ⟨g, .noOwner g.name side id, .error (.danglingReference side id g.name)⟩
  | none =>
    let event := .edgeRegistered g.name (g.describe e)
    ⟨g.appendEdge e, event, .ok ()⟩

/-! ## What a registration does -/

section
variable {g : Graph} {t : Transform} {e : Edge}

theorem transforms_appendTransform (g : Graph) (t : Transform) :
    (g.appendTransform t).transforms = g.transforms ++ [t] := rfl

theorem addTransform_of_taken (h : g.slots.contains t.name = true) : g.addTransform t =
    ⟨g, .nameTaken g.name t.name, .error (.duplicateName t.name (.transforms g.name))⟩ :=
  if_pos h

theorem addTransform_of_new (h : g.slots.contains t.name = false) : g.addTransform t =
    ⟨g.appendTransform t, .transformRegistered g.name g.nextSlot t.signature, .ok ()⟩ :=
  if_neg (Bool.eq_false_iff.mp h)

theorem addEdge_of_ownerless {side : EdgeEnd} {id : Ident} (h : g.ownerlessEnd? e = some (side, id)) :
    g.addEdge e = ⟨g, .noOwner g.name side id, .error (.danglingReference side id g.name)⟩ := by
  rw [addEdge, h]

theorem addEdge_of_owned (h : g.ownerlessEnd? e = none) :
    g.addEdge e = ⟨g.appendEdge e, .edgeRegistered g.name (g.describe e), .ok ()⟩ := by
  rw [addEdge, h]

end

end Graph

end Dataflow
