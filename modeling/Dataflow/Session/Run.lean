import Dataflow.Design
import Dataflow.Inspect
import Dataflow.Session.Basic

/-!
# Carrying out steps

A step is an attempt at the session (`Session.carryOut`): it looks things up, then it works on them
one after another, and what it has written when it comes to an early end stays written.  What is
written where is in the order of the operations themselves.  A graph is handed back with every
answer, also with a refusal; an object that is offered to a transform or to a graph leaves its variable
before it is looked at; whatever a plan or a design uses up stays used up.

`Session.perform` tells how a step ended, and `Session.step` adds to its answer what is shown of the
object that the step may have changed.  `Session.run` carries out a list of steps; a step that fails
does not end it.
-/

namespace Dataflow

namespace Session

/-- Work on a session. -/
abbrev Work (α : Type) : Type := Attempt Session Obstacle α

namespace Work
open Attempt

/-- Works in the workshop. -/
def inWorkshop {α : Type} (work : Workshop → Workshop × Except Error α) : Work α := fun s =>
  let (w, answer) := work s.workshop
  (s.withWorkshop w, orRefuse answer)

/-- Works on the graph of a variable, and answers with the graph afterwards. -/
def inGraph (var : String) (g : Graph)
    (work : Workshop → Graph → (Workshop × Graph) × Except Error Unit) : Work Graph := fun s =>
  let ((w, g), answer) := work s.workshop g
  ((s.withWorkshop w).bind var (.graph g), (orRefuse answer).map fun _ => g)

/-- An answer that is known already. -/
def answer {α : Type} (a : Except Error α) : Work α := read fun _ => orRefuse a

/-! ## Ports and constants -/

/-- Makes a port. -/
def createPort (target name : String) (type : PortType) (d : Direction) : Work Reply := do
  let p ← inWorkshop (·.createPort name type d)
  change (·.bind target (.port p))
  return .port p

/-- Shows a constant. -/
def showConstant (c : Constant) : Work Reply := read fun s => return .constant (s.store.view c)

/-- Makes a constant. -/
def createConstant (target name : String) (v : Option ValueSpec) : Work Reply := do
  let v ← read (·.valueIfSome v)
  let c ← inWorkshop (·.createConstant name v)
  change (·.bind target (.constant c))
  showConstant c

/-- Binds a constant to a value.  The value is known before the constant is looked up. -/
def setConstant (r : ConstantRef) (v : ValueSpec) : Work Reply := do
  let v ← read (·.value v)
  let c ← read (·.constant r)
  change fun s => s.withStore (s.store.set c v)
  return .nothing

/-- Binds a constant to the value of another.  The value is known before the constant is looked
up. -/
def copyValue (giver receiver : ConstantRef) : Work Reply := do
  let c ← read (·.constant giver)
  let v ← read fun s => orRefuse (s.store.value c)
  let c ← read (·.constant receiver)
  change fun s => s.withStore (s.store.set c v)
  showConstant c

/-- Resolves a constant. -/
def resolveConstant (r : ConstantRef) (records : List Profile) : Work Reply := do
  let c ← read (·.constant r)
  let text ← inWorkshop (·.resolve c records)
  return .text text

/-! ## Transforms -/

/-- Makes a transform with all its parts.  The value of a constant is looked up when its turn
comes, so a refusal of an earlier part wins over a value that makes no sense. -/
def createTransform (target : String) (spec : PlanSpec) : Work Reply := do
  let before ← read Except.ok
  let t ← inWorkshop (·.make (before.plan spec))
  if before.understands spec then
    change (·.bind target (.draft t))
    return .outline t.outline
  else
    -- what has been made in front of the value that makes no sense is lost
    change fun s => s.withWorkshop { before.workshop with nextPort := s.workshop.nextPort }
    fail .senseless

/-- Marks an open transform as reading or writing memory. -/
def markMemory (var : String) (reads writes : Bool) : Work Reply := do
  let t ← read (·.lookUp .draft var)
  change (·.bind var (.draft (t.withMemory reads writes)))
  return .memory reads writes

/-- Offers an object to an open transform.  The object leaves its variable, and the transform takes
it in or refuses it. -/
def offer {α : Type} (transform item : String) (k : Object.Kind α)
    (add : Transform → α → Transform × Except Error Unit) : Work Reply := do
  let t ← read (·.lookUp .draft transform)
  let a ← read (·.lookUp k item)
  change (·.unbind item)
  change (·.bind transform (.draft (add t a).1))
  answer (add t a).2
  return .nothing

/-! ## Edges -/

/-- Binds a variable to an edge that has been made. -/
def bindEdge (target : String) (e : Edge) : Work Reply := do
  change (·.bind target (.edge e))
  return .edge e

/-- Connects two sides and labels the edge. -/
def connect (target : String) (a b : EndpointRef) (label : Option String) : Work Reply := do
  let a ← read (·.endpoint a)
  let b ← read (·.endpoint b)
  let e ← answer (Dataflow.connect a b)
  bindEdge target (match label with
    | none => e
    | some l => e.named l)

/-- Joins two ports. -/
def joinPorts (target : String) (a b : PortRef) : Work Reply := do
  let a ← read (·.port a)
  let b ← read (·.port b)
  let e ← answer (Edge.between a b)
  bindEdge target e

/-- Copies an edge under another label. -/
def relabel (target edge label : String) : Work Reply := do
  let e ← read (·.lookUp .edge edge)
  bindEdge target (e.named label)

/-! ## Graphs -/

/-- Binds a variable to a graph that has been made. -/
def bindGraph (target : String) (g : Graph) : Work Reply := do
  change (·.bind target (.graph g))
  return .graph g.view

/-- Builds a design, if there is one of this name. -/
def buildDesign (target name : String) : Work Reply :=
  match Design.find? name with
  | none => return .nothing
  | some d => do
    let g ← inWorkshop d.build
    bindGraph target g

/-- Registers an open transform.  The transform leaves its variable, which becomes a handle when the
graph accepts. -/
def addTransform (graph transform : String) : Work Reply := do
  let g ← read (·.lookUp .graph graph)
  let t ← read (·.lookUp .draft transform)
  change (·.unbind transform)
  let _ ← inGraph graph g (·.addTransform · t)
  change (·.bind transform (.handle t))
  return .text t.name

/-- Registers an edge. -/
def addEdge (graph edge : String) : Work Reply := do
  let g ← read (·.lookUp .graph graph)
  let e ← read (·.lookUp .edge edge)
  let g ← inGraph graph g (·.addEdge · e)
  return .registered e (g.describe e)

/-- Answers with the name of a transform that was found, and binds a handle to it. -/
def foundTransform (target : Option String) (t : Transform) : Work Reply := do
  change (·.bindIfSome target (.handle t))
  return .text t.name

/-- Answers with a transform that was looked up and may be missing. -/
def maybeTransform (target : Option String) : Option Transform → Work Reply
  | none => return .nothing
  | some t => foundTransform target t

/-- Finds a transform of a graph. -/
def findTransform (graph : String) (find : Graph → Option Transform) (target : Option String) :
    Work Reply := do
  let g ← read (·.lookUp .graph graph)
  maybeTransform target (find g)

/-- Finds the owner of a port. -/
def findOwner (graph : String) (r : PortRef) (target : Option String) : Work Reply := do
  let g ← read (·.lookUp .graph graph)
  let p ← read (·.port r)
  let t ← answer (g.ownerOfPort p)
  foundTransform target t

/-- Finds the owner of the port of an identity. -/
def findOwnerOfId (graph : String) (id : Ident) (target : Option String) : Work Reply := do
  let g ← read (·.lookUp .graph graph)
  let t ← answer (g.ownerOfId id)
  foundTransform target t

/-! ## Breaking the rules -/

/-- Puts a graph in the place of another one. -/
def replaceGraph (var : String) (g : Graph) : Work Reply := do
  change (·.bind var (.graph g))
  return .size g.size

/-- Puts an edge into a graph unchecked. -/
def forceEdge (graph : String) (e : Edge) : Work Reply := do
  let g ← read (·.lookUp .graph graph)
  replaceGraph graph (g.appendEdge e)

/-- Puts a transform into the list of a graph only; its variable becomes a handle. -/
def forceTransform (graph transform : String) : Work Reply := do
  let g ← read (·.lookUp .graph graph)
  let t ← read (·.transform transform)
  let size ← replaceGraph graph (g.pushTransform t)
  change (·.bind transform (.handle t))
  return size

/-- Enters ports that are not in the parent index yet, under any slot. -/
def forceIndex (graph transform : String) (slot : Ident) : Work Reply := do
  let g ← read (·.lookUp .graph graph)
  let t ← read (·.transform transform)
  if t.ports.any fun p => g.parents.contains p.id then fail .senseless
  else replaceGraph graph (g.enterPorts slot t)

end Work

/-! ## Steps that only look -/

/-- Checks a graph, or a part of it. -/
def validate (s : Session) (graph : String) (part : Option ValidatePart) : Except Obstacle Reply := do
  let g ← s.lookUp .graph graph
  orRefuse (match part with
    | none => g.validate
    | some .transforms => g.validateTransforms
    | some .parents => g.validateParents
    | some .edges => g.validateEdges)
  return .nothing

/-! ## Steps -/

open Work in
/-- Carries out a step. -/
def carryOut : Step → Work Reply
  | .createPort target name type d => createPort target name type d
  | .viewPort r => .read fun s => return .port (← s.port r)
  | .comparePorts a b => .read fun s => do
    let a ← s.port a
    let b ← s.port b
    return .comparison (a = b) (a.type = b.type)
  | .createConstant target name v => createConstant target name v
  | .viewConstant r => .read fun s => return .constant (s.store.view (← s.constant r))
  | .inspectConstant r => .read fun s => do
    let c ← s.constant r
    return .inspection (s.store.inspect c) ((s.store.valueAt? c.cell).map Value.inspect)
  | .setConstant r v => setConstant r v
  | .copyValue giver receiver => copyValue giver receiver
  | .resolveConstant r records => resolveConstant r records
  | .createTransform target plan => createTransform target plan
  | .markMemory t reads writes => markMemory t reads writes
  | .addConstant t c => offer t c .constant Transform.addConstant
  | .addPort t p => offer t p .port Transform.addPort
  | .addPortTo d t p => offer t p .port (·.addPortTo d ·)
  | .viewTransform t => .read fun s => return .transform (s.store.viewTransform (← s.transform t))
  | .viewSolePort t d => .read fun s => return .port (← orRefuse ((← s.transform t).solePort d))
  | .ownsPort t r => .read fun s => do
    let t ← s.transform t
    let p ← s.port r
    return .truth (t.hasId p.id)
  | .ownsId t id => .read fun s => return .truth ((← s.transform t).hasId id)
  | .connect target a b label => Work.connect target a b label
  | .joinPorts target a b => joinPorts target a b
  | .relabel target e label => relabel target e label
  | .compareEdges a b => .read fun s => do
    let a ← s.lookUp .edge a
    let b ← s.lookUp .edge b
    return .truth (a = b)
  | .createGraph target name => bindGraph target (.empty (name.getD Graph.defaultName))
  | .buildDesign target name => buildDesign target name
  | .addTransform g t => addTransform g t
  | .addEdge g e => addEdge g e
  | .viewGraph g => .read fun s => return .graph (← s.lookUp .graph g).view
  | .findTransform g name target => findTransform g (·.transform? name) target
  | .findTransformWithId g id target => findTransform g (·.transformWithId? id) target
  | .findEdgeWithId g id => .read fun s => do
    return match (← s.lookUp .graph g).edgeWithId? id with
      | none => .nothing
      | some e => .edge e
  | .findOwner g r target => findOwner g r target
  | .findOwnerOfId g id target => findOwnerOfId g id target
  | .findPortWithId g id => .read fun s => do
    return match (← s.lookUp .graph g).port? id with
      | none => .nothing
      | some p => .port p
  | .viewIndex g id => .read fun s => return .index ((← s.lookUp .graph g).viewIndex id)
  | .describeEdge g e => .read fun s => do
    let g ← s.lookUp .graph g
    let e ← s.lookUp .edge e
    return .text (g.describe e)
  | .validate g part => .read (·.validate g part)
  | .drop var => fun s => (s.unbind var, .ok (.truth (s.bindings.contains var)))
  | .takeLog => fun s =>
    (s.withWorkshop { s.workshop with log := [] }, .ok (.events s.workshop.log))
  | .forgeEdge target e => bindEdge target e
  | .forceEdge g e => forceEdge g e
  | .forceTransform g t => forceTransform g t
  | .forceIndex g t slot => forceIndex g t slot

end Session

/-- How a step ended. -/
def Outcome.of : Except Obstacle Reply → Outcome
  | .ok r => .done r
  | .error .senseless => .senseless
  | .error (.refused e) => .refused e

namespace Session

/-- The session after a step, and how the step ended. -/
def conclude (r : Session × Except Obstacle Reply) : Session × Outcome := (r.1, .of r.2)

/-- Carries out a step and tells how it ended. -/
def perform (s : Session) (st : Step) : Session × Outcome := conclude (carryOut st s)

/-! ## Answers -/

/-- What is shown of a constant. -/
def constantState (s : Session) (r : ConstantRef) : Option StateView :=
  match s.constant r with
  | .ok c => some (.constant (s.store.view c))
  | .error _ => none

/-- What is shown of a transform. -/
def transformState (s : Session) (var : String) : Option StateView :=
  match s.transform var with
  | .ok t => some (.transform t.outline)
  | .error _ => none

/-- What is shown of a graph. -/
def graphState (s : Session) (var : String) : Option StateView :=
  match s.lookUp .graph var with
  | .ok g => some (.graph g.size)
  | .error _ => none

/-- What is shown after a step of the object that it may have changed, if the object is there. -/
def stateAfter (s : Session) : Step → Option StateView
  | .setConstant r _ => s.constantState r
  | .resolveConstant r _ => s.constantState r
  | .addConstant t _ => s.transformState t
  | .addPort t _ => s.transformState t
  | .addPortTo _ t _ => s.transformState t
  | .addTransform g _ => s.graphState g
  | .addEdge g _ => s.graphState g
  | _ => none

/-- Carries out a step and answers it. -/
def step (s : Session) (st : Step) : Session × Answer :=
  let (s', outcome) := s.perform st
  (s', ⟨outcome, s'.stateAfter st⟩)

/-- Carries out steps one after another. -/
def run (s : Session) : List Step → Session × List Answer
  | [] => (s, [])
  | st :: rest =>
    let (s', answer) := s.step st
    let (s'', answers) := s'.run rest
    (s'', answer :: answers)

end Session

end Dataflow
