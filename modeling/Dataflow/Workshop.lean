import Dataflow.Attempt
import Dataflow.Graph.Register
import Dataflow.Resolve

/-!
# Making transforms

A `Workshop` is what everything that is built has in common: the counters that identities come
from, the values of the constants, and the log of registrations.

A transform can be made with all its parts at once, from a `Plan`.  The parts are made and added
one after another, and the first refusal ends the work.  What has been made until then is lost:
ports have used up their identities, and the cells of constants are taken back.
-/

namespace Dataflow

/-- The counters, the constant values and the log that all graphs share. -/
structure Workshop where
  /-- The counter that port identities come from. -/
  nextPort : Nat
  /-- The serial of the transform that is made next. -/
  nextSerial : Nat
  store : Store
  /-- The registrations, oldest first. -/
  log : List Event

/-- A transform to be made, part by part. -/
structure Plan where
  name : String
  readsMemory : Bool := false
  writesMemory : Bool := false
  inputs : List (String × PortType) := []
  outputs : List (String × PortType) := []
  /-- Names and values of constants; without a value the constant is declared only. -/
  constants : List (String × Option Value) := []

namespace Workshop

/-- A workshop in which nothing has been made; ports are counted from `nextPort`. -/
def start (nextPort : Nat) : Workshop := ⟨nextPort, 0, .empty, []⟩

/-- The log with a further event. -/
def record (w : Workshop) (e : Event) : Workshop := { w with log := w.log ++ [e] }

end Workshop

namespace Transform

/-- Makes ports and adds them to the list of one direction, in order, until one is refused. -/
def addNewPorts (d : Direction) :
    List (String × PortType) → Transform → Nat → (Transform × Nat) × Except Error Unit
  | [], t, next => ((t, next), .ok ())
  | (name, type) :: rest, t, next =>
    match Port.create name type d next with
    | (next, .error e) => ((t, next), .error e)
    | (next, .ok p) =>
      match t.addPortTo d p with
      | (t, .error e) => ((t, next), .error e)
      | (t, .ok ()) => addNewPorts d rest t next

/-- Makes constants and adds them, in order, until one is refused. -/
def addNewConstants :
    List (String × Option Value) → Transform → Store → (Transform × Store) × Except Error Unit
  | [], t, s => ((t, s), .ok ())
  | (name, value) :: rest, t, s =>
    match s.createConstant name value with
    | (s, .error e) => ((t, s), .error e)
    | (s, .ok c) =>
      match t.addConstant c with
      | (t, .error e) => ((t, s), .error e)
      | (t, .ok ()) => addNewConstants rest t s

end Transform

namespace Workshop

/-- Makes the ports of a plan, the inputs first. -/
def makePorts (plan : Plan) (t : Transform) (next : Nat) : (Transform × Nat) × Except Error Unit :=
  match t.addNewPorts .input plan.inputs next with
  | (r, .error e) => (r, .error e)
  | ((t, next), .ok ()) => t.addNewPorts .output plan.outputs next

/-- Makes a planned transform.  A transform that is not finished is lost with all its parts. -/
def make (w : Workshop) (plan : Plan) : Workshop × Except Error Transform :=
  match Transform.create w.nextSerial plan.name with
  | .error e => (w, .error e)
  | .ok t =>
    match makePorts plan (t.withMemory plan.readsMemory plan.writesMemory) w.nextPort with
    | ((_, next), .error e) => ({ w with nextPort := next }, .error e)
    | ((t, next), .ok ()) =>
      match t.addNewConstants plan.constants w.store with
      | ((_, store), .error e) =>
        ({ w with nextPort := next, store := store.release w.store.next }, .error e)
      | ((t, store), .ok ()) =>
        ({ w with nextPort := next, nextSerial := w.nextSerial + 1, store := store }, .ok t)

/-- Makes a port. -/
def createPort (w : Workshop) (name : String) (type : PortType) (d : Direction) :
    Workshop × Except Error Port :=
  let (next, answer) := Port.create name type d w.nextPort
  ({ w with nextPort := next }, answer)

/-- Makes a constant. -/
def createConstant (w : Workshop) (name : String) (v : Option Value) :
    Workshop × Except Error Constant :=
  let (store, answer) := w.store.createConstant name v
  ({ w with store := store }, answer)

/-- Resolves a constant. -/
def resolve (w : Workshop) (c : Constant) (records : List Profile) :
    Workshop × Except Error String :=
  let (answer, store) := w.store.resolve c records
  ({ w with store := store }, answer)

/-- Registers a transform in a graph and logs it. -/
def addTransform (w : Workshop) (g : Graph) (t : Transform) :
    (Workshop × Graph) × Except Error Unit :=
  let r := g.addTransform t
  ((w.record r.event, r.graph), r.result)

/-- Registers an edge in a graph and logs it. -/
def addEdge (w : Workshop) (g : Graph) (e : Edge) : (Workshop × Graph) × Except Error Unit :=
  let r := g.addEdge e
  ((w.record r.event, r.graph), r.result)

end Workshop

end Dataflow
