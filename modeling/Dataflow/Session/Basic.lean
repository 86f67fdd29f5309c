import Dataflow.Graph.Validate
import Dataflow.Session.Reply
import Dataflow.Session.Step
import Dataflow.Workshop

/-!
# Sessions

A session has a workshop and variables.  A variable holds a port or a constant that belongs to
nothing yet, a transform that is still open, a handle to a transform that can no longer be changed,
an edge, or a graph.

Looking up fails in two ways (`Obstacle`): the step is senseless if a variable is missing or holds an
object of another sort, and refused if an object that is there has no such part.
-/

namespace Dataflow

/-- What a variable can hold. -/
inductive Object
  | port (p : Port)
  | constant (c : Constant)
  /-- A transform to which parts can still be added. -/
  | draft (t : Transform)
  /-- A transform that is registered and does not change. -/
  | handle (t : Transform)
  | edge (e : Edge)
  | graph (g : Graph)

namespace Object

/-- **A sort of objects**: how an object of the sort is made, and how it is told from the others. -/
structure Kind (α : Type) where
  wrap : α → Object
  unwrap? : Object → Option α
  unwrap?_eq_some : ∀ {o : Object} {a : α}, unwrap? o = some a ↔ o = wrap a

namespace Kind

/-- The ports. -/
def port : Kind Port where
  wrap := .port
  unwrap?
    | .port p => some p
    | _ => none
  unwrap?_eq_some {o p} := by cases o <;> simp

/-- The constants. -/
def constant : Kind Constant where
  wrap := .constant
  unwrap?
    | .constant c => some c
    | _ => none
  unwrap?_eq_some {o c} := by cases o <;> simp

/-- The open transforms. -/
def draft : Kind Transform where
  wrap := .draft
  unwrap?
    | .draft t => some t
    | _ => none
  unwrap?_eq_some {o t} := by cases o <;> simp

/-- The handles. -/
def handle : Kind Transform where
  wrap := .handle
  unwrap?
    | .handle t => some t
    | _ => none
  unwrap?_eq_some {o t} := by cases o <;> simp

/-- The edges. -/
def edge : Kind Edge where
  wrap := .edge
  unwrap?
    | .edge e => some e
    | _ => none
  unwrap?_eq_some {o e} := by cases o <;> simp

/-- The graphs. -/
def graph : Kind Graph where
  wrap := .graph
  unwrap?
    | .graph g => some g
    | _ => none
  unwrap?_eq_some {o g} := by cases o <;> simp

end Kind

end Object

/-- The state between two steps. -/
structure Session where
  workshop : Workshop
  bindings : Table String Object

/-- Why a step has no result. -/
inductive Obstacle
  | senseless
  | refused (e : Error)

/-- An answer whose refusal is the refusal of the step. -/
def orRefuse {α : Type} : Except Error α → Except Obstacle α
  | .ok a => .ok a
  | .error e => .error (.refused e)

@[simp] theorem orRefuse_ok {α : Type} (a : α) : orRefuse (.ok a) = .ok a := rfl

@[simp] theorem orRefuse_error {α : Type} (e : Error) :
    orRefuse (.error e : Except Error α) = .error (.refused e) := rfl

namespace Session

/-- A session without variables, whose ports are counted from `nextPort`. -/
def start (nextPort : Nat) : Session := ⟨.start nextPort, .empty⟩

/-- Binds a variable to an object, whatever it held before. -/
def bind (s : Session) (var : String) (o : Object) : Session :=
  { s with bindings := s.bindings.insert var o }

/-- Binds a variable, if one is given. -/
def bindIfSome (s : Session) (var : Option String) (o : Object) : Session :=
  match var with
  | none => s
  | some v => s.bind v o

/-- Takes an object out of its variable. -/
def unbind (s : Session) (var : String) : Session :=
  { s with bindings := s.bindings.erase var }

/-- The values of constants. -/
def store (s : Session) : Store := s.workshop.store

/-- The session with other values of constants. -/
def withStore (s : Session) (store : Store) : Session :=
  { s with workshop := { s.workshop with store := store } }

/-- The session with another workshop. -/
def withWorkshop (s : Session) (w : Workshop) : Session := { s with workshop := w }

/-! ## Looking up -/

/-- What a variable holds, if it is of this sort. -/
def lookUp {α : Type} (s : Session) (k : Object.Kind α) (var : String) : Except Obstacle α :=
  match (s.bindings.get? var).bind k.unwrap? with
  | some a => .ok a
  | none => .error .senseless

/-- The transform that a variable holds, open or not. -/
def transform (s : Session) (var : String) : Except Obstacle Transform :=
  s.lookUp .draft var <|> s.lookUp .handle var

/-- The port that a reference names. -/
def port (s : Session) : PortRef → Except Obstacle Port
  | .loose v => s.lookUp .port v
  | .positioned t d index => do orRefuse ((← s.transform t).portAt d index)
  | .named t name => do orRefuse ((← s.transform t).port name)

/-- The constant that a reference names. -/
def constant (s : Session) : ConstantRef → Except Obstacle Constant
  | .loose v => s.lookUp .constant v
  | .named t name => do orRefuse ((← s.transform t).constant name)

/-- The side of a connection that a reference names. -/
def endpoint (s : Session) : EndpointRef → Except Obstacle Endpoint
  | .port p => return .port (← s.port p)
  | .whole t => return .transform (← s.transform t)

/-- The value that a specification means; the transforms that it names have to be registered. -/
def value (s : Session) : ValueSpec → Except Obstacle Value
  | .unknown => .error .senseless
  | .literal text => .ok (.literal text)
  | .measure m => .ok (.computed (.measure m))
  | .rebind owner constant text => return .computed (.rebind (← s.lookUp .handle owner) constant text)
  | .chain owner constant skip => return .computed (.chain (← s.lookUp .handle owner) constant skip)

/-- The value that a specification means, if there is one. -/
def valueIfSome (s : Session) : Option ValueSpec → Except Obstacle (Option Value)
  | none => .ok none
  | some v => return some (← s.value v)

/-- The constants of a plan with their values, up to the first value that makes no sense. -/
def plannedConstants (s : Session) :
    List (String × Option ValueSpec) → List (String × Option Value)
  | [] => []
  | (name, v) :: rest =>
    match s.valueIfSome v with
    | .ok v => (name, v) :: s.plannedConstants rest
    | .error _ => []

/-- The plan that a specification means, up to the first value that makes no sense. -/
def plan (s : Session) (p : PlanSpec) : Plan :=
  ⟨p.name, p.readsMemory, p.writesMemory, p.inputs, p.outputs, s.plannedConstants p.constants⟩

/-- Every value of the specification makes sense, so that the plan is the whole of it. -/
def understands (s : Session) (p : PlanSpec) : Bool :=
  p.constants.all fun c => (s.valueIfSome c.2).isOk

end Session

end Dataflow
