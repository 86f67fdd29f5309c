import Dataflow.Port

/-!
# Transforms

A transform is a named processing stage: it owns constants, input ports and output ports, each
list in the order in which its items were added.  Names are unique among the constants, among the
inputs and among the outputs; an output may share the name of an input.

Adding works on the transform: the transform afterwards stands beside the answer, also when this is
a refusal.  Looking up never changes anything.  A constant is a name and the address of a cell: what
the cell holds is no part of the transform, which is why a transform that nobody can change any more
still has constants that can be set.
-/

namespace Dataflow

/-- The address of a value that can be replaced. -/
structure Cell where
  index : Nat
deriving DecidableEq, Repr

/-- A named configuration value, kept in a cell. -/
structure Constant where
  name : String
  cell : Cell
deriving DecidableEq, Repr

/-- A processing stage. -/
structure Transform where
  /-- The number under which the transform was made; all handles to one transform share it. -/
  serial : Nat
  name : String
  constants : List Constant
  inputs : List Port
  outputs : List Port
  readsMemory : Bool
  writesMemory : Bool
deriving DecidableEq, Repr

namespace Transform

/-! ## Building -/

/-- A transform without constants and ports. -/
def create (serial : Nat) (name : String) : Except Error Transform := do
  checkName name
  return ⟨serial, name, [], [], [], false, false⟩

/-- The transform marked as reading or writing shared memory. -/
def withMemory (t : Transform) (reads writes : Bool) : Transform :=
  { t with readsMemory := reads, writesMemory := writes }

/-- The ports of one direction. -/
def portsOf (t : Transform) : Direction → List Port
  | .input => t.inputs
  | .output => t.outputs

/-- The transform with a further port at the end of one list. -/
def appendPort (t : Transform) (p : Port) : Direction → Transform
  | .input => { t with inputs := t.inputs ++ [p] }
  | .output => { t with outputs := t.outputs ++ [p] }

/-- Adds a constant whose name is new among the constants. -/
def addConstant (t : Transform) (c : Constant) : Transform × Except Error Unit :=
  if t.constants.any (·.name = c.name) then
    (t, .error (.duplicateName c.name (.constants t.name)))
  else ({ t with constants := t.constants ++ [c] }, .ok ())

/-- Adds a port to the list of the given direction, which has to be its own. -/
def addPortTo (t : Transform) (d : Direction) (p : Port) : Transform × Except Error Unit :=
  if p.direction ≠ d then (t, .error (.invalidName p.name (.misdirected d)))
  else if (t.portsOf d).any (·.name = p.name) then
    (t, .error (.duplicateName p.name (.ports d t.name)))
  else (t.appendPort p d, .ok ())

/-- Adds a port to the list of its direction. -/
def addPort (t : Transform) (p : Port) : Transform × Except Error Unit := t.addPortTo p.direction p

/-! ## Looking up -/

/-- All ports, inputs first. -/
def ports (t : Transform) : List Port := t.inputs ++ t.outputs

/-- The constant of this name. -/
def constant (t : Transform) (name : String) : Except Error Constant :=
  match t.constants.find? (·.name = name) with
  | some c => .ok c
  | none => .error (.notFound (.constant t.name name))

/-- The port of a direction at this position, counted from zero. -/
def portAt (t : Transform) (d : Direction) (index : Nat) : Except Error Port :=
  match (t.portsOf d)[index]? with
  | some p => .ok p
  | none => .error (.indexOutOfRange d index (t.portsOf d).length)

/-- The port of this name, an input rather than an output. -/
def port (t : Transform) (name : String) : Except Error Port :=
  match t.ports.find? (·.name = name) with
  | some p => .ok p
  | none => .error (.notFound (.port t.name name))

/-- The port of a direction that has no other. -/
def solePort (t : Transform) (d : Direction) : Except Error Port :=
  match t.portsOf d with
  | [p] => .ok p
  | ps => .error (.ambiguousPort t.name d ps.length)

/-- The port of this identity. -/
def portWithId? (t : Transform) (id : Ident) : Option Port := t.ports.find? (·.id = id)

/-- The transform owns the port of this identity. -/
def hasId (t : Transform) (id : Ident) : Bool := t.ports.any (·.id = id)

/-! ## Text -/

/-- The ports of a direction as signatures list them, `a: T, b: T`. -/
def portsText (t : Transform) (d : Direction) : String :=
  ", ".intercalate ((t.portsOf d).map Port.text)

/-- The signature, `add(a: T, b: T) -> (sum: T)`. -/
def signature (t : Transform) : String :=
  t.name ++ "(" ++ t.portsText .input ++ ") -> (" ++ t.portsText .output ++ ")"

/-! ## What the operations do to the lists -/

theorem portsOf_appendPort (t : Transform) (p : Port) (d e : Direction) :
    (t.appendPort p d).portsOf e = if e = d then t.portsOf e ++ [p] else t.portsOf e := by
  cases d <;> cases e <;> rfl

@[simp] theorem constants_appendPort (t : Transform) (p : Port) (d : Direction) :
    (t.appendPort p d).constants = t.constants := by
  cases d <;> rfl

@[simp] theorem name_appendPort (t : Transform) (p : Port) (d : Direction) :
    (t.appendPort p d).name = t.name := by
  cases d <;> rfl

theorem ports_eq (t : Transform) : t.ports = t.portsOf .input ++ t.portsOf .output := rfl

theorem hasId_iff {t : Transform} {id : Ident} : t.hasId id = true ↔ ∃ p ∈ t.ports, p.id = id := by
  simp [hasId]

end Transform

end Dataflow
