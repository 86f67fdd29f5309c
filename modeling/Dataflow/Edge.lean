import Dataflow.Transform.Basic

/-!
# Edges

An edge runs from an output port to an input port.  It knows its ends by identity only, so it does
not change when anything else does, and it may carry a label, which is for display.

`Edge.between` joins two ports in either order.  `connect` also takes a transform for an end, which
then stands for its only port of the direction that is needed.
-/

namespace Dataflow

/-- A directed connection. -/
structure Edge where
  /-- The output port where the data comes from. -/
  source : Ident
  /-- The input port where the data goes. -/
  destination : Ident
  label : Option String
deriving DecidableEq, Repr

/-- One side of a connection. -/
inductive Endpoint
  | port (p : Port)
  | transform (t : Transform)
deriving DecidableEq, Repr

namespace Edge

/-- Joins an output and an input, given in either order. -/
def between (a b : Port) : Except Error Edge :=
  match a.direction, b.direction with
  | .output, .input => .ok ⟨a.id, b.id, none⟩
  | .input, .output => .ok ⟨b.id, a.id, none⟩
  | _, _ => .error (.directionMismatch (a.direction, a.name) (b.direction, b.name))

/-- The edge with this label. -/
def named (e : Edge) (label : String) : Edge := { e with label := some label }

end Edge

/-- Joins two ends.  Of two transforms the first is the producer: its only output feeds the only
input of the second.  Beside a port, a transform stands for its only port that faces it. -/
def connect : Endpoint → Endpoint → Except Error Edge
  | .port a, .port b => Edge.between a b
  | .transform t, .port p | .port p, .transform t => do
    Edge.between (← t.solePort p.direction.opposite) p
  | .transform producer, .transform consumer => do
    let source ← producer.solePort .output
    let destination ← consumer.solePort .input
    Edge.between source destination

end Dataflow
