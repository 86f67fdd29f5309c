/-!
# Directions

Data enters a transform at its inputs and leaves it at its outputs.
-/

namespace Dataflow

/-- The way data flows through a port. -/
inductive Direction
  /-- Data enters the transform here. -/
  | input
  /-- Data leaves the transform here. -/
  | output
deriving DecidableEq, Repr

namespace Direction

/-- The direction that a port must have to be connected to a port of this one. -/
def opposite : Direction → Direction
  | .input => .output
  | .output => .input

/-- The direction as messages name it. -/
def text : Direction → String
  | .input => "input"
  | .output => "output"

@[simp] theorem opposite_opposite (d : Direction) : d.opposite.opposite = d := by
  cases d <;> rfl

theorem ne_iff_eq_opposite {d e : Direction} : d ≠ e ↔ e = d.opposite := by
  cases d <;> cases e <;> simp [opposite]

end Direction

end Dataflow
