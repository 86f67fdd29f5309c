import Dataflow.Profile.Basic
import Dataflow.Transform.Basic

/-!
# Values of constants

A value is a text known at design time, or it is computed from profiling records.  A computation
summarises the records (`Measure`), which any function of them can do, or it reaches for a constant
of a registered transform: it sets that constant (`rebind`), or it takes over its text for the
records that are left after the first few (`chain`).
-/

namespace Dataflow

/-- A summary of profiling records: a text that depends on nothing else. -/
abbrev Measure := List Profile → String

/-- What is computed from profiling records. -/
inductive Computation
  | measure (m : Measure)
  /-- Sets a constant of a registered transform to a text. -/
  | rebind (owner : Transform) (constant text : String)
  /-- The text of a constant of a registered transform for all but the first `skip` records. -/
  | chain (owner : Transform) (constant : String) (skip : Nat)

/-- What a constant can be bound to. -/
inductive Value
  /-- Known at design time. -/
  | literal (text : String)
  /-- Known once there are records. -/
  | computed (c : Computation)

/-- The counts of one field, as numbers. -/
def Profile.column (field : Profile.Field) (records : List Profile) : List Nat :=
  records.map fun r => (r.get field).toNat

/-- The largest number of cycles; zero when there are no records. -/
def Profile.maxCycles (records : List Profile) : Nat :=
  (Profile.column .cycles records).foldl max 0

/-- The least power of two that is no smaller, or the largest 32-bit number if that power does not
fit 32 bits. -/
def powerOfTwoDepth (n : Nat) : Nat :=
  if n.nextPowerOfTwo ≤ 4294967295 then n.nextPowerOfTwo else 4294967295

example : powerOfTwoDepth 0 = 1 := by cbv
example : powerOfTwoDepth 5 = 8 := by cbv
example : powerOfTwoDepth 2147483648 = 2147483648 := by cbv
example : powerOfTwoDepth 2147483649 = 4294967295 := by cbv

/-- The depth of a buffer that holds the longest run. -/
def Measure.bufferDepth : Measure := fun records =>
  toString (powerOfTwoDepth (Profile.maxCycles records))

namespace Value

/-- The value is computed from records. -/
def isComputed : Value → Bool
  | literal _ => false
  | computed _ => true

end Value

end Dataflow
