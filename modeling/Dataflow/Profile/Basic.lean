/-!
# Profiling records

A record counts what happened at one stream port during a profiling run.  Computed constants read
an ordered list of them, one for each port that they depend on.
-/

namespace Dataflow

/-- The handshake counts of one port. -/
structure Profile where
  elements : UInt32
  valids : UInt32
  readies : UInt32
  transfers : UInt32
  packets : UInt32
  cycles : UInt32
deriving DecidableEq, Repr

namespace Profile

/-- The counts of a record, by name. -/
inductive Field
  | elements
  | valids
  | readies
  | transfers
  | packets
  | cycles
deriving DecidableEq, Repr

namespace Field

/-- The fields in the order in which a record declares them. -/
def all : List Field := [elements, valids, readies, transfers, packets, cycles]

/-- The name under which a field is written. -/
def name : Field → String
  | elements => "elements"
  | valids => "valids"
  | readies => "readies"
  | transfers => "transfers"
  | packets => "packets"
  | cycles => "cycles"

/-- The field of this name; upper and lower case are different. -/
def ofName? (s : String) : Option Field := all.find? fun f => f.name = s

theorem mem_all (f : Field) : f ∈ all := by
  cases f <;> decide

theorem name_injective {f g : Field} (h : f.name = g.name) : f = g := by
  cases f <;> cases g <;> first | rfl | (exfalso; revert h; decide)

theorem ofName?_name (f : Field) : ofName? f.name = some f := by
  cases f <;> decide

end Field

/-- The count that a field names. -/
def get (p : Profile) : Field → UInt32
  | .elements => p.elements
  | .valids => p.valids
  | .readies => p.readies
  | .transfers => p.transfers
  | .packets => p.packets
  | .cycles => p.cycles

/-- The share of cycles in which a transfer happened; zero when nothing was measured. -/
def utilization (p : Profile) : Float :=
  if p.cycles = 0 then 0.0 else p.transfers.toNat.toFloat / p.cycles.toNat.toFloat

/-- The bits of the utilization as a double, in sixteen hexadecimal digits. -/
def utilizationBits (p : Profile) : String :=
  let digits := Nat.toDigits 16 p.utilization.toBits.toNat
  String.ofList (List.replicate (16 - digits.length) '0' ++ digits)

end Profile

end Dataflow
