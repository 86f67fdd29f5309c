/-!
# Identities

Ports are numbered by a counter when they are made, transforms and edges by their place in the
graph.  All these numbers are kept as an `Ident`.

An identity has 32 bits, and storage reserves one value, so an `Ident` holds the slots 0 to
4294967294 only: the number 4294967295 is kept as the slot before it (`Ident.slot_ofSlot`), and a
larger counter starts over at zero.  Below the limit nothing is lost
(`Ident.slot_ofCounter_of_lt`).
-/

namespace Dataflow

/-- The identity of a port, a transform or an edge: a slot number below the reserved value. -/
structure Ident where
  /-- The number that the identity is read back as. -/
  slot : Nat
  slot_le : slot ≤ 4294967294
deriving DecidableEq, Repr

namespace Ident

/-- The largest slot that can be kept. -/
def maxSlot : Nat := 4294967294

/-- The identity of a slot; the last 32-bit number shares the identity of the one before it. -/
def ofSlot (n : UInt32) : Ident :=
  ⟨min n.toNat maxSlot, Nat.min_le_right _ _⟩

/-- Identities are ordered by slot. -/
instance : Ord Ident := ⟨fun a b => compare a.slot b.slot⟩

/-- The identity as it is shown, `#` and the slot. -/
def text (i : Ident) : String := "#" ++ toString i.slot

@[ext] theorem ext {a b : Ident} (h : a.slot = b.slot) : a = b := by
  cases a; cases b; cases h; rfl

theorem slot_ofSlot (n : UInt32) : (ofSlot n).slot = min n.toNat 4294967294 := rfl

/-- The identity that belongs to a counter; the counter is taken modulo the 32-bit numbers. -/
def ofCounter (n : Nat) : Ident := ofSlot n.toUInt32

/-- The identity that the counter hands out next, and the counter after it. -/
def allocate (next : Nat) : Ident × Nat := (ofCounter next, next + 1)

theorem slot_ofCounter (n : Nat) : (ofCounter n).slot = min (n % 4294967296) 4294967294 := by
  simp [ofCounter, slot_ofSlot, Nat.toUInt32]

theorem slot_ofCounter_of_lt {n : Nat} (h : n < 4294967295) : (ofCounter n).slot = n := by
  rw [slot_ofCounter]; omega

end Ident

end Dataflow
