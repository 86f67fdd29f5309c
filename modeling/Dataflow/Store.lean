import Dataflow.Table
import Dataflow.Value

/-!
# The store of constant values

The store gives cells their values.  A constant is bound when its cell has one.  Whoever holds the
constant reads and writes the same cell, so the last write counts for everybody, and a write to one
cell is a write to no other (`valueAt?_write`).  Cells are handed out one after another, and only
cells that have been handed out have a value.

The cells from some address on are taken back when everything that they belonged to is gone
(`release`).  A store that has only handed out cells meanwhile is then what it was before
(`release_allocate`, `release_next`).
-/

namespace Dataflow

/-- The values of all constants. -/
@[ext] structure Store where
  /-- The values of the bound cells. -/
  cells : Table Cell Value
  /-- The address of the next cell to be handed out. -/
  next : Nat
  tidy : ∀ c : Cell, next ≤ c.index → cells.get? c = none

namespace Store

/-- The store without cells. -/
def empty : Store := ⟨.empty, 0, fun _ _ => rfl⟩

/-- The value in a cell. -/
def valueAt? (s : Store) (c : Cell) : Option Value := s.cells.get? c

/-- The store after writing a value to a cell. -/
def write (s : Store) (c : Cell) (v : Value) : Store where
  cells := s.cells.insert c v
  next := max s.next (c.index + 1)
  tidy d hd := by
    have hne : c ≠ d := by
      rintro rfl
      omega
    rw [Table.get?_insert_of_ne _ _ hne]
    exact s.tidy d (by omega)

/-- The store after writing a value, if there is one. -/
def writeIfSome (s : Store) (c : Cell) : Option Value → Store
  | none => s
  | some v => s.write c v

/-- The store in which the next cell has been handed out, without a value. -/
def handOut (s : Store) : Store where
  cells := s.cells
  next := s.next + 1
  tidy c hc := s.tidy c (Nat.le_of_succ_le hc)

/-- A fresh cell with this value, or with none. -/
def allocate (s : Store) (v : Option Value) : Cell × Store :=
  (⟨s.next⟩, s.handOut.writeIfSome ⟨s.next⟩ v)

/-- Where the cells from some address on are left out, no cell that comes later has a value. -/
theorem get?_keep_of_le (s : Store) {first : Nat} {c : Cell} (hc : min first s.next ≤ c.index) :
    (s.cells.keep fun c => c.index < first).get? c = none := by
  rw [Table.get?_keep]
  by_cases hlt : c.index < first
  · rw [if_pos (decide_eq_true hlt)]
    exact s.tidy c (by omega)
  · rw [if_neg (mt of_decide_eq_true hlt)]

/-- The store after the cells from this address on have been taken back. -/
def release (s : Store) (first : Nat) : Store where
  cells := s.cells.keep fun c => c.index < first
  next := min first s.next
  tidy _ := s.get?_keep_of_le

/-- Makes a constant in a fresh cell.  A name that is refused takes no cell. -/
def createConstant (s : Store) (name : String) (v : Option Value) :
    Store × Except Error Constant :=
  match checkName name with
  | .error e => (s, .error e)
  | .ok () =>
    let (cell, s) := s.allocate v
    (s, .ok ⟨name, cell⟩)

/-- The value that the constant is bound to. -/
def value (s : Store) (c : Constant) : Except Error Value :=
  match s.valueAt? c.cell with
  | some v => .ok v
  | none => .error (.unboundValue c.name .unassigned)

/-- The constant bound to this value. -/
def set (s : Store) (c : Constant) (v : Value) : Store := s.write c.cell v

@[simp] theorem valueAt?_empty (c : Cell) : empty.valueAt? c = none := rfl

theorem valueAt?_write (s : Store) (c d : Cell) (v : Value) :
    (s.write c v).valueAt? d = if c = d then some v else s.valueAt? d :=
  s.cells.get?_insert c d v

theorem next_write (s : Store) {c : Cell} (hc : c.index < s.next) (v : Value) :
    (s.write c v).next = s.next :=
  Nat.max_eq_left hc

theorem valueAt?_of_next_le (s : Store) {c : Cell} (hc : s.next ≤ c.index) : s.valueAt? c = none :=
  s.tidy c hc

/-! ## Handing out and taking back -/

@[simp] theorem next_allocate (s : Store) (v : Option Value) : (s.allocate v).2.next = s.next + 1 := by
  cases v with
  | none => rfl
  | some v => exact Nat.max_self _

/-- The new cell has its initial value, and all others have the value that they had. -/
theorem valueAt?_allocate (s : Store) (v : Option Value) (c : Cell) :
    (s.allocate v).2.valueAt? c = if (⟨s.next⟩ : Cell) = c then v else s.valueAt? c := by
  cases v with
  | none =>
    show s.valueAt? c = _
    split
    · rename_i hc
      exact s.valueAt?_of_next_le (hc ▸ Nat.le_refl _)
    · rfl
  | some v => exact valueAt?_write _ _ _ _

theorem release_next (s : Store) : s.release s.next = s := by
  have hcells : s.cells.keep (fun c => c.index < s.next) = s.cells := Table.keep_eq_self fun c v hc =>
    decide_eq_true <| Nat.lt_of_not_le fun hle => by rw [s.tidy c hle] at hc; cases hc
  exact Store.ext hcells (Nat.min_self _)

/-- A cell that has been handed out since is taken back without a trace. -/
theorem release_allocate (s : Store) (v : Option Value) {first : Nat} (h : first ≤ s.next) :
    (s.allocate v).2.release first = s.release first := by
  have hnext : min first (s.allocate v).2.next = min first s.next := by
    rw [next_allocate]
    omega
  have hkey : decide ((⟨s.next⟩ : Cell).index < first) = false := decide_eq_false (Nat.not_lt.mpr h)
  refine Store.ext ?_ hnext
  cases v with
  | none => rfl
  | some v => exact Table.keep_insert s.cells (p := fun c => decide (c.index < first)) hkey v

end Store

end Dataflow
