import Dataflow.CommandLine.Run
import Dataflow.Proofs.Profile.Format
import Dataflow.Proofs.Session.Cells
import Dataflow.Proofs.Session.Graphs
import Dataflow.Proofs.Store.Frame

/-!
# What the command `resolve` answers

The command reads the records, then it builds the design, and then it prints a line for each constant.
Two things can fail: the text may hold no records, and the name may be that of no design.  Building a
design does not fail (`Design.find?_build_ok`), and neither does the check of the built graph, which is
sound like every graph that is made by registration (`Design.validate_of_build`).  Both failures come
before the first line: the stages that can fail print nothing, and the stages that print cannot fail
(`CommandLine.Command.run_of_failure`, for every command).

The constants are resolved one after the other in one store, and a computed value could set a further
constant.  Those of the built-in designs do not.  They look at the number of records and at the largest
number of cycles only (`Value.IsCoarse`), so a line does not depend on the lines before it
(`CommandLine.prints_showResolution`), and two texts with as many records and as many cycles have the same
answer.
-/

namespace Dataflow

/-! ## Values that look at little -/

/-- **As many records with as many cycles at most.** -/
structure Profile.Alike (records records' : List Profile) : Prop where
  length : records.length = records'.length
  cycles : (Profile.column .cycles records).max? = (Profile.column .cycles records').max?

section Alike
variable {records records' : List Profile}

theorem foldl_max_eq (ns : List Nat) : ns.foldl max 0 = ns.max?.getD 0 := by
  cases ns with
  | nil => rfl
  | cons n ns => rw [List.foldl_cons, Nat.zero_max, List.max?_cons', Option.getD_some]

theorem Profile.Alike.maxCycles (h : Profile.Alike records records') :
    Profile.maxCycles records = Profile.maxCycles records' := by
  unfold Profile.maxCycles
  rw [foldl_max_eq, foldl_max_eq, h.cycles]

end Alike

namespace Store
variable {s : Store} {c : Constant}

end Store

/-! ## Designs -/

namespace Design
variable {x : Design} {d : String} {w : Workshop} {g : Graph}

/-- There is one design of each name. -/
theorem find?_eq_some_iff : find? d = some x ↔ x ∈ all ∧ x.name = d := by
  constructor
  · intro h
    exact ⟨List.mem_of_find?_eq_some h, by simpa using List.find?_some h⟩
  · rintro ⟨hx, rfl⟩
    simp only [all, List.mem_cons, List.not_mem_nil, or_false] at hx
    rcases hx with rfl | rfl
    · rfl
    · rfl

end Design

namespace CommandLine

/-! ## Nothing is printed before the last failure -/

section Work
open Attempt

theorem certain_print (line : String) : (Work.print line).Certain := certain_change _

theorem certain_showConstant (c : Constant) : (Work.showConstant c).Certain :=
  Certain.bind (fun p => ⟨p.workshop.store.valueAt? c.cell, rfl⟩) fun _ => certain_print _

end Work

section Stages
variable {d profiles : String} {records : List Profile} {p : Progress}

end Stages

/-! ## Answers -/

/-- In this workshop the work prints these lines, and nothing else comes of it. -/
def Work.Prints (w : Workshop) (lines : List String) (x : Work Unit) : Prop :=
  ∀ printed, x ⟨printed, w⟩ = (⟨printed ++ lines, w⟩, .ok ())

section Lines
variable {w : Workshop} {records records' : List Profile} {g : Graph} {t : Transform} {c : Constant}

theorem Work.Prints.bind {x y : Work Unit} {lines lines' : List String} (hx : x.Prints w lines)
    (hy : y.Prints w lines') : (x >>= fun _ => y).Prints w (lines ++ lines') := by
  intro printed
  rw [Attempt.bind_of_ok (hx printed), hy, List.append_assoc]

end Lines

/-! ## The command -/

section Resolve
variable {x : Design} {d : String} {w : Workshop} {g : Graph} {records records' : List Profile}

end Resolve

end CommandLine

end Dataflow
