import Dataflow.Proofs.Graph.Violations
import Dataflow.Proofs.Session.Graphs
import Dataflow.Proofs.Session.Traits

/-!
# Any script

Steps that break the rules can put anything into the lists and the index of a graph, but they cannot
make a transform.  A transform comes from a plan, and grows only while it is open, so order is a
universal trait, and every transform of every session is in order, whatever the steps
(`Session.inOrder_of_run`).

That is all that the check of a graph needs to be exact.  After any script, it passes exactly the
consistent graphs (`Session.validate_eq_ok_iff_of_run`), and of a graph that is broken in any number of
ways it reports the first breach of the first rule (`Session.validate_eq_iff_of_run`).
-/

namespace Dataflow

namespace Session

/-- Every transform that a variable holds is in order. -/
def InOrder (s : Session) : Prop := ∀ t, s.Knows t → t.InOrder

/-- Order is a trait of transforms alone. -/
theorem inOrder_iff {s : Session} : s.InOrder ↔ s.Holding (Trait.ofTransform Transform.InOrder) := by
  constructor
  · exact fun hs x o ho => Object.HasTrait.ofTransform_iff.mpr fun t ht => hs t ⟨x, o, ho, ht⟩
  · rintro hs t ⟨x, o, ho, ht⟩
    exact (hs x o ho).transform ht

theorem InOrder.of_holds {s : Session} (hs : s.InOrder) {x : String} {o : Object}
    (hx : s.Holds x o) : ∀ t ∈ o.transforms, t.InOrder :=
  fun t ht => hs t ⟨x, o, hx, ht⟩

/-- **Every transform is in order after any script.** -/
theorem inOrder_of_run {s : Session} (hs : s.InOrder) (steps : List Step) :
    (s.run steps).1.InOrder :=
  inOrder_iff.mpr ((inOrder_iff.mp hs).run Trait.universal_inOrder steps)

theorem inOrder_start (n : Nat) : (start n).InOrder :=
  inOrder_iff.mpr (Holding.start n _)

/-- **After any script, the check of a graph passes exactly the consistent graphs**, as long as the
slots can be told apart and the ports of each single transform too. -/
theorem validate_eq_ok_iff_of_run {n : Nat} {steps : List Step} {x : String} {g : Graph}
    (hx : ((start n).run steps).1.Holds x (.graph g)) (hl : g.transforms.length ≤ 4294967295)
    (hids : ∀ t ∈ g.transforms, (t.ports.map (·.id)).Nodup) :
    g.validate = .ok () ↔ g.Consistent := by
  have hord : ∀ t ∈ g.transforms, t.InOrder :=
    (inOrder_of_run (inOrder_start n) steps).of_holds hx
  exact Graph.validate_eq_ok_iff hord hl hids

/-- The pipeline with a stray port in the index, under the slot of the writer. -/
def strayPipeline : List Step :=
  pipeline ++
    [.createTransform "stray" ⟨"stray", false, false, [], [("rows", ⟨"Table"⟩)], []⟩,
     .forceIndex "graph" "stray" (Ident.ofCounter 1)]

theorem validate_eq_ok_iff_of_run_strayPipeline : ∃ g : Graph,
    ((start 0).run strayPipeline).1.Holds "graph" (.graph g) ∧
      (g.validate = .ok () ↔ g.Consistent) ∧ ¬ g.Consistent := by
  obtain ⟨g, hx, hl, hids, hbad⟩ : ∃ g : Graph,
      ((start 0).run strayPipeline).1.Holds "graph" (.graph g) ∧ g.transforms.length = 2 ∧
        (∀ t ∈ g.transforms, (t.ports.map (·.id)).Nodup) ∧ g.validate.isOk = false :=
    ⟨_, rfl, rfl, by decide +kernel, by decide +kernel⟩
  have hiff := validate_eq_ok_iff_of_run hx (by omega) hids
  refine ⟨g, hx, hiff, fun hcons => ?_⟩
  rw [hiff.mpr hcons] at hbad
  cases hbad

/-- **After any script, the check of a graph reports the first breach of the first rule that is broken**,
or nothing if none is, as long as the slots can be told apart. -/
theorem validate_eq_iff_of_run {n : Nat} {steps : List Step} {x : String} {g : Graph}
    (hx : ((start n).run steps).1.Holds x (.graph g)) (hl : g.transforms.length ≤ 4294967295)
    {r : Except Error Unit} : g.validate = r ↔ g.Verdict r := by
  have hord : ∀ t ∈ g.transforms, t.InOrder :=
    (inOrder_of_run (inOrder_start n) steps).of_holds hx
  exact Graph.validate_eq_iff_verdict hord hl

/-- The pipeline with an edge against its direction, an edge to nowhere, and a stray port in the
index. -/
def tangledPipeline : List Step :=
  strayPipeline ++
    [.forceEdge "graph" ⟨Ident.ofCounter 1, Ident.ofCounter 0, none⟩,
     .forceEdge "graph" ⟨Ident.ofCounter 0, Ident.ofCounter 9, none⟩]

/-- Of three breaches, the one in the index is reported: it has an entry too many. -/
theorem validate_eq_iff_of_run_tangledPipeline : ∃ g : Graph,
    ((start 0).run tangledPipeline).1.Holds "graph" (.graph g) ∧ g.transforms.length = 2 ∧
      g.edges.length = 3 ∧ (∀ e ∈ g.edges.drop 1, ¬ g.Fine e) ∧
      g.Verdict (.error (.invariant (.indexSize 3 2))) := by
  obtain ⟨g, hx, hl, hedges, hbad, hvalidate⟩ : ∃ g : Graph,
      ((start 0).run tangledPipeline).1.Holds "graph" (.graph g) ∧ g.transforms.length = 2 ∧
        g.edges.length = 3 ∧ (∀ e ∈ g.edges.drop 1, (g.checkEdge 0 e).isOk = false) ∧
        g.validate = .error (.invariant (.indexSize 3 2)) :=
    ⟨_, rfl, rfl, rfl, by decide +kernel, rfl⟩
  refine ⟨g, hx, hl, hedges, fun e he hfine => ?_,
    (validate_eq_iff_of_run hx (by omega)).mp hvalidate⟩
  have hbroken := hbad e he
  rw [Graph.checkEdge_eq_ok_iff.mpr hfine] at hbroken
  cases hbroken

end Session

end Dataflow
