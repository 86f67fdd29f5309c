import Dataflow.Proofs.Transform.Building

/-!
# Traits of transforms and their parts

A transform comes into being in two ways: it is made, or it is an open one that takes in a part.  A
**trait** (`Trait`) says something of transforms, and of ports and constants that belong to nothing
yet.  If whatever is made has it and growing keeps it, the trait is **universal**
(`Trait.Universal`), and then a transform that is made from a plan, part by part, has it as well
(`Trait.Universal.make`).
-/

namespace Dataflow

/-- What may be said of a transform, and of a port and a constant that belong to nothing yet. -/
structure Trait where
  transform : Transform → Prop
  port : Port → Prop
  constant : Constant → Prop

namespace Trait

/-- The trait that asks for nothing but a transform's own property. -/
def ofTransform (P : Transform → Prop) : Trait := ⟨P, fun _ => True, fun _ => True⟩

/-- **An open transform that takes in a part keeps the trait.** -/
structure Grows (K : Trait) : Prop where
  withMemory : ∀ {t : Transform} (reads writes : Bool), K.transform t →
    K.transform (t.withMemory reads writes)
  addConstant : ∀ {t t' : Transform} {c : Constant}, K.transform t → K.constant c →
    t.addConstant c = (t', .ok ()) → K.transform t'
  addPortTo : ∀ {t t' : Transform} {d : Direction} {p : Port}, K.transform t → K.port p →
    t.addPortTo d p = (t', .ok ()) → K.transform t'

/-- **Whatever is made has the trait**, and growing keeps it. -/
structure Universal (K : Trait) : Prop extends Grows K where
  create : ∀ {serial : Nat} {name : String} {t : Transform},
    Transform.create serial name = .ok t → K.transform t
  createPort : ∀ {name : String} {type : PortType} {d : Direction} {n n' : Nat} {p : Port},
    Port.create name type d n = (n', .ok p) → K.port p
  createConstant : ∀ {s s' : Store} {name : String} {v : Option Value} {c : Constant},
    s.createConstant name v = (s', .ok c) → K.constant c

namespace Universal
variable {K : Trait} (hK : K.Universal)
include hK

theorem addNewPorts {d : Direction} {specs : List (String × PortType)} {t t' : Transform}
    {n n' : Nat} (ht : K.transform t) (h : t.addNewPorts d specs n = ((t', n'), .ok ())) :
    K.transform t' := by
  induction specs generalizing t n with
  | nil =>
    cases h
    exact ht
  | cons spec rest ih =>
    rcases Transform.addNewPorts_cons d spec.1 spec.2 rest t n with
      ⟨e, -, heq⟩ | ⟨e, -, -, heq⟩ | ⟨t₁, hname, hadd, heq⟩
    · cases heq.symm.trans h
    · cases heq.symm.trans h
    · have hport := hK.createPort (Port.create_of_name hname spec.2 d n)
      exact ih (hK.addPortTo ht hport hadd) (heq.symm.trans h)

theorem addNewConstants {specs : List (String × Option Value)} {t t' : Transform} {s s' : Store}
    (ht : K.transform t) (h : t.addNewConstants specs s = ((t', s'), .ok ())) :
    K.transform t' := by
  induction specs generalizing t s with
  | nil =>
    cases h
    exact ht
  | cons spec rest ih =>
    rcases Transform.addNewConstants_cons spec.1 spec.2 rest t s with
      ⟨e, -, heq⟩ | ⟨e, -, heq⟩ | ⟨t₁, hname, hadd, heq⟩
    · cases heq.symm.trans h
    · cases heq.symm.trans h
    · have hconstant := hK.createConstant (Store.createConstant_of_name hname spec.2 s)
      exact ih (hK.addConstant ht hconstant hadd) (heq.symm.trans h)

theorem makePorts {plan : Plan} {t t' : Transform} {n n' : Nat} (ht : K.transform t)
    (h : Workshop.makePorts plan t n = ((t', n'), .ok ())) : K.transform t' := by
  rcases Workshop.makePorts_cases plan t n with ⟨t₁, n₁, e, -, heq⟩ | ⟨t₁, n₁, hinputs, heq⟩
  · cases heq.symm.trans h
  · exact hK.addNewPorts (hK.addNewPorts ht hinputs) (heq.symm.trans h)

/-- **A transform that is made from a plan has the trait.** -/
theorem make {w w' : Workshop} {plan : Plan} {t : Transform} (h : w.make plan = (w', .ok t)) :
    K.transform t := by
  obtain ⟨t₁, store, hname, hports, hconstants, -⟩ := Workshop.make_eq_ok h
  have hempty : K.transform ⟨w.nextSerial, plan.name, [], [], [], false, false⟩ :=
    hK.create (Transform.create_eq_ok.mpr ⟨hname, rfl⟩)
  have ht₁ := hK.makePorts (hK.withMemory plan.readsMemory plan.writesMemory hempty) hports
  exact hK.addNewConstants ht₁ hconstants

end Universal

/-- Order is a trait of transforms alone. -/
theorem universal_inOrder : (ofTransform Transform.InOrder).Universal where
  withMemory reads writes ht := ht.withMemory reads writes
  addConstant ht _ h := ht.addConstant h
  addPortTo ht _ h := ht.addPortTo h
  create h := Transform.inOrder_of_create h
  createPort _ := trivial
  createConstant _ := trivial

end Trait

end Dataflow
