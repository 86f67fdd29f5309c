import Dataflow.Proofs.Graph.Lookup
import Dataflow.Proofs.Transform.Building

/-!
# Edges and the ports they join

Every edge that is made joins an output to an input (`Edge.Joins`), in whatever order and by way of
whatever transforms the two were given.  Nothing checks the orientation again later on, and nothing
needs to: as long as no two ports share an identity, the ends of the edge cannot be mistaken for
ports of another direction (`Edge.Joins.respects`).
-/

namespace Dataflow

/-- The ports that a side of a connection can stand for. -/
def Endpoint.ports : Endpoint → List Port
  | .port p => [p]
  | .transform t => t.ports

/-- The edge runs from an output to an input among the given ports. -/
def Edge.Joins (e : Edge) (P : Port → Prop) : Prop :=
  ∃ p q, P p ∧ P q ∧ p.direction = .output ∧ q.direction = .input ∧
    e.source = p.id ∧ e.destination = q.id

theorem Edge.Joins.mono {e : Edge} {P Q : Port → Prop} (h : e.Joins P) (hpq : ∀ p, P p → Q p) :
    e.Joins Q := by
  obtain ⟨p, q, hp, hq, hrest⟩ := h
  exact ⟨p, q, hpq p hp, hpq q hq, hrest⟩

/-- The port, if it is an end of the edge, has the direction of that end. -/
def Edge.Respects (e : Edge) (p : Port) : Prop :=
  (p.id = e.source → p.direction = .output) ∧ (p.id = e.destination → p.direction = .input)

/-- **An edge respects every port** of a collection that it was made from and that holds no two
ports of one identity. -/
theorem Edge.Joins.respects {e : Edge} {P : Port → Prop} (h : e.Joins P)
    (hP : ∀ p q, P p → P q → p.id = q.id → p = q) {p : Port} (hp : P p) : e.Respects p := by
  obtain ⟨a, b, ha, hb, hda, hdb, hs, ht⟩ := h
  constructor
  · intro hid
    rw [hP p a hp ha (hid.trans hs)]
    exact hda
  · intro hid
    rw [hP p b hp hb (hid.trans ht)]
    exact hdb

theorem Edge.joins_of_between {a b : Port} {e : Edge} {P : Port → Prop} (ha : P a) (hb : P b)
    (h : Edge.between a b = .ok e) : e.Joins P := by
  unfold Edge.between at h
  split at h
  · rename_i hda hdb
    cases h
    exact ⟨a, b, ha, hb, hda, hdb, rfl, rfl⟩
  · rename_i hda hdb
    cases h
    exact ⟨b, a, hb, ha, hdb, hda, rfl, rfl⟩
  · cases h

theorem Transform.mem_ports_of_solePort {t : Transform} {d : Direction} {p : Port}
    (h : t.solePort d = .ok p) : p ∈ t.ports := by
  unfold solePort at h
  split at h
  · rename_i q hq
    cases h
    exact mem_ports_iff.mpr ⟨d, by rw [hq]; exact List.mem_singleton_self p⟩
  · cases h

theorem Transform.mem_ports_of_portAt {t : Transform} {d : Direction} {i : Nat} {p : Port}
    (h : t.portAt d i = .ok p) : p ∈ t.ports := by
  unfold portAt at h
  split at h
  · rename_i q hq
    cases h
    exact mem_ports_iff.mpr ⟨d, List.mem_of_getElem? hq⟩
  · cases h

theorem Transform.mem_ports_of_port {t : Transform} {name : String} {p : Port}
    (h : t.port name = .ok p) : p ∈ t.ports := by
  unfold port at h
  split at h
  · rename_i q hq
    cases h
    exact List.mem_of_find?_eq_some hq
  · cases h

/-- **A connection joins ports of its two sides.** -/
theorem joins_of_connect {a b : Endpoint} {e : Edge} (h : connect a b = .ok e) :
    e.Joins fun p => p ∈ a.ports ∨ p ∈ b.ports := by
  cases a with
  | port a =>
    cases b with
    | port b =>
      exact Edge.joins_of_between (Or.inl (List.mem_singleton_self a))
        (Or.inr (List.mem_singleton_self b)) h
    | transform t =>
      obtain ⟨p, hp, h⟩ := bind_eq_ok.mp h
      exact Edge.joins_of_between (Or.inr (Transform.mem_ports_of_solePort hp))
        (Or.inl (List.mem_singleton_self a)) h
  | transform t =>
    cases b with
    | port b =>
      obtain ⟨p, hp, h⟩ := bind_eq_ok.mp h
      exact Edge.joins_of_between (Or.inl (Transform.mem_ports_of_solePort hp))
        (Or.inr (List.mem_singleton_self b)) h
    | transform u =>
      obtain ⟨p, hp, h⟩ := bind_eq_ok.mp h
      obtain ⟨q, hq, h⟩ := bind_eq_ok.mp h
      exact Edge.joins_of_between (Or.inl (Transform.mem_ports_of_solePort hp))
        (Or.inr (Transform.mem_ports_of_solePort hq)) h

end Dataflow
