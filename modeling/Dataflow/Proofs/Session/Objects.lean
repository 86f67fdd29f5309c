import Dataflow.Proofs.Graph.Construction
import Dataflow.Proofs.Session.Move

/-!
# Objects side by side

The objects in the variables of a session have numbers in common: a port is reached through its
transform, through handles to that and through the graph, and an edge has the identities of two
ports.  When two objects can stand side by side is a relation between the two alone,
`Object.Compatible`.  A loose port is nowhere else, an open transform is nowhere else, a registered
transform is in one graph only and beside that in handles, and no edge disagrees with a port about
directions.

An object is compatible with those that are there for one of two reasons.  Either its numbers have
just been given out (`Object.compatible_of_from`), or it is made of parts of compatible objects
(`Object.PartsFrom.compatible`).
-/

namespace Dataflow

namespace Object
variable {o o' : Object} {w w' : Workshop}

/-! ## Single objects -/

/-- The object is sound in itself. -/
def Sound : Object → Prop
  | .draft t => t.Sound
  | .handle t => t.Sound
  | .graph g => g.Sound
  | _ => True

/-- The identity is the one of a port or of an end of an edge. -/
def Uses (o : Object) (v : Ident) : Prop :=
  (∃ p ∈ o.ports, p.id = v) ∨ ∃ e ∈ o.edges, e.source = v ∨ e.destination = v

theorem uses_of_hasId {t : Transform} (ht : t ∈ o.transforms) {v : Ident}
    (hv : t.hasId v = true) : o.Uses v := by
  obtain ⟨p, hp, hid⟩ := Transform.hasId_iff.mp hv
  exact Or.inl ⟨p, mem_ports_of_mem ht hp, hid⟩

@[simp] theorem uses_port_iff {p : Port} {v : Ident} : (port p).Uses v ↔ p.id = v := by
  simp [Uses, edges]

@[simp] theorem uses_draft_iff {t : Transform} {v : Ident} :
    (draft t).Uses v ↔ t.hasId v = true := by
  simp [Uses, edges, Transform.hasId_iff]

@[simp] theorem uses_edge_iff {e : Edge} {v : Ident} :
    (edge e).Uses v ↔ e.source = v ∨ e.destination = v := by
  simp [Uses, edges, ports, loosePorts, transforms]

theorem not_uses_constant (c : Constant) (v : Ident) : ¬ (constant c).Uses v := by
  simp [Uses, edges, ports, loosePorts, transforms]

/-- Every number in the object has been given out. -/
structure Below (o : Object) (w : Workshop) : Prop where
  slots : ∀ v, o.Uses v → v.slot < w.nextPort
  serials : ∀ t ∈ o.transforms, t.serial < w.nextSerial

/-- No number in the object had been given out at this moment. -/
structure From (o : Object) (w : Workshop) : Prop where
  slots : ∀ v, o.Uses v → w.nextPort ≤ v.slot
  serials : ∀ t ∈ o.transforms, w.nextSerial ≤ t.serial

theorem Below.mono (h : o.Below w) (hw : w.Precedes w') : o.Below w' where
  slots v hv := Nat.lt_of_lt_of_le (h.slots v hv) hw.nextPort
  serials t ht := Nat.lt_of_lt_of_le (h.serials t ht) hw.nextSerial

/-! ## Two objects -/

/-- A handle may be to a transform that another handle is to, or that a graph has. -/
def mayShare : Object → Object → Bool
  | .handle _, .handle _ => true
  | .handle _, .graph _ => true
  | .graph _, .handle _ => true
  | _, _ => false

theorem mayShare_comm (o o' : Object) : o.mayShare o' = o'.mayShare o := by
  cases o <;> cases o' <;> rfl

/-- Which graph it is does not matter. -/
theorem mayShare_graph (g g' : Graph) (o : Object) :
    (graph g).mayShare o = (graph g').mayShare o := by
  cases o <;> rfl

/-- What the first object has to keep off in the second. -/
structure ApartFrom (o o' : Object) : Prop where
  loose : ∀ p ∈ o.loosePorts, ∀ q ∈ o'.ports, p.id ≠ q.id
  transforms : ∀ t ∈ o.transforms, ∀ u ∈ o'.transforms,
    t.Apart u ∨ (t = u ∧ o.mayShare o' = true)
  edges : ∀ e ∈ o.edges, ∀ q ∈ o'.ports, e.Respects q

/-- **Two objects that two variables can hold at the same time.** -/
def Compatible (o o' : Object) : Prop := o.ApartFrom o' ∧ o'.ApartFrom o

theorem Compatible.symm (h : o.Compatible o') : o'.Compatible o := ⟨h.2, h.1⟩

/-- What may not be shared is apart. -/
theorem Compatible.apart (h : o.Compatible o') (hshare : o.mayShare o' = false) {t u : Transform}
    (ht : t ∈ o.transforms) (hu : u ∈ o'.transforms) : t.Apart u := by
  rcases h.1.transforms t ht u hu with hap | ⟨-, hshare'⟩
  · exact hap
  · rw [hshare] at hshare'
    cases hshare'

/-- Objects without a number in common are apart. -/
theorem apartFrom_of_disjoint (hv : ∀ v, o.Uses v → ¬ o'.Uses v)
    (hs : ∀ t ∈ o.transforms, ∀ u ∈ o'.transforms, t.serial ≠ u.serial) : o.ApartFrom o' where
  loose p hp q hq h :=
    hv q.id (Or.inl ⟨p, mem_ports_iff.mpr (Or.inl hp), h⟩) (Or.inl ⟨q, hq, rfl⟩)
  transforms t ht u hu :=
    Or.inl ⟨hs t ht u hu, fun v htv huv => hv v (uses_of_hasId ht htv) (uses_of_hasId hu huv)⟩
  edges e he q hq := by
    constructor
    · intro h
      exact absurd (Or.inl ⟨q, hq, rfl⟩) (hv q.id (Or.inr ⟨e, he, Or.inl h.symm⟩))
    · intro h
      exact absurd (Or.inl ⟨q, hq, rfl⟩) (hv q.id (Or.inr ⟨e, he, Or.inr h.symm⟩))

/-- **What is new is compatible with everything that is there.** -/
theorem compatible_of_from (h : o.From w) (h' : o'.Below w) : o.Compatible o' := by
  have hv : ∀ v, o.Uses v → ¬ o'.Uses v := by
    intro v hv hv'
    have hlo := h.slots v hv
    have hhi := h'.slots v hv'
    omega
  have hs : ∀ t ∈ o.transforms, ∀ u ∈ o'.transforms, t.serial ≠ u.serial := by
    intro t ht u hu
    have hlo := h.serials t ht
    have hhi := h'.serials u hu
    omega
  exact ⟨apartFrom_of_disjoint hv hs,
    apartFrom_of_disjoint (fun v hv' hv₀ => hv v hv₀ hv') fun u hu t ht => (hs t ht u hu).symm⟩

/-- The object is made of parts of the others; a transform that it may not share with `o'` could
not be shared before. -/
structure PartsFrom (o : Object) (os : List Object) (o' : Object) : Prop where
  loose : ∀ p ∈ o.loosePorts, ∃ a ∈ os, p ∈ a.loosePorts
  transforms : ∀ t ∈ o.transforms, ∃ a ∈ os, t ∈ a.transforms ∧
    (a.mayShare o' = true → o.mayShare o' = true)
  edges : ∀ e ∈ o.edges, ∃ a ∈ os, ∃ e' ∈ a.edges,
    e.source = e'.source ∧ e.destination = e'.destination

section PartsFrom
variable {os : List Object} (h : o.PartsFrom os o')
include h

theorem PartsFrom.mem_ports {p : Port} (hp : p ∈ o.ports) : ∃ a ∈ os, p ∈ a.ports := by
  rcases mem_ports_iff.mp hp with hp | ⟨t, ht, hp⟩
  · obtain ⟨a, ha, hpa⟩ := h.loose p hp
    exact ⟨a, ha, mem_ports_iff.mpr (Or.inl hpa)⟩
  · obtain ⟨a, ha, hta, -⟩ := h.transforms t ht
    exact ⟨a, ha, mem_ports_of_mem hta hp⟩

/-- What is made of parts uses no new number. -/
theorem PartsFrom.below (hos : ∀ a ∈ os, a.Below w) : o.Below w where
  slots := by
    rintro v (⟨p, hp, hv⟩ | ⟨e, he, hv⟩)
    · obtain ⟨a, ha, hpa⟩ := h.mem_ports hp
      exact (hos a ha).slots v (Or.inl ⟨p, hpa, hv⟩)
    · obtain ⟨a, ha, e', he', hsrc, hdst⟩ := h.edges e he
      rw [hsrc, hdst] at hv
      exact (hos a ha).slots v (Or.inr ⟨e', he', hv⟩)
  serials := by
    intro t ht
    obtain ⟨a, ha, hta, -⟩ := h.transforms t ht
    exact (hos a ha).serials t hta

/-- **What is made of compatible parts is compatible.** -/
theorem PartsFrom.compatible (hos : ∀ a ∈ os, a.Compatible o') : o.Compatible o' := by
  refine ⟨⟨?_, ?_, ?_⟩, ⟨?_, ?_, ?_⟩⟩
  · intro p hp q hq
    obtain ⟨a, ha, hpa⟩ := h.loose p hp
    exact (hos a ha).1.loose p hpa q hq
  · intro t ht u hu
    obtain ⟨a, ha, hta, hshare⟩ := h.transforms t ht
    exact ((hos a ha).1.transforms t hta u hu).imp id fun hs => ⟨hs.1, hshare hs.2⟩
  · intro e he q hq
    obtain ⟨a, ha, e', he', hsrc, hdst⟩ := h.edges e he
    have hres := (hos a ha).1.edges e' he' q hq
    exact ⟨fun hid => hres.1 (hid.trans hsrc), fun hid => hres.2 (hid.trans hdst)⟩
  · intro q hq p hp
    obtain ⟨a, ha, hpa⟩ := h.mem_ports hp
    exact (hos a ha).2.loose q hq p hpa
  · intro u hu t ht
    obtain ⟨a, ha, hta, hshare⟩ := h.transforms t ht
    refine ((hos a ha).2.transforms u hu t hta).imp id fun hs => ⟨hs.1, ?_⟩
    rw [mayShare_comm]
    exact hshare (by rw [mayShare_comm]; exact hs.2)
  · intro e he p hp
    obtain ⟨a, ha, hpa⟩ := h.mem_ports hp
    exact (hos a ha).2.edges e he p hpa

end PartsFrom

/-- Edges alone have no ports to be mistaken about. -/
theorem compatible_edge_edge (e e' : Edge) : (edge e).Compatible (edge e') := by
  have hap : ∀ a b : Edge, (edge a).ApartFrom (edge b) := by
    intro a b
    refine ⟨?_, ?_, ?_⟩
    · intro _ hp
      cases hp
    · intro _ ht
      cases ht
    · intro _ _ _ hq
      cases hq
  exact ⟨hap e e', hap e' e⟩

/-- A handle is a part of a graph. -/
theorem partsFrom_handle {g : Graph} {t : Transform} (ht : t ∈ g.transforms) (o' : Object) :
    (handle t).PartsFrom [.graph g] o' := by
  refine ⟨?_, ?_, ?_⟩
  · intro p hnil
    cases hnil
  · intro u hu
    rw [List.mem_singleton.mp hu]
    refine ⟨.graph g, List.mem_singleton_self _, ht, ?_⟩
    -- a graph shares with handles only, and a handle does too
    cases o' with
    | handle => exact fun _ => rfl
    | _ => exact fun h => nomatch h
  · intro e hnil
    cases hnil

theorem partsFrom_appendTransform (g : Graph) (t : Transform) (o' : Object) :
    (graph (g.appendTransform t)).PartsFrom [.graph g, .draft t] o' := by
  refine ⟨?_, ?_, ?_⟩
  · intro p hnil
    cases hnil
  · intro u hu
    rcases List.mem_append.mp hu with hold | hnew
    · exact ⟨.graph g, by simp, hold, fun h => mayShare_graph g _ o' ▸ h⟩
    · exact ⟨.draft t, by simp, hnew, fun hshare => nomatch hshare⟩
  · intro e he
    exact ⟨.graph g, by simp, e, he, rfl, rfl⟩

theorem partsFrom_appendEdge (g : Graph) (e : Edge) (o' : Object) :
    (graph (g.appendEdge e)).PartsFrom [.graph g, .edge e] o' := by
  refine ⟨?_, ?_, ?_⟩
  · intro p hnil
    cases hnil
  · intro u hu
    exact ⟨.graph g, by simp, hu, fun h => mayShare_graph g _ o' ▸ h⟩
  · intro e' he'
    rcases List.mem_append.mp he' with hold | hnew
    · exact ⟨.graph g, by simp, e', hold, rfl, rfl⟩
    · exact ⟨.edge e, by simp, e', hnew, rfl, rfl⟩

/-- A handle is compatible with the graph that it leads into, though no graph is with itself. -/
theorem compatible_handle_graph {g : Graph} (hg : g.Sound) {t : Transform}
    (ht : t ∈ g.transforms) : (handle t).Compatible (graph g) := by
  have hsame : ∀ u ∈ (handle t).transforms, u = t := fun u hu => List.mem_singleton.mp hu
  refine ⟨⟨?_, ?_, ?_⟩, ⟨?_, ?_, ?_⟩⟩
  · intro p hnil
    cases hnil
  · intro u hu v hv
    rw [hsame u hu]
    exact (hg.eq_or_apart ht hv).symm.imp id fun h => ⟨h, rfl⟩
  · intro e hnil
    cases hnil
  · intro p hnil
    cases hnil
  · intro v hv u hu
    rw [hsame u hu]
    exact (hg.eq_or_apart hv ht).symm.imp id fun h => ⟨h, rfl⟩
  · intro e he p hp
    rw [ports_handle] at hp
    exact hg.respects he ⟨t, ht, hp⟩

/-! ### Open transforms that grow -/

section Grow
variable {t t' : Transform} {ps : List Port} (hs : t'.serial = t.serial)
  (hp : ∀ r ∈ t'.ports, r ∈ t.ports ∨ r ∈ ps) (h : (draft t).Compatible o')
  (hps : ∀ p ∈ ps, (port p).Compatible o')
include hs hp h hps

theorem Compatible.apart_grow {u : Transform} (hu : u ∈ o'.transforms) : t'.Apart u := by
  have hap : t.Apart u := h.apart rfl (List.mem_singleton_self t) hu
  refine ⟨hs ▸ hap.serial, fun v hv huv => ?_⟩
  obtain ⟨r, hr, rfl⟩ := Transform.hasId_iff.mp hv
  rcases hp r hr with hold | hnew
  · exact hap.ids r.id (Transform.hasId_of_mem hold) huv
  · obtain ⟨q, hq, hid⟩ := Transform.hasId_iff.mp huv
    exact (hps r hnew).1.loose r (List.mem_singleton_self r) q (mem_ports_of_mem hu hq) hid.symm

/-- An open transform that has grown, if at all, by compatible ports is compatible. -/
theorem Compatible.draft_grow : (draft t').Compatible o' := by
  have hports : ∀ r ∈ (draft t').ports, r ∈ (draft t).ports ∨ r ∈ ps := by
    intro r hr
    rw [ports_draft] at hr ⊢
    exact hp r hr
  refine ⟨⟨?_, ?_, ?_⟩, ⟨?_, ?_, ?_⟩⟩
  · intro p hnil
    cases hnil
  · intro u hu u' hu'
    rw [List.mem_singleton.mp hu]
    exact Or.inl (Compatible.apart_grow hs hp h hps hu')
  · intro e hnil
    cases hnil
  · intro q hq r hr
    rcases hports r hr with hold | hnew
    · exact h.2.loose q hq r hold
    · exact (hps r hnew).2.loose q hq r (List.mem_singleton_self r)
  · intro u hu u' hu'
    rw [List.mem_singleton.mp hu']
    exact Or.inl (Compatible.apart_grow hs hp h hps hu).symm
  · intro e he r hr
    rcases hports r hr with hold | hnew
    · exact h.2.edges e he r hold
    · exact (hps r hnew).2.edges e he r (List.mem_singleton_self r)

end Grow

end Object

end Dataflow
