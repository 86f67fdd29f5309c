import Dataflow.Proofs.Session.Ordinary

/-!
# The graphs of ordinary runs

A graph keeps its transforms twice over: as a list, and in two tables that make lookups direct.
Here is what the invariant of sessions means for one graph, in words that do not mention the
session.  In every state of an ordinary run, every graph is well kept and passes its own check
(`Session.graph_wellKept`), and its lookups find what a scan of the list would find
(`Session.graph_findsByScan`).
-/

namespace Dataflow

namespace Graph
variable {g : Graph}

/-! ## What a graph keeps -/

/-- **A graph as registration keeps it.**  Both tables lead exactly from what the transforms have to
the slots of these, every transform is in order, and every edge runs from a registered output to a
registered input. -/
structure WellKept (g : Graph) : Prop where
  names : (g.transforms.map (·.name)).Nodup
  slots : ∀ name k, g.slots.get? name = some k ↔
    ∃ t, g.transforms[k.slot]? = some t ∧ t.name = name
  parents : ∀ v k, g.parents.get? v = some k ↔
    ∃ t, g.transforms[k.slot]? = some t ∧ ∃ p ∈ t.ports, p.id = v
  size : g.parents.size = (g.transforms.flatMap Transform.ports).length
  inOrder : ∀ t ∈ g.transforms, t.InOrder
  edges : ∀ e ∈ g.edges, g.OwnsPort .output e.source ∧ g.OwnsPort .input e.destination

section Sound
variable (hg : g.Sound) (hl : g.transforms.length ≤ 4294967295)
include hg hl

theorem Sound.wellKept : g.WellKept where
  names := hg.names
  slots := by
    intro name k
    simpa only [decide_eq_true_eq] using (Table.indexes_iff hl).mp hg.slots name k
  parents := by
    intro v k
    simpa only [Transform.hasId_iff] using (Table.indexes_iff hl).mp hg.parents v k
  size := hg.size.trans (ParentIndex.portCount_eq_length g.transforms)
  inOrder t ht := (hg.transforms t ht).toInOrder
  edges := hg.edges

/-- **A sound graph passes its own check**, as a whole and in each part. -/
theorem Sound.validate_eq_ok : g.validate = .ok () ∧ g.validateTransforms = .ok () ∧
    g.validateParents = .ok () ∧ g.validateEdges = .ok () := by
  have hkept := hg.wellKept hl
  have hids : ∀ t ∈ g.transforms, (t.ports.map (·.id)).Nodup := fun t ht => (hg.transforms t ht).ids
  have hcons : g.Consistent :=
    ⟨hg.names, (Table.indexes_iff hl).mp hg.parents, hg.edges⟩
  have hall := (validate_eq_ok_iff hkept.inOrder hl hids).mpr hcons
  obtain ⟨ht, hrest⟩ := andThen_eq_ok_iff.mp hall
  obtain ⟨hp, he⟩ := andThen_eq_ok_iff.mp hrest
  exact ⟨hall, ht, hp, he⟩

end Sound

/-! ## What a graph finds -/

/-- **A graph whose lookups find what a scan of its transforms would find.** -/
structure FindsByScan (g : Graph) : Prop where
  ownerOfId : ∀ v t, g.ownerOfId v = .ok t ↔ t ∈ g.transforms ∧ t.hasId v = true
  owner_unique : ∀ v (i j : Nat) t u, g.transforms[i]? = some t → t.hasId v = true →
    g.transforms[j]? = some u → u.hasId v = true → i = j
  ownerOfId_missing : ∀ v, (∀ t ∈ g.transforms, t.hasId v = false) →
    g.ownerOfId v = .error (.notFound (.ownerOfIdent v))
  port : ∀ v p, g.port? v = some p ↔ (∃ t ∈ g.transforms, p ∈ t.ports) ∧ p.id = v
  transform : ∀ name t, g.transform? name = some t ↔ t ∈ g.transforms ∧ t.name = name
  addEdge : ∀ e, (g.addEdge e).result = .ok () ↔
    (∃ t ∈ g.transforms, t.hasId e.source = true) ∧
      ∃ t ∈ g.transforms, t.hasId e.destination = true
  addEdge_source : ∀ e, (∀ t ∈ g.transforms, t.hasId e.source = false) →
    (g.addEdge e).result = .error (.danglingReference .source e.source g.name)
  addEdge_destination : ∀ e, (∃ t ∈ g.transforms, t.hasId e.source = true) →
    (∀ t ∈ g.transforms, t.hasId e.destination = false) →
      (g.addEdge e).result = .error (.danglingReference .destination e.destination g.name)

theorem Sound.findsByScan (hg : g.Sound) (hl : g.transforms.length ≤ 4294967295) :
    g.FindsByScan := by
  have howner : ∀ v t, g.owner? v = some t ↔ t ∈ g.transforms ∧ t.hasId v = true :=
    fun v t => owner?_eq_some_iff hg.parents hl
  have hfree : ∀ {v}, (∀ t ∈ g.transforms, t.hasId v = false) → ¬ g.Owns v := by
    rintro v hfree ⟨t, ht, hv⟩
    exact absurd hv (Bool.eq_false_iff.mp (hfree t ht))
  -- the lookups by identity go through the parent index, the one by name through the other table
  refine ⟨?_, ?_, ?_, ?_, ?_, ?_, ?_, ?_⟩
  · intro v t
    rw [ownerOfId_eq_ok_iff, howner]
  · intro v i j t u hi hv hj hv'
    exact hg.parents.place_unique hl hi hj hv hv'
  · intro v hv
    refine ownerOfId_of_owner?_eq_none ?_
    rw [Option.eq_none_iff_forall_ne_some]
    intro t ht
    exact hfree hv ⟨t, (howner v t).mp ht⟩
  · intro v p
    rw [port?_eq_some_iff hg.parents hl fun t ht => (hg.transforms t ht).ids]
    exact ⟨fun ⟨t, ht, hp, hv⟩ => ⟨⟨t, ht, hp⟩, hv⟩, fun ⟨⟨t, ht, hp⟩, hv⟩ => ⟨t, ht, hp, hv⟩⟩
  · intro name t
    exact transform?_eq_some_iff hg.slots hl
  · intro e
    exact addEdge_eq_ok_iff hg.parents
  · intro e hs
    exact (addEdge_result hg.parents e).2.1 (hfree hs)
  · intro e hs hd
    exact (addEdge_result hg.parents e).2.2 hs (hfree hd)

end Graph

namespace Session

/-- A run that registers a reader and a writer and an edge from the one to the other. -/
def pipeline : List Step :=
  [.createTransform "reader" ⟨"read", true, false, [], [("rows", ⟨"Table"⟩)], []⟩,
   .createTransform "writer" ⟨"write", false, true, [("rows", ⟨"Table"⟩)], [], []⟩,
   .createGraph "graph" none,
   .addTransform "graph" "reader",
   .addTransform "graph" "writer",
   .connect "edge" (.whole "reader") (.whole "writer") none,
   .addEdge "graph" "edge"]

theorem ordinary_pipeline : Ordinary 0 pipeline := ⟨by decide, by decide +kernel⟩

theorem holds_pipeline : ∃ g : Graph, ((start 0).run pipeline).1.Holds "graph" (.graph g) ∧
    g.transforms.length = 2 ∧ g.edges.length = 1 := ⟨_, rfl, rfl, rfl⟩

/-- **The graphs of ordinary runs are well kept** and pass their own check, as a whole and in each
part. -/
theorem graph_wellKept {n : Nat} {steps : List Step} (h : Ordinary n steps) {x : String} {g : Graph}
    (hx : ((start n).run steps).1.Holds x (.graph g)) (hl : g.transforms.length ≤ 4294967295) :
    g.WellKept ∧ g.validate = .ok () ∧ g.validateTransforms = .ok () ∧
      g.validateParents = .ok () ∧ g.validateEdges = .ok () := by
  have hg : g.Sound := h.sound.object x _ hx
  exact ⟨hg.wellKept hl, hg.validate_eq_ok hl⟩

theorem graph_wellKept_pipeline : ∃ g : Graph,
    ((start 0).run pipeline).1.Holds "graph" (.graph g) ∧ g.edges.length = 1 ∧ g.WellKept ∧
      g.validate = .ok () := by
  obtain ⟨g, hx, hl, he⟩ := holds_pipeline
  obtain ⟨hkept, hok, -⟩ := graph_wellKept ordinary_pipeline hx (by omega)
  exact ⟨g, hx, he, hkept, hok⟩

/-- **The lookups of the graphs of ordinary runs find what a scan would find.** -/
theorem graph_findsByScan {n : Nat} {steps : List Step} (h : Ordinary n steps) {x : String}
    {g : Graph} (hx : ((start n).run steps).1.Holds x (.graph g))
    (hl : g.transforms.length ≤ 4294967295) : g.FindsByScan := by
  have hg : g.Sound := h.sound.object x _ hx
  exact hg.findsByScan hl

theorem graph_findsByScan_pipeline : ∃ g : Graph,
    ((start 0).run pipeline).1.Holds "graph" (.graph g) ∧ g.transforms.length = 2 ∧
      g.FindsByScan := by
  obtain ⟨g, hx, hl, -⟩ := holds_pipeline
  exact ⟨g, hx, hl, graph_findsByScan ordinary_pipeline hx (by omega)⟩

end Session

end Dataflow
