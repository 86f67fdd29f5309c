import Dataflow.Proofs.Graph.Validation
import Mathlib.Data.List.Induction

/-!
# Which violation the check of a graph reports

A graph can be broken in many ways at once.  The check reports one violation, and which one it is does
not depend on how the check is carried out: it is the first breach of the first rule that is broken, in
the order of the lists (`Graph.Verdict`).  The rules come in this order: no name comes twice, the index
leads from every port to the slot of its owner, the index has as many entries as there are ports, and
every edge runs from a registered output to a registered input.

Each walk of the check stops where it fails.  So it fails as its first entry that fails does
(`forM_of_split`), and the walks over the ports and over the edges are such walks over a single list
(`ParentIndex.checkOwners_eq_forM`, `Graph.checkEdgeList_eq_forM`).  The walk over the names remembers
what it has seen, and is treated on its own (`checkTransforms_of_firstRepeat`).
-/

namespace Dataflow

/-! ## The first breach of a rule -/

section FirstBreach
variable {α : Type} {fine : α → Prop} {l before : List α} {a : α}

/-- **The first entry of a list that is not fine**, and the entries before it. -/
structure FirstBreach (fine : α → Prop) (l before : List α) (a : α) : Prop where
  split : ∃ after, l = before ++ a :: after
  earlier : ∀ b ∈ before, fine b
  breach : ¬ fine a

theorem forall_or_firstBreach (fine : α → Prop) (l : List α) :
    (∀ a ∈ l, fine a) ∨ ∃ before a, FirstBreach fine l before a := by
  induction l with
  | nil => exact Or.inl nofun
  | cons b rest ih =>
    by_cases hb : fine b
    · rcases ih with hrest | ⟨before, a, ⟨after, rfl⟩, hbefore, ha⟩
      · exact Or.inl (List.forall_mem_cons.mpr ⟨hb, hrest⟩)
      · exact Or.inr ⟨b :: before, a, ⟨after, rfl⟩, List.forall_mem_cons.mpr ⟨hb, hbefore⟩, ha⟩
    · exact Or.inr ⟨[], b, ⟨rest, rfl⟩, nofun, hb⟩

/-- **A walk fails as its first entry that fails does.** -/
theorem forM_of_split {check : α → Except Error Unit} {e : Error} {after : List α}
    (hbefore : ∀ b ∈ before, check b = .ok ()) (ha : check a = .error e) :
    forM (before ++ a :: after) check = .error e := by
  induction before with
  | nil =>
    rw [List.nil_append, List.forM_cons, ha]
    rfl
  | cons b rest ih =>
    obtain ⟨hb, hrest⟩ := List.forall_mem_cons.mp hbefore
    rw [List.cons_append, List.forM_cons, hb]
    exact ih hrest

end FirstBreach

/-! ## Names -/

/-- **The first transform whose name came before**, and the transforms before it. -/
structure FirstRepeat (transforms before : List Transform) (t : Transform) : Prop where
  split : ∃ after, transforms = before ++ t :: after
  earlier : (before.map (·.name)).Nodup
  repeated : t.name ∈ before.map (·.name)

theorem nodup_or_firstRepeat (transforms : List Transform) :
    (transforms.map (·.name)).Nodup ∨ ∃ before t, FirstRepeat transforms before t := by
  induction transforms using List.reverseRecOn with
  | nil => exact Or.inl List.nodup_nil
  | append_singleton rest t ih =>
    rcases ih with hrest | ⟨before, u, ⟨after, rfl⟩, hbefore, hu⟩
    · by_cases ht : t.name ∈ rest.map (·.name)
      · exact Or.inr ⟨rest, t, ⟨[], rfl⟩, hrest, ht⟩
      · left
        rw [List.map_append, List.map_singleton, ← List.concat_eq_append]
        exact hrest.concat ht
    · exact Or.inr ⟨before, u, ⟨after ++ [t], by simp⟩, hbefore, hu⟩

/-- The walk goes on behind transforms in which it finds nothing. -/
theorem checkTransforms_append {seen : List String} {before rest : List Transform}
    (hbefore : checkTransforms seen before = .ok ()) :
    checkTransforms seen (before ++ rest) =
      checkTransforms ((before.map Transform.name).reverse ++ seen) rest := by
  induction before generalizing seen with
  | nil => rfl
  | cons t before ih =>
    rw [checkTransforms, andThen_eq_ok_iff, andThen_eq_ok_iff] at hbefore
    obtain ⟨hname, ht, hbefore⟩ := hbefore
    rw [List.cons_append, checkTransforms, hname, ht]
    exact (ih hbefore).trans (by simp)

/-- **The check of names reports the first name that came before.** -/
theorem checkTransforms_of_firstRepeat {transforms before : List Transform} {t : Transform}
    (hord : ∀ u ∈ transforms, u.InOrder) (h : FirstRepeat transforms before t) :
    checkTransforms [] transforms = .error (.duplicateName t.name .listed) := by
  obtain ⟨⟨after, rfl⟩, hnames, ht⟩ := h
  have hbefore : checkTransforms [] before = .ok () :=
    checkTransforms_eq_ok_iff.mpr
      ⟨fun u hu => hord u (List.mem_append_left _ hu), hnames, fun _ _ => List.not_mem_nil⟩
  have hseen : ((before.map Transform.name).reverse ++ []).contains t.name = true := by simpa using ht
  rw [checkTransforms_append hbefore, checkTransforms, hseen]
  rfl

/-! ## Ports -/

/-- A port with its owner and the slot of the owner. -/
structure PortEntry where
  slot : Nat
  owner : Transform
  port : Port

/-- The ports of the transforms, the first of which is in the slot `start`: the ports of one transform
after those of another one, and its inputs before its outputs. -/
def portEntries (start : Nat) (transforms : List Transform) : List PortEntry :=
  (transforms.zipIdx start).flatMap fun (t, slot) => t.ports.map fun p => ⟨slot, t, p⟩

theorem length_portEntries (start : Nat) (transforms : List Transform) :
    (portEntries start transforms).length = ParentIndex.portCount transforms := by
  induction transforms generalizing start with
  | nil => rfl
  | cons t rest ih =>
    rw [ParentIndex.portCount, ← ih (start + 1)]
    simp [portEntries]

theorem slot_lt_of_mem_portEntries {start : Nat} {transforms : List Transform} {q : PortEntry}
    (hq : q ∈ portEntries start transforms) : q.slot < start + transforms.length := by
  obtain ⟨⟨t, slot⟩, hm, hq⟩ := List.mem_flatMap.mp hq
  obtain ⟨p, -, rfl⟩ := List.mem_map.mp hq
  obtain ⟨-, hlt, -⟩ := List.mem_zipIdx hm
  exact hlt

namespace ParentIndex

/-- The check of one port. -/
def checkEntry (index : ParentIndex) (q : PortEntry) : Except Error Unit :=
  require (index.get? q.port.id = some (Ident.ofCounter q.slot))
    (.invariant (.unindexedPort q.owner.name q.port.name))

theorem checkPorts_eq_forM (index : ParentIndex) (slot : Nat) (t : Transform) (ports : List Port) :
    index.checkPorts (Ident.ofCounter slot) t ports =
      forM (ports.map (PortEntry.mk slot t)) index.checkEntry := by
  induction ports with
  | nil => rfl
  | cons p rest ih =>
    rw [checkPorts, ih]
    rfl

/-- **The check of the index is a walk over all ports.** -/
theorem checkOwners_eq_forM (index : ParentIndex) (start : Nat) (transforms : List Transform) :
    index.checkOwners start transforms = forM (portEntries start transforms) index.checkEntry := by
  induction transforms generalizing start with
  | nil => rfl
  | cons t rest ih =>
    rw [checkOwners, ih, checkPorts_eq_forM, ← List.forM_append]
    rfl

end ParentIndex

namespace Graph
variable {g : Graph}

/-- The index leads from the port to the slot of its owner. -/
def Indexed (g : Graph) (q : PortEntry) : Prop :=
  (g.parents.get? q.port.id).map (·.slot) = some q.slot

/-- The ports of the graph, in the order of its transforms. -/
def ports (g : Graph) : List PortEntry := portEntries 0 g.transforms

theorem indexed_iff {q : PortEntry} (hq : q.slot < 4294967295) :
    g.Indexed q ↔ g.parents.get? q.port.id = some (Ident.ofCounter q.slot) := by
  unfold Indexed
  constructor
  · intro h
    obtain ⟨k, hk, hslot⟩ := Option.map_eq_some_iff.mp h
    rw [hk, ← hslot, Ident.ofCounter_slot]
  · intro h
    rw [h, Option.map_some, Ident.slot_ofCounter_of_lt hq]

theorem checkEntry_of_indexed {q : PortEntry} (hq : q.slot < 4294967295) (h : g.Indexed q) :
    g.parents.checkEntry q = .ok () :=
  require_eq_ok_iff.mpr (decide_eq_true ((indexed_iff hq).mp h))

theorem checkEntry_of_not_indexed {q : PortEntry} (hq : q.slot < 4294967295) (h : ¬ g.Indexed q) :
    g.parents.checkEntry q = .error (.invariant (.unindexedPort q.owner.name q.port.name)) := by
  unfold ParentIndex.checkEntry
  rw [decide_eq_false fun heq => h ((indexed_iff hq).mpr heq)]
  rfl

section Owners
variable (hl : g.transforms.length ≤ 4294967295)
include hl

theorem slot_lt_of_mem_ports {q : PortEntry} (hq : q ∈ g.ports) : q.slot < 4294967295 := by
  have hlt := slot_lt_of_mem_portEntries hq
  omega

/-- The check of the ports finds nothing if the index leads from each of them to its owner. -/
theorem checkOwners_of_forall (h : ∀ q ∈ g.ports, g.Indexed q) :
    g.parents.checkOwners 0 g.transforms = .ok () := by
  refine ParentIndex.checkOwners_eq_ok_iff.mpr fun i t hi p hp => ?_
  have hmem : ⟨i, t, p⟩ ∈ g.ports :=
    List.mem_flatMap.mpr ⟨(t, i), List.mk_mem_zipIdx_iff_getElem?.mpr hi, List.mem_map_of_mem hp⟩
  rw [Nat.zero_add]
  exact (indexed_iff (slot_lt_of_mem_ports hl hmem)).mp (h _ hmem)

/-- **The check of the ports reports the first one that the index misses.** -/
theorem checkOwners_of_firstBreach {before : List PortEntry} {q : PortEntry}
    (h : FirstBreach g.Indexed g.ports before q) : g.parents.checkOwners 0 g.transforms =
      .error (.invariant (.unindexedPort q.owner.name q.port.name)) := by
  obtain ⟨⟨after, hsplit⟩, hbefore, hq⟩ := h
  have hlt : ∀ r ∈ before ++ q :: after, r.slot < 4294967295 :=
    fun r hr => slot_lt_of_mem_ports hl (hsplit ▸ hr)
  rw [ParentIndex.checkOwners_eq_forM, ← ports, hsplit]
  refine forM_of_split (fun r hr => ?_) (checkEntry_of_not_indexed (hlt q (by simp)) hq)
  exact checkEntry_of_indexed (hlt r (List.mem_append_left _ hr)) (hbefore r hr)

end Owners

/-! ## Edges -/

/-- The edge runs from an output to an input, both found through the index. -/
def Fine (g : Graph) (e : Edge) : Prop :=
  (∃ p, g.port? e.source = some p ∧ p.direction = .output) ∧
    ∃ p, g.port? e.destination = some p ∧ p.direction = .input

/-- **The check of the edges is a walk over the edges and their positions.** -/
theorem checkEdgeList_eq_forM (g : Graph) (position : Nat) (edges : List Edge) :
    g.checkEdgeList position edges =
      forM (edges.zipIdx position) fun (e, position) => g.checkEdge position e := by
  induction edges generalizing position with
  | nil => rfl
  | cons e rest ih =>
    rw [checkEdgeList, ih]
    rfl

/-- **The check of the edges reports what is wrong with the first edge that is not fine.** -/
theorem validateEdges_of_firstBreach {before : List Edge} {e : Edge} {err : Error}
    (h : FirstBreach g.Fine g.edges before e)
    (herr : g.checkEdge before.length e = .error err) : g.validateEdges = .error err := by
  obtain ⟨⟨after, hsplit⟩, hbefore, -⟩ := h
  rw [validateEdges, checkEdgeList_eq_forM, hsplit, List.zipIdx_append, List.zipIdx_cons,
    Nat.zero_add]
  refine forM_of_split (fun q hq => ?_) herr
  exact checkEdge_eq_ok_iff.mpr (hbefore q.1 (List.fst_mem_of_mem_zipIdx hq))

/-! ## The verdict -/

/-- The rules on names and on the index are kept. -/
structure InStep (g : Graph) : Prop where
  names : (g.transforms.map (·.name)).Nodup
  ports : ∀ q ∈ g.ports, g.Indexed q
  size : g.parents.size = g.ports.length

/-- **What there is to say about a graph**: the first breach of the first rule that is broken, or
nothing if no rule is broken. -/
inductive Verdict (g : Graph) : Except Error Unit → Prop
  | repeatedName {before : List Transform} {t : Transform} (h : FirstRepeat g.transforms before t) :
      Verdict g (.error (.duplicateName t.name .listed))
  | unindexedPort {before : List PortEntry} {q : PortEntry}
      (hnames : (g.transforms.map (·.name)).Nodup) (h : FirstBreach g.Indexed g.ports before q) :
      Verdict g (.error (.invariant (.unindexedPort q.owner.name q.port.name)))
  | indexSize (hnames : (g.transforms.map (·.name)).Nodup) (hports : ∀ q ∈ g.ports, g.Indexed q)
      (h : g.parents.size ≠ g.ports.length) :
      Verdict g (.error (.invariant (.indexSize g.parents.size g.ports.length)))
  | source {before : List Edge} {e : Edge} (hstep : g.InStep)
      (h : FirstBreach g.Fine g.edges before e) (hs : g.port? e.source = none) :
      Verdict g (.error (.danglingReference .source e.source g.name))
  | destination {before : List Edge} {e : Edge} {p : Port} (hstep : g.InStep)
      (h : FirstBreach g.Fine g.edges before e) (hs : g.port? e.source = some p)
      (hd : g.port? e.destination = none) :
      Verdict g (.error (.danglingReference .destination e.destination g.name))
  | direction {before : List Edge} {e : Edge} {p q : Port} (hstep : g.InStep)
      (h : FirstBreach g.Fine g.edges before e) (hs : g.port? e.source = some p)
      (hd : g.port? e.destination = some q) (hpq : p.direction ≠ .output ∨ q.direction ≠ .input) :
      Verdict g (.error (.invariant (.edgeDirection before.length)))
  | fine (hstep : g.InStep) (hedges : ∀ e ∈ g.edges, g.Fine e) : Verdict g (.ok ())

/-- There is something to say about an edge that is not fine. -/
theorem exists_verdict_of_firstBreach (hstep : g.InStep) {before : List Edge} {e : Edge}
    (h : FirstBreach g.Fine g.edges before e) : ∃ r, g.Verdict r := by
  cases hs : g.port? e.source with
  | none => exact ⟨_, .source hstep h hs⟩
  | some p =>
    cases hd : g.port? e.destination with
    | none => exact ⟨_, .destination hstep h hs hd⟩
    | some q =>
      refine ⟨_, .direction hstep h hs hd ?_⟩
      rw [← not_and_or]
      exact fun ⟨hp, hq⟩ => h.breach ⟨⟨p, hs, hp⟩, q, hd, hq⟩

/-- There is something to say about every graph. -/
theorem exists_verdict (g : Graph) : ∃ r, g.Verdict r := by
  rcases nodup_or_firstRepeat g.transforms with hnames | ⟨before, t, h⟩
  · rcases forall_or_firstBreach g.Indexed g.ports with hports | ⟨before, q, h⟩
    · by_cases hsize : g.parents.size = g.ports.length
      · have hstep : g.InStep := ⟨hnames, hports, hsize⟩
        rcases forall_or_firstBreach g.Fine g.edges with hedges | ⟨before, e, h⟩
        · exact ⟨_, .fine hstep hedges⟩
        · exact exists_verdict_of_firstBreach hstep h
      · exact ⟨_, .indexSize hnames hports hsize⟩
    · exact ⟨_, .unindexedPort hnames h⟩
  · exact ⟨_, .repeatedName h⟩

section Verdict
variable {r : Except Error Unit} (hord : ∀ t ∈ g.transforms, t.InOrder)
  (hl : g.transforms.length ≤ 4294967295)
include hord

theorem validateTransforms_of_nodup (hnames : (g.transforms.map (·.name)).Nodup) :
    g.validateTransforms = .ok () :=
  checkTransforms_eq_ok_iff.mpr ⟨hord, hnames, fun _ _ => List.not_mem_nil⟩

include hl

/-- In a graph whose index is in step, the check depends on the edges alone. -/
theorem InStep.validate_eq (h : g.InStep) : g.validate = g.validateEdges := by
  have hsize : g.parents.size = ParentIndex.portCount g.transforms :=
    h.size.trans (length_portEntries 0 g.transforms)
  have hindex : g.validateParents = .ok () := by
    unfold validateParents ParentIndex.check
    exact andThen_eq_ok_iff.mpr
      ⟨checkOwners_of_forall hl h.ports, require_eq_ok_iff.mpr (decide_eq_true hsize)⟩
  unfold validate
  rw [validateTransforms_of_nodup hord h.names, hindex]
  rfl

/-- The check of a graph comes to the verdict. -/
theorem Verdict.validate_eq (h : g.Verdict r) : g.validate = r := by
  -- in each case the rules before the broken one are kept, so their checks find nothing
  cases h with
  | repeatedName h =>
    unfold validate validateTransforms
    rw [checkTransforms_of_firstRepeat hord h]
    rfl
  | unindexedPort hnames h =>
    unfold validate validateParents ParentIndex.check
    rw [validateTransforms_of_nodup hord hnames, checkOwners_of_firstBreach hl h]
    rfl
  | indexSize hnames hports h =>
    rw [ports, length_portEntries] at h ⊢
    unfold validate validateParents ParentIndex.check
    rw [validateTransforms_of_nodup hord hnames, checkOwners_of_forall hl hports, decide_eq_false h]
    rfl
  | source hstep h hs =>
    rw [hstep.validate_eq hord hl]
    refine validateEdges_of_firstBreach h ?_
    simp only [checkEdge, portAtEnd, hs]
    rfl
  | destination hstep h hs hd =>
    rw [hstep.validate_eq hord hl]
    refine validateEdges_of_firstBreach h ?_
    simp only [checkEdge, portAtEnd, hs, hd]
    rfl
  | @direction before e p q hstep h hs hd hpq =>
    have hdirection : (p.isOutput && q.isInput) = false := by
      simpa [Port.isOutput, Port.isInput, ← not_and_or] using hpq
    rw [hstep.validate_eq hord hl]
    refine validateEdges_of_firstBreach h ?_
    simp only [checkEdge, portAtEnd, hs, hd, bind, Except.bind, hdirection]
    rfl
  | fine hstep hedges =>
    rw [hstep.validate_eq hord hl]
    exact checkEdgeList_eq_ok_iff.mpr hedges

/-- **The check of a graph reports the first breach of the first rule that is broken**, and nothing else,
for transforms as they can be built. -/
theorem validate_eq_iff_verdict : g.validate = r ↔ g.Verdict r := by
  constructor
  · rintro rfl
    obtain ⟨r, h⟩ := g.exists_verdict
    rw [h.validate_eq hord hl]
    exact h
  · exact Verdict.validate_eq hord hl

end Verdict

end Graph

end Dataflow
