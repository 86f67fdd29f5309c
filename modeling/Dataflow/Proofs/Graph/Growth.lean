import Dataflow.Proofs.Graph.Construction

/-!
# Graphs that grow

A graph never gives up what it has: a registration puts one entry behind the others.  The lookups,
however, go through tables that a registration writes to, and a table forgets what it overwrites.
Here is what makes them last.  When both the graph as it was and the graph as it has become are
sound, their lookups find what a scan finds, and a scan of a longer list finds no less
(`Graph.Sound.lastsIn`).

A design registers many things at once.  `Workshop.plansRegistered` and `Workshop.linksJoined` list
them in the order of registration, and the graph that is built holds exactly these
(`Design.build_records`).
-/

namespace Dataflow

namespace Graph
variable {g g' : Graph}

/-! ## Lookups that last -/

/-- **What a graph has and finds lasts in a later state of it.** -/
structure LastsIn (g g' : Graph) : Prop where
  name : g'.name = g.name
  transforms : g.transforms <+: g'.transforms
  edges : g.edges <+: g'.edges
  transformWithId : ∀ id t, g.transformWithId? id = some t → g'.transformWithId? id = some t
  edgeWithId : ∀ id e, g.edgeWithId? id = some e → g'.edgeWithId? id = some e
  transform : ∀ name t, g.transform? name = some t → g'.transform? name = some t
  ownerOfId : ∀ v t, g.ownerOfId v = .ok t → g'.ownerOfId v = .ok t
  ownerOfPort : ∀ p t, g.ownerOfPort p = .ok t → g'.ownerOfPort p = .ok t
  port : ∀ v p, g.port? v = some p → g'.port? v = some p
  addEdge : ∀ e, (g.addEdge e).result = .ok () → (g'.addEdge e).result = .ok ()
  describe : ∀ e ∈ g.edges, g'.describe e = g.describe e

theorem ownerOfPort_eq_ok_iff {p : Port} {t : Transform} :
    g.ownerOfPort p = .ok t ↔ g.owner? p.id = some t := by
  unfold ownerOfPort
  cases g.owner? p.id <;> simp

/-- The graph has what the other one has, and these entries behind it. -/
structure ExtendedBy (g g' : Graph) (ts : List Transform) (es : List Edge) : Prop where
  name : g'.name = g.name
  transforms : g'.transforms = g.transforms ++ ts
  edges : g'.edges = g.edges ++ es

theorem ExtendedBy.refl (g : Graph) : g.ExtendedBy g [] [] :=
  ⟨rfl, (List.append_nil _).symm, (List.append_nil _).symm⟩

theorem ExtendedBy.trans {g'' : Graph} {ts ts' : List Transform} {es es' : List Edge}
    (h : g.ExtendedBy g' ts es) (h' : g'.ExtendedBy g'' ts' es') :
    g.ExtendedBy g'' (ts ++ ts') (es ++ es') where
  name := h'.name.trans h.name
  transforms := by rw [h'.transforms, h.transforms, List.append_assoc]
  edges := by rw [h'.edges, h.edges, List.append_assoc]

/-- What has a place in a list keeps it when the list grows. -/
theorem getElem?_of_prefix {α : Type} {l l' : List α} (h : l <+: l') {i : Nat} {a : α}
    (hi : l[i]? = some a) : l'[i]? = some a := by
  obtain ⟨hlt, rfl⟩ := List.getElem?_eq_some_iff.mp hi
  exact List.prefix_iff_getElem?.mp h i hlt

/-- An end that has an owner is described by owner and name. -/
theorem describePort_of_owner {v : Ident} {t : Transform} {p : Port} (ht : g.owner? v = some t)
    (hp : g.port? v = some p) : g.describePort v = t.name ++ "." ++ p.name := by
  simp only [describePort, ht, hp]

section Sound
variable (hg : g.Sound) (hl : g.transforms.length ≤ 4294967295)
include hg hl

/-- A port that is owned is found, and so is its owner. -/
theorem Sound.exists_owner {d : Direction} {v : Ident} (h : g.OwnsPort d v) :
    ∃ t p, g.owner? v = some t ∧ g.port? v = some p := by
  obtain ⟨t, ht, p, hp, rfl, -⟩ := h
  exact ⟨t, p, (owner?_eq_some_iff hg.parents hl).mpr ⟨ht, Transform.hasId_of_mem hp⟩,
    (port?_eq_some_iff hg.parents hl fun u hu => (hg.transforms u hu).ids).mpr ⟨t, ht, hp, rfl⟩⟩

omit hl in
/-- **What a sound graph has and finds lasts**, as long as its lists have grown into those of a
sound graph. -/
theorem Sound.lastsIn (hg' : g'.Sound) (hl' : g'.transforms.length ≤ 4294967295)
    (hname : g'.name = g.name) (hts : g.transforms <+: g'.transforms)
    (hes : g.edges <+: g'.edges) : g.LastsIn g' := by
  have hl : g.transforms.length ≤ 4294967295 := Nat.le_trans hts.length_le hl'
  have howner : ∀ v t, g.owner? v = some t → g'.owner? v = some t := by
    intro v t h
    obtain ⟨ht, hv⟩ := (owner?_eq_some_iff hg.parents hl).mp h
    exact (owner?_eq_some_iff hg'.parents hl').mpr ⟨hts.subset ht, hv⟩
  have hport : ∀ v p, g.port? v = some p → g'.port? v = some p := by
    intro v p h
    obtain ⟨t, ht, hp⟩ :=
      (port?_eq_some_iff hg.parents hl fun u hu => (hg.transforms u hu).ids).mp h
    exact (port?_eq_some_iff hg'.parents hl' fun u hu => (hg'.transforms u hu).ids).mpr
      ⟨t, hts.subset ht, hp⟩
  -- an end of a registered edge has an owner, so its description does not change
  have hend : ∀ {d v}, g.OwnsPort d v → g'.describePort v = g.describePort v := by
    intro d v h
    obtain ⟨t, p, ht, hp⟩ := hg.exists_owner hl h
    rw [describePort_of_owner ht hp, describePort_of_owner (howner v t ht) (hport v p hp)]
  refine ⟨hname, hts, hes, ?_, ?_, ?_, ?_, ?_, hport, ?_, ?_⟩
  · intro id t h
    exact getElem?_of_prefix hts h
  · intro id e h
    exact getElem?_of_prefix hes h
  · intro name t h
    obtain ⟨ht, hn⟩ := (transform?_eq_some_iff hg.slots hl).mp h
    exact (transform?_eq_some_iff hg'.slots hl').mpr ⟨hts.subset ht, hn⟩
  · intro v t h
    exact ownerOfId_eq_ok_iff.mpr (howner v t (ownerOfId_eq_ok_iff.mp h))
  · intro p t h
    exact ownerOfPort_eq_ok_iff.mpr (howner p.id t (ownerOfPort_eq_ok_iff.mp h))
  · intro e h
    have hmono : ∀ {v}, g.Owns v → g'.Owns v := fun ⟨t, ht, hv⟩ => ⟨t, hts.subset ht, hv⟩
    obtain ⟨hs, hd⟩ := (addEdge_eq_ok_iff hg.parents).mp h
    exact (addEdge_eq_ok_iff hg'.parents).mpr ⟨hmono hs, hmono hd⟩
  · intro e he
    obtain ⟨hs, hd⟩ := hg.edges e he
    simp only [Graph.describe, hend hs, hend hd]

end Sound

end Graph

/-! ## What is entered -/

/-- What has been registered in a graph, in order. -/
structure Entries where
  transforms : List Transform
  edges : List Edge

namespace Entries

/-- Nothing has been registered yet. -/
def none : Entries := ⟨[], []⟩

/-- What has been registered later comes behind. -/
def append (entries : Entries) (ts : List Transform) (es : List Edge) : Entries :=
  ⟨entries.transforms ++ ts, entries.edges ++ es⟩

end Entries

namespace Graph

/-- **The graph holds exactly these entries**, each in the place of its registration. -/
structure Records (g : Graph) (entries : Entries) : Prop where
  transforms : g.transforms = entries.transforms
  edges : g.edges = entries.edges
  transformWithId : ∀ k ≤ 4294967294,
    g.transformWithId? (Ident.ofCounter k) = entries.transforms[k]?
  edgeWithId : ∀ k ≤ 4294967294, g.edgeWithId? (Ident.ofCounter k) = entries.edges[k]?

theorem records_iff {g : Graph} {entries : Entries} :
    g.Records entries ↔ g.transforms = entries.transforms ∧ g.edges = entries.edges := by
  refine ⟨fun h => ⟨h.transforms, h.edges⟩, fun ⟨hts, hes⟩ => ⟨hts, hes, ?_, ?_⟩⟩
  · intro k hk
    unfold transformWithId?
    rw [Ident.slot_ofCounter_of_lt (by omega), hts]
  · intro k hk
    unfold edgeWithId?
    rw [Ident.slot_ofCounter_of_lt (by omega), hes]

theorem records_empty (name : String) : (empty name).Records .none :=
  records_iff.mpr ⟨rfl, rfl⟩

/-- Further entries come behind the entries that are there. -/
theorem Records.extendedBy {g g' : Graph} {entries : Entries} {ts : List Transform}
    {es : List Edge} (h : g.Records entries) (hext : g.ExtendedBy g' ts es) :
    g'.Records (entries.append ts es) := by
  refine records_iff.mpr ⟨?_, ?_⟩
  · rw [hext.transforms, h.transforms]
    rfl
  · rw [hext.edges, h.edges]
    rfl

end Graph

namespace Workshop

/-- The transforms that are registered in following the plans. -/
def plansRegistered : List Plan → Workshop → Graph → List Transform
  | [], _, _ => []
  | plan :: rest, w, g =>
    match w.make plan with
    | (_, .error _) => []
    | (w, .ok t) =>
      match w.addTransform g t with
      | (_, .error _) => []
      | ((w, g), .ok ()) => t :: plansRegistered rest w g

/-- The edges that are registered in following the links. -/
def linksJoined : List Link → Workshop → Graph → List Edge
  | [], _, _ => []
  | link :: rest, w, g =>
    match link.edge g with
    | .error _ => []
    | .ok e =>
      match w.addEdge g e with
      | (_, .error _) => []
      | ((w, g), .ok ()) => e :: linksJoined rest w g

theorem addPlans_entries {plans : List Plan} {w w' : Workshop} {g g' : Graph}
    (h : w.addPlans plans g = (w', .ok g')) :
    g'.transforms = g.transforms ++ w.plansRegistered plans g ∧ g'.edges = g.edges := by
  induction plans generalizing w g with
  | nil =>
    cases h
    exact ⟨(List.append_nil _).symm, rfl⟩
  | cons plan rest ih =>
    rw [addPlans] at h
    rw [plansRegistered]
    rcases hmake : w.make plan with ⟨w₁, e | t⟩
    · rw [hmake] at h
      cases h
    · rw [hmake] at h
      cases hname : g.slots.contains t.name with
      | true =>
        simp only [Workshop.addTransform, Graph.addTransform_of_taken hname] at h
        cases h
      | false =>
        simp only [Workshop.addTransform, Graph.addTransform_of_new hname] at h ⊢
        obtain ⟨hts, hes⟩ := ih h
        exact ⟨hts.trans (List.append_assoc _ _ _), hes⟩

theorem addLinks_entries {links : List Link} {w w' : Workshop} {g g' : Graph}
    (h : w.addLinks links g = (w', .ok g')) :
    g'.transforms = g.transforms ∧ g'.edges = g.edges ++ w.linksJoined links g := by
  induction links generalizing w g with
  | nil =>
    cases h
    exact ⟨rfl, (List.append_nil _).symm⟩
  | cons link rest ih =>
    rw [addLinks] at h
    rw [linksJoined]
    rcases hedge : link.edge g with f | e
    · rw [hedge] at h
      cases h
    · rw [hedge] at h
      cases hend : g.ownerlessEnd? e with
      | some missing =>
        simp only [Workshop.addEdge, Graph.addEdge_of_ownerless hend] at h
        cases h
      | none =>
        simp only [Workshop.addEdge, Graph.addEdge_of_owned hend] at h ⊢
        obtain ⟨hts, hes⟩ := ih h
        exact ⟨hts, hes.trans (List.append_assoc _ _ _)⟩

end Workshop

namespace Design

/-- What is registered in building a design. -/
def entries (d : Design) (w : Workshop) : Entries where
  transforms := w.plansRegistered d.plans (Graph.empty d.name)
  edges :=
    match w.addPlans d.plans (Graph.empty d.name) with
    | (_, .error _) => []
    | (w, .ok g) => w.linksJoined d.links g

/-- **A built graph holds what was registered in building it**, in order. -/
theorem build_records {d : Design} {w w' : Workshop} {g : Graph} (h : d.build w = (w', .ok g)) :
    g.Records (d.entries w) := by
  obtain ⟨w₁, g₁, hplans, hlinks⟩ := build_eq_ok h
  obtain ⟨hts₁, hes₁⟩ := Workshop.addPlans_entries hplans
  obtain ⟨hts, hes⟩ := Workshop.addLinks_entries hlinks
  rw [Graph.records_iff]
  simp only [entries, hplans]
  exact ⟨hts.trans hts₁, by rw [hes, hes₁]; rfl⟩

end Design

end Dataflow
