import Dataflow.Proofs.Graph.Joining
import Dataflow.Proofs.Graph.Validation

/-!
# What registration keeps

Registering a transform touches three structures: the list, the table of names and the parent
index.  Registering an edge looks at the parent index only, and never at directions.  Here are the
conditions under which both keep a graph **sound** (`Graph.Sound`): the two tables are indexes of
the list, the parent index has no entry too many, and every edge runs from a registered output to a
registered input.

What the conditions ask is not checked by the graph.  A transform that comes in must have nothing
in common with those that are there (`Transform.Apart`), and an edge that comes in must respect the
registered ports.  That both hold whenever a step registers something is a fact about whole
sessions.
-/

namespace Dataflow

namespace Transform

/-- A transform in order whose ports have pairwise different identities. -/
structure Sound (t : Transform) : Prop extends InOrder t where
  ids : (t.ports.map (·.id)).Nodup

/-- **Two different transforms**: neither the serial nor a port is in common. -/
structure Apart (t u : Transform) : Prop where
  serial : t.serial ≠ u.serial
  ids : ∀ v, t.hasId v = true → u.hasId v ≠ true

theorem Apart.symm {t u : Transform} (h : t.Apart u) : u.Apart t :=
  ⟨h.serial.symm, fun v hu ht => h.ids v ht hu⟩

theorem hasId_of_mem {t : Transform} {p : Port} (hp : p ∈ t.ports) : t.hasId p.id = true :=
  hasId_iff.mpr ⟨p, hp, rfl⟩

theorem Sound.eq_of_id_eq {t : Transform} (ht : t.Sound) {p q : Port} (hp : p ∈ t.ports)
    (hq : q ∈ t.ports) (h : p.id = q.id) : p = q :=
  List.inj_on_of_nodup_map ht.ids hp hq h

/-- A transform that takes in a port is the same one, and has this port beside its old ones. -/
theorem ports_of_addPortTo {t t' : Transform} {d : Direction} {p : Port}
    (h : t.addPortTo d p = (t', .ok ())) :
    t'.serial = t.serial ∧ ∀ r ∈ t'.ports, r ∈ t.ports ∨ r ∈ [p] := by
  obtain ⟨-, -, rfl⟩ := addPortTo_eq_ok.mp h
  constructor
  · cases d <;> rfl
  · intro r hr
    exact List.mem_append.mp ((t.ports_appendPort_perm p d).subset hr)

/-- A transform that takes in a port with an identity of its own stays sound. -/
theorem Sound.addPortTo {t t' : Transform} (ht : t.Sound) {d : Direction} {p : Port}
    (h : t.addPortTo d p = (t', .ok ())) (hnew : ∀ r ∈ t.ports, r.id ≠ p.id) : t'.Sound := by
  refine ⟨ht.toInOrder.addPortTo h, ?_⟩
  obtain ⟨-, -, rfl⟩ := addPortTo_eq_ok.mp h
  rw [((t.ports_appendPort_perm p d).map (·.id)).nodup_iff, List.map_append]
  exact List.nodup_append.mpr ⟨ht.ids, by simp, by simpa using hnew⟩

end Transform

/-! ## Entering ports -/

namespace ParentIndex

/-- The ports are entered one by one, and none of them is in the index when its turn comes. -/
def EntersNew (index : ParentIndex) (owner : Ident) : List Port → Prop
  | [] => True
  | p :: rest => index.get? p.id = none ∧ EntersNew (index.insert p.id owner) owner rest

/-- Entering ports one by one. -/
def enterPorts (index : ParentIndex) (owner : Ident) (ports : List Port) : ParentIndex :=
  ports.foldl (fun index p => index.insert p.id owner) index

theorem get?_enterPorts (index : ParentIndex) (owner : Ident) (ports : List Port) (v : Ident) :
    (index.enterPorts owner ports).get? v =
      if ports.any (·.id = v) then some owner else index.get? v := by
  induction ports generalizing index with
  | nil => rfl
  | cons p rest ih =>
    -- a port that comes twice is written twice with one owner, so the order does not matter
    have hstep : index.enterPorts owner (p :: rest) =
        enterPorts (index.insert p.id owner) owner rest := rfl
    rw [hstep, ih, Table.get?_insert, List.any_cons]
    by_cases hp : p.id = v <;> simp [hp]

theorem get?_enter (index : ParentIndex) (owner : Ident) (t : Transform) (v : Ident) :
    (index.enter owner t).get? v = if t.hasId v = true then some owner else index.get? v :=
  get?_enterPorts index owner t.ports v

theorem entersNew_of_nodup {index : ParentIndex} (owner : Ident) {ports : List Port}
    (hn : (ports.map (·.id)).Nodup) (hnew : ∀ p ∈ ports, index.get? p.id = none) :
    index.EntersNew owner ports := by
  induction ports generalizing index with
  | nil => trivial
  | cons p rest ih =>
    rw [List.map_cons, List.nodup_cons] at hn
    refine ⟨hnew p (List.mem_cons_self ..), ih hn.2 fun q hq => ?_⟩
    have hne : p.id ≠ q.id := fun h => hn.1 (h ▸ List.mem_map.mpr ⟨q, hq, rfl⟩)
    rw [Table.get?_insert_of_ne index owner hne]
    exact hnew q (List.mem_cons_of_mem p hq)

/-- When every port is new, the index grows by exactly the number of ports. -/
theorem EntersNew.size_enterPorts {index : ParentIndex} {owner : Ident} {ports : List Port}
    (h : index.EntersNew owner ports) :
    (index.enterPorts owner ports).size = index.size + ports.length := by
  induction ports generalizing index with
  | nil => rfl
  | cons p rest ih =>
    obtain ⟨hp, hrest⟩ := h
    have hstep : index.enterPorts owner (p :: rest) =
        enterPorts (index.insert p.id owner) owner rest := rfl
    rw [hstep, ih hrest, Table.size_insert, Table.contains_eq, hp, List.length_cons]
    simp only [Option.isSome_none, Bool.false_eq_true, if_false]
    omega

theorem portCount_append (l l' : List Transform) :
    portCount (l ++ l') = portCount l + portCount l' := by
  simp [portCount_eq_length]

end ParentIndex

/-! ## Sound graphs -/

namespace Graph

/-- One of the registered transforms has the port. -/
def HasPort (g : Graph) (p : Port) : Prop := ∃ t ∈ g.transforms, p ∈ t.ports

/-- **A sound graph**: everything that registration is to keep. -/
structure Sound (g : Graph) : Prop where
  transforms : ∀ t ∈ g.transforms, t.Sound
  apart : g.transforms.Pairwise Transform.Apart
  names : (g.transforms.map (·.name)).Nodup
  slots : g.slots.Indexes g.transforms fun t name => decide (t.name = name)
  parents : g.parents.Indexes g.transforms Transform.hasId
  size : g.parents.size = ParentIndex.portCount g.transforms
  edges : ∀ e ∈ g.edges, g.OwnsPort .output e.source ∧ g.OwnsPort .input e.destination

theorem sound_empty (name : String) : (empty name).Sound where
  transforms := by simp [empty]
  apart := List.Pairwise.nil
  names := List.nodup_nil
  slots := Table.indexes_empty _
  parents := Table.indexes_empty _
  size := rfl
  edges := by simp [empty]

section Sound
variable {g : Graph} (hg : g.Sound)
include hg

/-- Of two registered transforms, either both are one, or they have nothing in common. -/
theorem Sound.eq_or_apart {t u : Transform} (ht : t ∈ g.transforms) (hu : u ∈ g.transforms) :
    t = u ∨ t.Apart u := by
  obtain ⟨i, hi, rfl⟩ := List.getElem_of_mem ht
  obtain ⟨j, hj, rfl⟩ := List.getElem_of_mem hu
  have hpair := List.pairwise_iff_getElem.mp hg.apart
  rcases Nat.lt_trichotomy i j with hlt | rfl | hlt
  · exact Or.inr (hpair i j hi hj hlt)
  · exact Or.inl rfl
  · exact Or.inr (hpair j i hj hi hlt).symm

/-- No two registered ports share an identity. -/
theorem Sound.port_unique {p q : Port} (hp : g.HasPort p) (hq : g.HasPort q) (h : p.id = q.id) :
    p = q := by
  obtain ⟨t, ht, hpt⟩ := hp
  obtain ⟨u, hu, hqu⟩ := hq
  rcases hg.eq_or_apart ht hu with rfl | hap
  · exact (hg.transforms t ht).eq_of_id_eq hpt hqu h
  · exact absurd (h ▸ Transform.hasId_of_mem hqu) (hap.ids _ (Transform.hasId_of_mem hpt))

/-- The registered edges respect the registered ports. -/
theorem Sound.respects {e : Edge} (he : e ∈ g.edges) {p : Port} (hp : g.HasPort p) :
    e.Respects p := by
  obtain ⟨⟨t, ht, a, hat, ha, hda⟩, u, hu, b, hbu, hb, hdb⟩ := hg.edges e he
  have hjoins : e.Joins g.HasPort :=
    ⟨a, b, ⟨t, ht, hat⟩, ⟨u, hu, hbu⟩, hda, hdb, ha.symm, hb.symm⟩
  exact hjoins.respects (fun p q hp hq h => hg.port_unique hp hq h) hp

/-- A new edge keeps the graph sound if it respects the registered ports. -/
theorem Sound.appendEdge {e : Edge} (he : ∀ p, g.HasPort p → e.Respects p)
    (hend : g.ownerlessEnd? e = none) : (g.appendEdge e).Sound where
  transforms := hg.transforms
  apart := hg.apart
  names := hg.names
  slots := hg.slots
  parents := hg.parents
  size := hg.size
  edges := by
    intro e' he'
    rcases List.mem_append.mp he' with he' | he'
    · exact hg.edges e' he'
    · -- the index gives the owners, and that the edge respects their ports gives the directions
      obtain rfl := List.mem_singleton.mp he'
      obtain ⟨hs, hd⟩ := ownerlessEnd?_eq_none_iff.mp hend
      obtain ⟨t, ht, hts⟩ := hg.parents.contains_iff.mp hs
      obtain ⟨u, hu, hud⟩ := hg.parents.contains_iff.mp hd
      obtain ⟨p, hp, hps⟩ := Transform.hasId_iff.mp hts
      obtain ⟨q, hq, hqd⟩ := Transform.hasId_iff.mp hud
      exact ⟨⟨t, ht, p, hp, hps, (he p ⟨t, ht, hp⟩).1 hps⟩,
        u, hu, q, hq, hqd, (he q ⟨u, hu, hq⟩).2 hqd⟩

/-- The ports of a transform that is apart from all registered ones are not in the index. -/
theorem Sound.get?_parents_of_apart {t : Transform} (hap : ∀ u ∈ g.transforms, u.Apart t)
    {p : Port} (hp : p ∈ t.ports) : g.parents.get? p.id = none := by
  rw [Option.eq_none_iff_forall_ne_some]
  intro k hk
  obtain ⟨i, u, hi, hu, -⟩ := (hg.parents _ _).mp hk
  exact (hap u (List.mem_of_getElem? hi)).ids p.id hu (Transform.hasId_of_mem hp)

theorem Sound.entersNew {t : Transform} (ht : t.Sound) (hap : ∀ u ∈ g.transforms, u.Apart t)
    (owner : Ident) : g.parents.EntersNew owner t.ports :=
  ParentIndex.entersNew_of_nodup owner ht.ids fun _ hp => hg.get?_parents_of_apart hap hp

/-- **A new transform keeps the graph sound** if it has nothing in common with those that are
there. -/
theorem Sound.appendTransform {t : Transform} (ht : t.Sound)
    (hap : ∀ u ∈ g.transforms, u.Apart t) (hname : g.slots.contains t.name = false) :
    (g.appendTransform t).Sound where
  transforms := by
    intro u hu
    rcases List.mem_append.mp hu with hu | hu
    · exact hg.transforms u hu
    · obtain rfl := List.mem_singleton.mp hu
      exact ht
  apart := List.pairwise_append.mpr
    ⟨hg.apart, List.pairwise_singleton _ _, fun u hu v hv => List.mem_singleton.mp hv ▸ hap u hu⟩
  names := by
    have hnew : ∀ u ∈ g.transforms, u.name ≠ t.name := fun u hu he =>
      Bool.eq_false_iff.mp hname (hg.slots.contains_iff.mpr ⟨u, hu, decide_eq_true he⟩)
    show ((g.transforms ++ [t]).map (·.name)).Nodup
    rw [List.map_append]
    exact List.nodup_append.mpr ⟨hg.names, by simp, by simpa using hnew⟩
  slots := by
    refine hg.slots.append (fun name => ?_) fun u hu name ht' hu' => ?_
    · show (g.slots.insert t.name g.nextSlot).get? name = _
      rw [Table.get?_insert]
      simp [nextSlot]
    · rw [decide_eq_true_eq] at ht' hu'
      exact Bool.eq_false_iff.mp hname
        (hg.slots.contains_iff.mpr ⟨u, hu, decide_eq_true (hu'.trans ht'.symm)⟩)
  parents := hg.parents.append (fun v => ParentIndex.get?_enter _ _ t v)
    fun u hu v ht' hu' => (hap u hu).ids v hu' ht'
  size := by
    -- no port is in the index yet, so none is overwritten
    show (g.parents.enterPorts g.nextSlot t.ports).size = ParentIndex.portCount (g.transforms ++ [t])
    rw [(hg.entersNew ht hap g.nextSlot).size_enterPorts, hg.size, ParentIndex.portCount_append]
    rfl
  edges := by
    have hmono : ∀ d v, g.OwnsPort d v → (g.appendTransform t).OwnsPort d v := by
      rintro d v ⟨u, hu, hrest⟩
      exact ⟨u, List.mem_append_left [t] hu, hrest⟩
    intro e he
    exact ⟨hmono _ _ (hg.edges e he).1, hmono _ _ (hg.edges e he).2⟩

end Sound

end Graph

end Dataflow
