import Dataflow.Proofs.Graph.Lookup
import Dataflow.Proofs.Transform.Building
import Mathlib.Data.List.Perm.Subperm

/-!
# What the check of a whole graph decides

`Graph.validate` walks the transforms, the parent index and the edges one after another.  Each walk
is a recursion that stops at the first violation; here it is shown what it means that none is found
(`Transform.check_eq_ok_iff`, `ParentIndex.check_eq_ok_iff`, `Graph.validateEdges_eq_ok_iff`), and
what it means that the whole check succeeds (`Graph.validate_eq_ok_iff`).

The check of the parent index looks at every registered port, but not at every entry of the index:
it only compares their numbers.  That is enough by counting.  The ports of one transform have
pairwise different identities, and the index cannot lead from one identity to two slots, so all
registered ports are different keys; when there are as many of them as keys, no key is left over
for anything else.
-/

namespace Dataflow

theorem require_eq_ok_iff {condition : Bool} {e : Error} :
    require condition e = .ok () ↔ condition = true := by
  cases condition <;> simp [require]

/-- Two checks, one after the other, find nothing exactly when neither does. -/
theorem andThen_eq_ok_iff {x y : Except Error Unit} :
    (do x; y) = .ok () ↔ x = .ok () ∧ y = .ok () := by
  rw [bind_eq_ok]
  exact ⟨fun ⟨_, h⟩ => h, fun h => ⟨(), h⟩⟩

theorem not_contains_iff {names : List String} {name : String} :
    (!names.contains name) = true ↔ name ∉ names := by
  simp

/-! ## Names and port lists -/

theorem checkDistinct_eq_ok_iff {scope : Scope} {seen names : List String} :
    checkDistinct scope seen names = .ok () ↔ names.Nodup ∧ ∀ name ∈ names, name ∉ seen := by
  induction names generalizing seen with
  | nil => simp [checkDistinct]
  | cons name rest ih =>
    rw [checkDistinct, andThen_eq_ok_iff, require_eq_ok_iff, not_contains_iff, ih,
      List.nodup_cons]
    simp only [List.mem_cons, not_or, forall_eq_or_imp]
    constructor
    · rintro ⟨hn, hd, hs⟩
      exact ⟨⟨fun hm => (hs name hm).1 rfl, hd⟩, hn, fun n hm => (hs n hm).2⟩
    · rintro ⟨⟨hm, hd⟩, hn, hs⟩
      exact ⟨hn, hd, fun n hr => ⟨fun he => hm (he ▸ hr), hs n hr⟩⟩

namespace Transform

theorem checkPorts_eq_ok_iff {t : Transform} {d : Direction} {seen : List String}
    {ports : List Port} : t.checkPorts d seen ports = .ok () ↔
      (∀ p ∈ ports, p.direction = d) ∧ (ports.map (·.name)).Nodup ∧
        ∀ p ∈ ports, p.name ∉ seen := by
  induction ports generalizing seen with
  | nil => simp [checkPorts]
  | cons p rest ih =>
    rw [checkPorts, andThen_eq_ok_iff, andThen_eq_ok_iff, require_eq_ok_iff, require_eq_ok_iff,
      not_contains_iff, ih, List.map_cons, List.nodup_cons]
    simp only [decide_eq_true_eq, List.mem_cons, not_or, forall_eq_or_imp, List.mem_map,
      not_exists, not_and]
    constructor
    · rintro ⟨hp, hn, hd, hr, hs⟩
      exact ⟨⟨hp, hd⟩, ⟨fun q hq => (hs q hq).1, hr⟩, hn, fun q hq => (hs q hq).2⟩
    · rintro ⟨⟨hp, hd⟩, ⟨hm, hr⟩, hn, hs⟩
      exact ⟨hp, hn, hd, hr, fun q hq => ⟨hm q hq, hs q hq⟩⟩

/-- **The check of a transform decides whether it is in order.** -/
theorem check_eq_ok_iff {t : Transform} : t.check = .ok () ↔ t.InOrder := by
  unfold check
  rw [andThen_eq_ok_iff, andThen_eq_ok_iff, checkDistinct_eq_ok_iff, checkPorts_eq_ok_iff,
    checkPorts_eq_ok_iff]
  constructor
  · rintro ⟨⟨hc, -⟩, ⟨hi, hin, -⟩, ho, hon, -⟩
    refine ⟨hc, fun d => ?_, fun d => ?_⟩
    · cases d with
      | input => exact hi
      | output => exact ho
    · cases d with
      | input => exact hin
      | output => exact hon
  · intro h
    exact ⟨⟨h.constants, by simp⟩, ⟨h.direction .input, h.names .input, by simp⟩,
      h.direction .output, h.names .output, by simp⟩

end Transform

theorem checkTransforms_eq_ok_iff {seen : List String} {transforms : List Transform} :
    checkTransforms seen transforms = .ok () ↔
      (∀ t ∈ transforms, t.InOrder) ∧ (transforms.map (·.name)).Nodup ∧
        ∀ t ∈ transforms, t.name ∉ seen := by
  induction transforms generalizing seen with
  | nil => simp [checkTransforms]
  | cons t rest ih =>
    rw [checkTransforms, andThen_eq_ok_iff, andThen_eq_ok_iff, require_eq_ok_iff, not_contains_iff,
      Transform.check_eq_ok_iff, ih, List.map_cons, List.nodup_cons]
    simp only [List.mem_cons, not_or, forall_eq_or_imp, List.mem_map, not_exists, not_and]
    constructor
    · rintro ⟨hn, ht, hr, hd, hs⟩
      exact ⟨⟨ht, hr⟩, ⟨fun u hu => (hs u hu).1, hd⟩, hn, fun u hu => (hs u hu).2⟩
    · rintro ⟨⟨ht, hr⟩, ⟨hm, hd⟩, hn, hs⟩
      exact ⟨hn, ht, hr, hd, fun u hu => ⟨hm u hu, hs u hu⟩⟩

/-! ## The parent index -/

namespace ParentIndex
variable {index : ParentIndex} {transforms : List Transform}

theorem checkPorts_eq_ok_iff {owner : Ident} {t : Transform} {ports : List Port} :
    index.checkPorts owner t ports = .ok () ↔ ∀ p ∈ ports, index.get? p.id = some owner := by
  induction ports with
  | nil => simp [checkPorts]
  | cons p rest ih =>
    rw [checkPorts, andThen_eq_ok_iff, require_eq_ok_iff, ih]
    simp

theorem checkOwners_eq_ok_iff {start : Nat} : index.checkOwners start transforms = .ok () ↔
    ∀ i t, transforms[i]? = some t →
      ∀ p ∈ t.ports, index.get? p.id = some (Ident.ofCounter (start + i)) := by
  induction transforms generalizing start with
  | nil => simp [checkOwners]
  | cons t rest ih =>
    rw [checkOwners, andThen_eq_ok_iff, checkPorts_eq_ok_iff, ih]
    constructor
    · rintro ⟨ht, hr⟩ i u hi
      cases i with
      | zero =>
        cases hi
        exact ht
      | succ i =>
        rw [show start + (i + 1) = start + 1 + i by omega]
        exact hr i u hi
    · intro h
      refine ⟨h 0 t rfl, fun i u hi => ?_⟩
      rw [show start + 1 + i = start + (i + 1) by omega]
      exact h (i + 1) u hi

/-- The identities of all ports, in the order of registration. -/
def portIds (transforms : List Transform) : List Ident :=
  transforms.flatMap fun t => t.ports.map (·.id)

theorem portCount_eq_length (transforms : List Transform) :
    portCount transforms = (transforms.flatMap Transform.ports).length := by
  induction transforms with
  | nil => rfl
  | cons t rest ih => simp only [portCount, List.flatMap_cons, List.length_append, ih]

theorem length_portIds (transforms : List Transform) :
    (portIds transforms).length = portCount transforms := by
  rw [portCount_eq_length]
  simp [portIds, List.length_flatMap]

theorem mem_portIds_iff {v : Ident} :
    v ∈ portIds transforms ↔ ∃ t ∈ transforms, t.hasId v = true := by
  simp [portIds, Transform.hasId_iff]

/-- Every registered port is under its owner. -/
theorem checkOwners_iff_hasId : index.checkOwners 0 transforms = .ok () ↔
    ∀ i t v, transforms[i]? = some t → t.hasId v = true →
      index.get? v = some (Ident.ofCounter i) := by
  rw [checkOwners_eq_ok_iff]
  constructor
  · intro h i t v hi hv
    obtain ⟨p, hp, rfl⟩ := Transform.hasId_iff.mp hv
    rw [← Nat.zero_add i]
    exact h i t hi p hp
  · intro h i t hi p hp
    rw [Nat.zero_add]
    exact h i t p.id hi (Transform.hasId_iff.mpr ⟨p, hp, rfl⟩)

/-- An index that leads from every port to its owner tells all ports apart. -/
theorem nodup_portIds (hl : transforms.length ≤ 4294967295)
    (hids : ∀ t ∈ transforms, (t.ports.map (·.id)).Nodup)
    (hown : ∀ i t v, transforms[i]? = some t → t.hasId v = true →
      index.get? v = some (Ident.ofCounter i)) : (portIds transforms).Nodup := by
  rw [portIds, List.nodup_flatMap]
  refine ⟨hids, List.pairwise_iff_getElem.mpr ?_⟩
  intro i j hi hj hij v hvi hvj
  have hget : ∀ k (hk : k < transforms.length), v ∈ transforms[k].ports.map (·.id) →
      index.get? v = some (Ident.ofCounter k) := by
    intro k hk hv
    exact hown k _ v (List.getElem?_eq_getElem hk)
      (Transform.hasId_iff.mpr (List.mem_map.mp hv))
  -- one key cannot lead to two owners
  have heq := Option.some.inj ((hget i hi hvi).symm.trans (hget j hj hvj))
  have hplace := Ident.ofCounter_inj (by omega) (by omega) heq
  omega

/-- **The check of the parent index is exact**, though it only counts the entries. -/
theorem check_eq_ok_iff (hl : transforms.length ≤ 4294967295)
    (hids : ∀ t ∈ transforms, (t.ports.map (·.id)).Nodup) :
    index.check transforms = .ok () ↔ index.Indexes transforms Transform.hasId := by
  rw [check, andThen_eq_ok_iff, require_eq_ok_iff, decide_eq_true_eq, checkOwners_iff_hasId,
    ← length_portIds]
  constructor
  · rintro ⟨hown, hsize⟩ v k
    have hsub : portIds transforms ⊆ index.keys := by
      intro w hw
      obtain ⟨t, ht, hv⟩ := mem_portIds_iff.mp hw
      obtain ⟨i, hi⟩ := List.getElem?_of_mem ht
      exact Table.mem_keys_iff.mpr ⟨_, hown i t w hi hv⟩
    -- as many ports as keys, so every key is the identity of a port
    have hperm : (portIds transforms).Perm index.keys :=
      (List.subperm_of_subset (nodup_portIds hl hids hown) hsub).perm_of_length_le
        (Nat.le_of_eq (by rw [Table.length_keys, hsize]))
    constructor
    · intro hk
      have hv := hperm.symm.subset (Table.mem_keys_iff.mpr ⟨k, hk⟩)
      obtain ⟨t, ht, hv⟩ := mem_portIds_iff.mp hv
      obtain ⟨i, hi⟩ := List.getElem?_of_mem ht
      exact ⟨i, t, hi, hv, Option.some.inj (hk.symm.trans (hown i t v hi hv))⟩
    · rintro ⟨i, t, hi, hv, rfl⟩
      exact hown i t v hi hv
  · intro h
    have hown : ∀ i t v, transforms[i]? = some t → t.hasId v = true →
        index.get? v = some (Ident.ofCounter i) :=
      fun i t v hi hv => (h v _).mpr ⟨i, t, hi, hv, rfl⟩
    refine ⟨hown, ?_⟩
    -- keys and identities are the same set, and neither list repeats itself
    have hmem : ∀ v, v ∈ index.keys ↔ v ∈ portIds transforms := by
      intro v
      rw [mem_portIds_iff, ← h.contains_iff, Table.mem_keys_iff, Table.contains_eq,
        Option.isSome_iff_exists]
    have hperm := (List.perm_ext_iff_of_nodup index.nodup_keys
      (nodup_portIds hl hids hown)).mpr hmem
    rw [← hperm.length_eq, Table.length_keys]

end ParentIndex

/-! ## The edges and the whole graph -/

namespace Graph
variable {g : Graph}

/-- One of the registered transforms owns a port of this identity and direction. -/
def OwnsPort (g : Graph) (d : Direction) (v : Ident) : Prop :=
  ∃ t ∈ g.transforms, ∃ p ∈ t.ports, p.id = v ∧ p.direction = d

theorem portAtEnd_eq_ok_iff {side : EdgeEnd} {v : Ident} {p : Port} :
    g.portAtEnd side v = .ok p ↔ g.port? v = some p := by
  unfold portAtEnd
  cases g.port? v <;> simp

theorem checkEdge_eq_ok_iff {position : Nat} {e : Edge} :
    g.checkEdge position e = .ok () ↔
      (∃ p, g.port? e.source = some p ∧ p.direction = .output) ∧
        ∃ p, g.port? e.destination = some p ∧ p.direction = .input := by
  simp only [checkEdge, bind_eq_ok, portAtEnd_eq_ok_iff, require_eq_ok_iff, Bool.and_eq_true,
    Port.isOutput, Port.isInput, decide_eq_true_eq]
  constructor
  · rintro ⟨p, hp, q, hq, hpd, hqd⟩
    exact ⟨⟨p, hp, hpd⟩, q, hq, hqd⟩
  · rintro ⟨⟨p, hp, hpd⟩, q, hq, hqd⟩
    exact ⟨p, hp, q, hq, hpd, hqd⟩

theorem checkEdgeList_eq_ok_iff {position : Nat} {edges : List Edge} :
    g.checkEdgeList position edges = .ok () ↔
      ∀ e ∈ edges, (∃ p, g.port? e.source = some p ∧ p.direction = .output) ∧
        ∃ p, g.port? e.destination = some p ∧ p.direction = .input := by
  induction edges generalizing position with
  | nil => simp [checkEdgeList]
  | cons e rest ih =>
    rw [checkEdgeList, andThen_eq_ok_iff, checkEdge_eq_ok_iff, ih, List.forall_mem_cons]

/-- **The check of the edges decides**, when the parent index is in step, whether every edge runs
from a registered output to a registered input. -/
theorem validateEdges_eq_ok_iff (h : g.parents.Indexes g.transforms Transform.hasId)
    (hl : g.transforms.length ≤ 4294967295)
    (hids : ∀ t ∈ g.transforms, (t.ports.map (·.id)).Nodup) : g.validateEdges = .ok () ↔
      ∀ e ∈ g.edges, g.OwnsPort .output e.source ∧ g.OwnsPort .input e.destination := by
  have hport : ∀ v d, (∃ p, g.port? v = some p ∧ p.direction = d) ↔ g.OwnsPort d v := by
    intro v d
    simp only [port?_eq_some_iff h hl hids, OwnsPort]
    constructor
    · rintro ⟨p, ⟨t, ht, hp, hv⟩, hd⟩
      exact ⟨t, ht, p, hp, hv, hd⟩
    · rintro ⟨t, ht, p, hp, hv, hd⟩
      exact ⟨p, ⟨t, ht, hp, hv⟩, hd⟩
  rw [validateEdges, checkEdgeList_eq_ok_iff]
  simp only [hport]

/-- **A consistent graph**: names are unique, the parent index leads from an identity to a slot
exactly when the transform in that slot owns a port of that identity, and every edge runs from a
registered output to a registered input. -/
structure Consistent (g : Graph) : Prop where
  names : (g.transforms.map (·.name)).Nodup
  parents : ∀ v k, g.parents.get? v = some k ↔
    ∃ t, g.transforms[k.slot]? = some t ∧ t.hasId v = true
  edges : ∀ e ∈ g.edges, g.OwnsPort .output e.source ∧ g.OwnsPort .input e.destination

/-- **The check of a whole graph decides consistency**, for transforms as they can be built. -/
theorem validate_eq_ok_iff (hord : ∀ t ∈ g.transforms, t.InOrder)
    (hl : g.transforms.length ≤ 4294967295)
    (hids : ∀ t ∈ g.transforms, (t.ports.map (·.id)).Nodup) :
    g.validate = .ok () ↔ g.Consistent := by
  unfold validate
  rw [andThen_eq_ok_iff, andThen_eq_ok_iff, validateTransforms, checkTransforms_eq_ok_iff,
    validateParents, ParentIndex.check_eq_ok_iff hl hids]
  constructor
  · rintro ⟨⟨-, hn, -⟩, hp, he⟩
    exact ⟨hn, (Table.indexes_iff hl).mp hp, (validateEdges_eq_ok_iff hp hl hids).mp he⟩
  · intro h
    have hp := (Table.indexes_iff hl).mpr h.parents
    exact ⟨⟨hord, h.names, by simp⟩, hp, (validateEdges_eq_ok_iff hp hl hids).mpr h.edges⟩

end Graph

end Dataflow
