import Dataflow.Proofs.Session.Objects

/-!
# Who owns what

What keeps the objects of a session in order is that making is the only way to a new number, and
that moving takes the object out of its variable.  `Session.Sound` says so variable by variable:
every object is sound in itself and uses only numbers that the counters have passed, and any two
variables hold compatible objects.

Because the condition is about two variables at a time, a step that binds a variable has to answer
for that variable alone (`Session.Sound.bind`), and whatever can be bound to a variable anew fits
in (`Session.Sound.admits`).
-/

namespace Dataflow

namespace Session

/-! ## Sound sessions -/

/-- **A sound session**: every object is sound and uses only numbers that have been given out, and
any two variables hold compatible objects. -/
structure Sound (s : Session) : Prop where
  object : ∀ x o, s.Holds x o → o.Sound
  below : ∀ x o, s.Holds x o → o.Below s.workshop
  compatible : ∀ x y o o', x ≠ y → s.Holds x o → s.Holds y o' → o.Compatible o'

theorem sound_start (n : Nat) : (start n).Sound := by
  refine ⟨fun x o h => ?_, fun x o h => ?_, fun x y o o' _ h => ?_⟩
  · cases h
  · cases h
  · cases h

section Sound
variable {s : Session} (hs : s.Sound)
include hs

/-- Of two transforms that are known, either both are one, or they have nothing in common. -/
theorem Sound.eq_or_apart {t u : Transform} (ht : s.Knows t) (hu : s.Knows u) :
    t = u ∨ t.Apart u := by
  obtain ⟨x, o, ho, ht⟩ := ht
  obtain ⟨y, o', ho', hu⟩ := hu
  by_cases hxy : x = y
  · subst y
    obtain rfl := ho.unique ho'
    have hsound := hs.object x o ho
    cases o with
    | draft v => exact Or.inl ((List.mem_singleton.mp ht).trans (List.mem_singleton.mp hu).symm)
    | handle v => exact Or.inl ((List.mem_singleton.mp ht).trans (List.mem_singleton.mp hu).symm)
    | graph g => exact Graph.Sound.eq_or_apart hsound ht hu
    | port | constant | edge => cases ht
  · rcases (hs.compatible x y o o' hxy ho ho').1.transforms t ht u hu with hap | ⟨heq, -⟩
    · exact Or.inr hap
    · exact Or.inl heq

theorem Sound.transform {t : Transform} (ht : s.Knows t) : t.Sound := by
  obtain ⟨x, o, ho, ht⟩ := ht
  have hsound := hs.object x o ho
  cases o with
  | draft v => exact List.mem_singleton.mp ht ▸ hsound
  | handle v => exact List.mem_singleton.mp ht ▸ hsound
  | graph g => exact Graph.Sound.transforms hsound t ht
  | port | constant | edge => cases ht

/-- An open transform is apart from everything that is registered. -/
theorem Sound.apart_draft {x y : String} {g : Graph} {t u : Transform}
    (hx : s.Holds x (.graph g)) (hy : s.Holds y (.draft t)) (hu : u ∈ g.transforms) :
    u.Apart t :=
  (hs.compatible x y _ _ (hx.ne hy nofun) hx hy).apart rfl hu (List.mem_singleton_self t)

/-- A loose port is in no transform and in no other variable. -/
theorem Sound.eq_of_loose {x : String} {p q : Port} (hp : s.Holds x (.port p)) (hq : s.HasPort q)
    (h : p.id = q.id) : p = q ∧ ∀ y o, s.Holds y o → q ∈ o.ports → x = y := by
  have hsame : ∀ y o, s.Holds y o → q ∈ o.ports → x = y := by
    intro y o ho hqo
    by_cases hxy : x = y
    · exact hxy
    · exact absurd h
        ((hs.compatible x y _ o hxy hp ho).1.loose p (List.mem_singleton_self p) q hqo)
  obtain ⟨y, o, ho, hqo⟩ := hq
  obtain rfl := hsame y o ho hqo
  obtain rfl := hp.unique ho
  exact ⟨(List.mem_singleton.mp hqo).symm, hsame⟩

/-- **No two ports share an identity.** -/
theorem Sound.port_unique {p q : Port} (hp : s.HasPort p) (hq : s.HasPort q) (h : p.id = q.id) :
    p = q := by
  have loose : ∀ {a b : Port} {x : String} {o : Object}, s.Holds x o → a ∈ o.loosePorts →
      s.HasPort b → a.id = b.id → a = b := by
    intro a b x o ho ha hb hid
    cases o with
    | port c =>
      obtain rfl := List.mem_singleton.mp ha
      exact (hs.eq_of_loose ho hb hid).1
    | _ => cases ha
  -- a loose port on either side settles it; otherwise both are in transforms
  obtain ⟨x, o, ho, hpo⟩ := hp
  rcases Object.mem_ports_iff.mp hpo with hpo' | ⟨t, ht, hpt⟩
  · exact loose ho hpo' hq h
  · obtain ⟨y, o', ho', hqo⟩ := hq
    rcases Object.mem_ports_iff.mp hqo with hqo' | ⟨u, hu, hqu⟩
    · exact (loose ho' hqo' ⟨x, o, ho, hpo⟩ h.symm).symm
    · rcases hs.eq_or_apart ⟨x, o, ho, ht⟩ ⟨y, o', ho', hu⟩ with rfl | hap
      · exact (hs.transform ⟨x, o, ho, ht⟩).eq_of_id_eq hpt hqu h
      · exact absurd (h ▸ Transform.hasId_of_mem hqu) (hap.ids _ (Transform.hasId_of_mem hpt))

/-- An edge between ports that are there respects every port that is there. -/
theorem Sound.respects {e : Edge} (he : e.Joins s.HasPort) {p : Port} (hp : s.HasPort p) :
    e.Respects p :=
  he.respects (fun _ _ ha hb h => hs.port_unique ha hb h) hp

theorem Sound.slot_lt {p : Port} (hp : s.HasPort p) : p.id.slot < s.workshop.nextPort := by
  obtain ⟨x, o, ho, hpo⟩ := hp
  exact (hs.below x o ho).slots p.id (Or.inl ⟨p, hpo, rfl⟩)

/-! ### Changing variables -/

theorem Sound.withWorkshop {w : Workshop} (hw : s.workshop.Precedes w) :
    (s.withWorkshop w).Sound where
  object := hs.object
  below x o ho := (hs.below x o ho).mono hw
  compatible := hs.compatible

theorem Sound.unbind (x : String) : (s.unbind x).Sound where
  object y o ho := hs.object y o (holds_unbind_iff.mp ho).2
  below y o ho := hs.below y o (holds_unbind_iff.mp ho).2
  compatible y z o o' hyz ho ho' :=
    hs.compatible y z o o' hyz (holds_unbind_iff.mp ho).2 (holds_unbind_iff.mp ho').2

/-- **Binding a variable**: only the new object has to be looked at. -/
theorem Sound.bind {x : String} {o : Object} (ho : o.Sound) (hb : o.Below s.workshop)
    (hc : ∀ y o', y ≠ x → s.Holds y o' → o.Compatible o') : (s.bind x o).Sound where
  object y o' h := by
    rcases holds_bind_iff.mp h with ⟨-, rfl⟩ | ⟨-, h⟩
    · exact ho
    · exact hs.object y o' h
  below y o' h := by
    rcases holds_bind_iff.mp h with ⟨-, rfl⟩ | ⟨-, h⟩
    · exact hb
    · exact hs.below y o' h
  compatible y z o₁ o₂ hyz h₁ h₂ := by
    rcases holds_bind_iff.mp h₁ with ⟨rfl, rfl⟩ | ⟨hy, h₁⟩
    · rcases holds_bind_iff.mp h₂ with ⟨rfl, -⟩ | ⟨hz, h₂⟩
      · exact absurd rfl hyz
      · exact hc z o₂ (Ne.symm hz) h₂
    · rcases holds_bind_iff.mp h₂ with ⟨rfl, rfl⟩ | ⟨-, h₂⟩
      · exact (hc y o₁ hyz h₁).symm
      · exact hs.compatible y z o₁ o₂ hyz h₁ h₂

end Sound

/-! ### New objects -/

theorem Creates.precedes {s : Session} {w : Workshop} {o : Object} (h : s.Creates w o) :
    s.workshop.Precedes w := by
  cases h with
  | port h =>
    obtain ⟨-, -, rfl⟩ := Port.create_eq_ok.mp h
    exact ⟨Nat.le_succ _, Nat.le_refl _⟩
  | constant => exact ⟨Nat.le_refl _, Nat.le_refl _⟩
  | draft h => exact (Workshop.make_makes h).precedes
  | @design d g w h =>
    have hw := d.precedes_build s.workshop
    rw [h] at hw
    exact hw
  | edge | relabel | graph | handle => exact Workshop.Precedes.refl _

/-- What a variable has to answer for when it is bound to a new object. -/
def Admits (s : Session) (w : Workshop) (o : Object) : Prop :=
  o.Sound ∧ o.Below w ∧ ∀ y o', s.Holds y o' → o.Compatible o'

section Creates
variable {s : Session} (hs : s.Sound)
include hs

/-- An object whose numbers have just been given out is compatible with all that is there. -/
theorem Sound.admits_new {w : Workshop} {o : Object} (ho : o.Sound) (hf : o.From s.workshop)
    (hb : o.Below w) : s.Admits w o :=
  ⟨ho, hb, fun y o' h => Object.compatible_of_from hf (hs.below y o' h)⟩

theorem Sound.admits_port {name : String} {type : PortType} {d : Direction} {p : Port} {n : Nat}
    (h : Port.create name type d s.workshop.nextPort = (n, .ok p)) (hn : n ≤ 4294967295) :
    s.Admits { s.workshop with nextPort := n } (.port p) := by
  obtain ⟨-, hp, rfl⟩ := Port.create_eq_ok.mp h
  have hslot : p.id.slot = s.workshop.nextPort := by
    rw [← hp]
    exact Ident.slot_ofCounter_of_lt hn
  refine hs.admits_new trivial ⟨?_, ?_⟩ ⟨?_, ?_⟩
  · intro v hv
    exact Nat.le_of_eq (by rw [← Object.uses_port_iff.mp hv, hslot])
  · intro t hnil
    cases hnil
  · intro v hv
    rw [← Object.uses_port_iff.mp hv, hslot]
    exact Nat.lt_succ_self _
  · intro t hnil
    cases hnil

theorem Sound.admits_draft {w : Workshop} {t : Transform} (h : s.workshop.Makes w t)
    (hb : w.nextPort ≤ 4294967295) : s.Admits w (.draft t) := by
  have hslot : ∀ v, (Object.draft t).Uses v → s.workshop.nextPort ≤ v.slot ∧ v.slot < w.nextPort :=
    fun v hv => h.slot_of_hasId hb (Object.uses_draft_iff.mp hv)
  have hserial : ∀ u ∈ (Object.draft t).transforms, u.serial = s.workshop.nextSerial := by
    intro u hu
    rw [List.mem_singleton.mp hu]
    exact h.serial
  refine hs.admits_new (h.sound hb) ⟨fun v hv => (hslot v hv).1, ?_⟩
    ⟨fun v hv => (hslot v hv).2, ?_⟩
  · intro u hu
    exact Nat.le_of_eq (hserial u hu).symm
  · intro u hu
    rw [hserial u hu, h.nextSerial]
    exact Nat.lt_succ_self _

theorem Sound.admits_graph {g : Graph} {w : Workshop} (hg : g.Sound)
    (hm : g.MadeBetween s.workshop w) : s.Admits w (.graph g) := by
  have huses : ∀ v, (Object.graph g).Uses v → g.Owns v := by
    rintro v (⟨p, hp, rfl⟩ | ⟨e, he, hv⟩)
    · rcases Object.mem_ports_iff.mp hp with hp | ⟨t, ht, hp⟩
      · cases hp
      · exact ⟨t, ht, Transform.hasId_of_mem hp⟩
    · obtain ⟨⟨t, ht, p, hp, hps, -⟩, u, hu, q, hq, hqd, -⟩ := hg.edges e he
      rcases hv with rfl | rfl
      · exact ⟨t, ht, hps ▸ Transform.hasId_of_mem hp⟩
      · exact ⟨u, hu, hqd ▸ Transform.hasId_of_mem hq⟩
  exact hs.admits_new hg
    ⟨fun v hv => (hm.slots v (huses v hv)).1, fun t ht => (hm.serials t ht).1⟩
    ⟨fun v hv => (hm.slots v (huses v hv)).2, fun t ht => (hm.serials t ht).2⟩

theorem Sound.admits_edge {e : Edge} (h : e.Joins s.HasPort) :
    s.Admits s.workshop (.edge e) := by
  obtain ⟨p, q, hp, hq, -, -, hsrc, hdst⟩ := id h
  have hslot : ∀ v, (Object.edge e).Uses v → v.slot < s.workshop.nextPort := by
    intro v hv
    rcases Object.uses_edge_iff.mp hv with rfl | rfl
    · exact hsrc ▸ hs.slot_lt hp
    · exact hdst ▸ hs.slot_lt hq
  refine ⟨trivial, ⟨hslot, ?_⟩, fun y o' ho' => ⟨⟨?_, ?_, ?_⟩, ⟨?_, ?_, ?_⟩⟩⟩
  · intro t hnil
    cases hnil
  · intro r hnil
    cases hnil
  · intro t hnil
    cases hnil
  · -- the only thing that an edge can be wrong about is a direction
    intro e' he' r hr
    rw [List.mem_singleton.mp he']
    exact hs.respects h ⟨y, o', ho', hr⟩
  · intro _ _ r hnil
    cases hnil
  · intro _ _ t hnil
    cases hnil
  · intro _ _ r hnil
    cases hnil

/-- A copy of an edge under another label is as good as the edge. -/
theorem Sound.admits_relabel {x : String} {e : Edge} (hx : s.Holds x (.edge e)) (label : String) :
    s.Admits s.workshop (.edge (e.named label)) := by
  have hparts : ∀ o', (Object.edge (e.named label)).PartsFrom [.edge e] o' := by
    intro o'
    refine ⟨?_, ?_, ?_⟩
    · intro p hnil
      cases hnil
    · intro t hnil
      cases hnil
    · intro e' he'
      rw [List.mem_singleton.mp he']
      exact ⟨.edge e, List.mem_singleton_self _, e, List.mem_singleton_self _, rfl, rfl⟩
  have hbelow : ∀ a ∈ [Object.edge e], a.Below s.workshop :=
    List.forall_mem_singleton.mpr (hs.below x _ hx)
  refine ⟨trivial, (hparts (.edge e)).below hbelow, fun y o' ho' => ?_⟩
  apply (hparts o').compatible
  rw [List.forall_mem_singleton]
  by_cases hxy : x = y
  · subst y
    obtain rfl := hx.unique ho'
    exact Object.compatible_edge_edge e e
  · exact hs.compatible x y _ o' hxy hx ho'

/-- **A registered transform may have any number of handles.** -/
theorem Sound.admits_handle {x : String} {g : Graph} {t : Transform} (hx : s.Holds x (.graph g))
    (ht : t ∈ g.transforms) : s.Admits s.workshop (.handle t) := by
  have hg : g.Sound := hs.object x _ hx
  have hparts := Object.partsFrom_handle ht
  have hbelow : ∀ a ∈ [Object.graph g], a.Below s.workshop :=
    List.forall_mem_singleton.mpr (hs.below x _ hx)
  refine ⟨hg.transforms t ht, (hparts (.graph g)).below hbelow, fun y o' ho' => ?_⟩
  by_cases hxy : x = y
  · subst y
    obtain rfl := hx.unique ho'
    exact Object.compatible_handle_graph hg ht
  · apply (hparts o').compatible
    rw [List.forall_mem_singleton]
    exact hs.compatible x y _ o' hxy hx ho'

/-- **A new object fits in**, below the limit of the counter. -/
theorem Sound.admits {w : Workshop} {o : Object} (h : s.Creates w o)
    (hb : w.nextPort ≤ 4294967295) : s.Admits w o := by
  cases h with
  | port h => exact hs.admits_port h hb
  | @constant _ _ c store hc =>
    have hnone := Object.not_uses_constant c
    refine hs.admits_new trivial ⟨fun v hv => absurd hv (hnone v), ?_⟩
      ⟨fun v hv => absurd hv (hnone v), ?_⟩
    · intro t hnil
      cases hnil
    · intro t hnil
      cases hnil
  | draft h => exact hs.admits_draft (Workshop.make_makes h) hb
  | edge h => exact hs.admits_edge h
  | relabel hx label => exact hs.admits_relabel hx label
  | graph name => exact hs.admits_graph (Graph.sound_empty name) (Graph.madeBetween_empty name _ _)
  | design h =>
    obtain ⟨hg, hm⟩ := Design.build_spec h hb
    exact hs.admits_graph hg hm
  | handle hx ht => exact hs.admits_handle hx ht

end Creates

end Session

end Dataflow
