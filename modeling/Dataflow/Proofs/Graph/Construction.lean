import Dataflow.Design
import Dataflow.Proofs.Graph.Registration

/-!
# Graphs built from a design

A design is built by the ordinary operations: its transforms are made and registered one after
another, then its links.  What is made on the way has identities and serials from the counters of
that time (`Graph.MadeBetween`), so a transform that is about to be registered is never one that is
there already, and below the limit of the counter the graph is sound at every moment
(`Workshop.addPlans_spec`, `Design.build_spec`).

That a built-in design is built at all does not depend on the counter: its names are in order, and the
index covers every port that comes in, whatever its identity is (`Design.find?_build_ok`).
-/

namespace Dataflow

/-! ## Made transforms -/

namespace Workshop
variable {w w' : Workshop} {t : Transform}

theorem Makes.precedes (h : w.Makes w' t) : w.Precedes w' := by
  obtain ⟨k, hk, -⟩ := h.ids
  exact ⟨by omega, by rw [h.nextSerial]; exact Nat.le_succ _⟩

/-- Below the limit, the ports of a made transform have identities that were not there before. -/
theorem Makes.slot_of_hasId (h : w.Makes w' t) (hb : w'.nextPort ≤ 4294967295) {v : Ident}
    (hv : t.hasId v = true) : w.nextPort ≤ v.slot ∧ v.slot < w'.nextPort := by
  obtain ⟨k, hk, hids⟩ := h.ids
  have hm := hids.subset (List.mem_map.mpr (Transform.hasId_iff.mp hv))
  obtain ⟨n, hn, rfl⟩ := List.mem_map.mp hm
  rw [List.mem_range'_1] at hn
  rw [Ident.slot_ofCounter_of_lt (by omega)]
  omega

/-- Below the limit, a made transform is sound. -/
theorem Makes.sound (h : w.Makes w' t) (hb : w'.nextPort ≤ 4294967295) : t.Sound where
  toInOrder := h.inOrder
  ids := by
    obtain ⟨k, hk, hids⟩ := h.ids
    rw [hids.nodup_iff]
    refine List.Nodup.map_on (fun m hm n hn heq => ?_) List.nodup_range'
    rw [List.mem_range'_1] at hm hn
    -- the counter did not wrap, so different numbers are different identities
    exact Ident.ofCounter_inj (by omega) (by omega) heq

end Workshop

/-! ## What was made between two moments -/

namespace Graph

/-- **Everything in the graph was made between the two moments**, by the counters of these. -/
structure MadeBetween (g : Graph) (w w' : Workshop) : Prop where
  slots : ∀ v, g.Owns v → w.nextPort ≤ v.slot ∧ v.slot < w'.nextPort
  serials : ∀ t ∈ g.transforms, w.nextSerial ≤ t.serial ∧ t.serial < w'.nextSerial

section MadeBetween
variable {g : Graph} {w₀ w w' : Workshop} {t : Transform}

theorem madeBetween_empty (name : String) (w w' : Workshop) : (empty name).MadeBetween w w' where
  slots := by simp [empty, Owns]
  serials := by simp [empty]

theorem MadeBetween.mono (h : g.MadeBetween w₀ w) (hw : w.Precedes w') : g.MadeBetween w₀ w' where
  slots v hv := ⟨(h.slots v hv).1, Nat.lt_of_lt_of_le (h.slots v hv).2 hw.nextPort⟩
  serials t ht := ⟨(h.serials t ht).1, Nat.lt_of_lt_of_le (h.serials t ht).2 hw.nextSerial⟩

theorem MadeBetween.of_transforms_eq {g' : Graph} (h : g.MadeBetween w w')
    (he : g'.transforms = g.transforms) : g'.MadeBetween w w' where
  slots v := by
    unfold Owns
    rw [he]
    exact h.slots v
  serials := he ▸ h.serials

/-- What is made now has nothing in common with what was made before. -/
theorem MadeBetween.apart (h : g.MadeBetween w₀ w) (ht : w.Makes w' t)
    (hb : w'.nextPort ≤ 4294967295) : ∀ u ∈ g.transforms, u.Apart t := by
  intro u hu
  constructor
  · have hold := (h.serials u hu).2
    have hnew := ht.serial
    omega
  · intro v huv htv
    have hold := (h.slots v ⟨u, hu, huv⟩).2
    have hnew := (ht.slot_of_hasId hb htv).1
    omega

theorem MadeBetween.appendTransform (h : g.MadeBetween w₀ w) (hw : w₀.Precedes w)
    (ht : w.Makes w' t) (hb : w'.nextPort ≤ 4294967295) :
    (g.appendTransform t).MadeBetween w₀ w' where
  slots := by
    rintro v ⟨u, hu, hv⟩
    rcases List.mem_append.mp hu with hu | hu
    · exact (h.mono ht.precedes).slots v ⟨u, hu, hv⟩
    · obtain rfl := List.mem_singleton.mp hu
      obtain ⟨hlo, hhi⟩ := ht.slot_of_hasId hb hv
      exact ⟨Nat.le_trans hw.nextPort hlo, hhi⟩
  serials := by
    intro u hu
    rcases List.mem_append.mp hu with hu | hu
    · exact (h.mono ht.precedes).serials u hu
    · obtain rfl := List.mem_singleton.mp hu
      rw [ht.serial, ht.nextSerial]
      exact ⟨hw.nextSerial, Nat.lt_succ_self _⟩

end MadeBetween

end Graph

/-! ## Plans -/

namespace Workshop

/-- **A step of making and registering planned transforms**: either the work ends with a refusal,
or the first plan is made and registered and the work goes on. -/
theorem addPlans_cons_cases (plan : Plan) (rest : List Plan) (w : Workshop) (g : Graph) :
    (∃ w' e, addPlans (plan :: rest) w g = (w', .error e) ∧ w.Precedes w') ∨
      ∃ w₁ t event, w.make plan = (w₁, .ok t) ∧ g.slots.contains t.name = false ∧
        addPlans (plan :: rest) w g = addPlans rest (w₁.record event) (g.appendTransform t) := by
  have hw := w.make_precedes plan
  rcases hmake : w.make plan with ⟨w₁, e | t⟩
  · rw [hmake] at hw
    exact Or.inl ⟨w₁, e, by simp only [addPlans, hmake], hw⟩
  · rw [hmake] at hw
    cases hname : g.slots.contains t.name with
    | true =>
      refine Or.inl ⟨w₁.record (.nameTaken g.name t.name), .duplicateName t.name (.transforms g.name),
        ?_, hw.nextPort, hw.nextSerial⟩
      simp only [addPlans, hmake, Workshop.addTransform, Graph.addTransform_of_taken hname]
      rfl
    | false =>
      refine Or.inr ⟨w₁, t, .transformRegistered g.name g.nextSlot t.signature, rfl, hname, ?_⟩
      simp only [addPlans, hmake, Workshop.addTransform, Graph.addTransform_of_new hname]
      rfl

theorem record_precedes (w : Workshop) (event : Event) : w.Precedes (w.record event) :=
  ⟨Nat.le_refl _, Nat.le_refl _⟩

theorem addPlans_precedes (plans : List Plan) (w : Workshop) (g : Graph) :
    w.Precedes (w.addPlans plans g).1 := by
  induction plans generalizing w g with
  | nil => exact Precedes.refl w
  | cons plan rest ih =>
    rcases addPlans_cons_cases plan rest w g with ⟨w', e, heq, hw⟩ | ⟨w₁, t, event, hmake, -, heq⟩
    · rw [heq]
      exact hw
    · rw [heq]
      exact ((make_makes hmake).precedes.trans (record_precedes w₁ event)).trans (ih _ _)

/-- **Registering planned transforms keeps the graph sound**, below the limit of the counter. -/
theorem addPlans_spec {plans : List Plan} {w₀ w w' : Workshop} {g g' : Graph} (hw : w₀.Precedes w)
    (hg : g.Sound) (hm : g.MadeBetween w₀ w) (h : w.addPlans plans g = (w', .ok g'))
    (hb : w'.nextPort ≤ 4294967295) : g'.Sound ∧ g'.MadeBetween w₀ w' := by
  induction plans generalizing w g with
  | nil =>
    cases h
    exact ⟨hg, hm⟩
  | cons plan rest ih =>
    rcases addPlans_cons_cases plan rest w g with ⟨w', e, heq, -⟩ | ⟨w₁, t, event, hmake, hname, heq⟩
    · rw [heq] at h
      cases h
    · rw [heq] at h
      have hmade := make_makes hmake
      have hrec := record_precedes w₁ event
      have hlater := addPlans_precedes rest (w₁.record event) (g.appendTransform t)
      rw [h] at hlater
      have hb₁ : w₁.nextPort ≤ 4294967295 := Nat.le_trans (hrec.trans hlater).nextPort hb
      -- everything in `g` was made before `t`, so `t` comes in as a stranger
      exact ih ((hw.trans hmade.precedes).trans hrec)
        (hg.appendTransform (hmade.sound hb₁) (hm.apart hmade hb₁) hname)
        ((hm.appendTransform hw hmade hb₁).mono hrec) h

/-- Every transform of a graph that plans were added to was there before or was made. -/
theorem mem_transforms_addPlans {plans : List Plan} {w w' : Workshop} {g g' : Graph}
    (h : w.addPlans plans g = (w', .ok g')) {t : Transform} (ht : t ∈ g'.transforms) :
    t ∈ g.transforms ∨ ∃ plan, ∃ w₁ w₂ : Workshop, w₁.make plan = (w₂, .ok t) := by
  induction plans generalizing w g with
  | nil =>
    cases h
    exact Or.inl ht
  | cons plan rest ih =>
    rcases addPlans_cons_cases plan rest w g with ⟨w', e, heq, -⟩ | ⟨w₁, u, event, hmake, -, heq⟩
    · rw [heq] at h
      cases h
    · rw [heq] at h
      rcases ih h with hold | hmade
      · rcases List.mem_append.mp hold with hold | hnew
        · exact Or.inl hold
        · obtain rfl := List.mem_singleton.mp hnew
          exact Or.inr ⟨plan, w, w₁, hmake⟩
      · exact Or.inr hmade

end Workshop

/-! ## Links -/

theorem Socket.mem_transforms_of_transformIn {g : Graph} {name : String} {t : Transform}
    (h : transformIn g name = .ok t) : t ∈ g.transforms := by
  unfold transformIn at h
  split at h
  · rename_i u hu
    cases h
    exact Graph.mem_transforms_of_transform? hu
  · cases h

/-- A side of a link stands for registered ports. -/
theorem Socket.hasPort_of_endpoint {g : Graph} {socket : Socket} {a : Endpoint}
    (h : socket.endpoint g = .ok a) {p : Port} (hp : p ∈ a.ports) : g.HasPort p := by
  cases socket with
  | whole name =>
    obtain ⟨t, ht, h⟩ := bind_eq_ok.mp h
    cases h
    exact ⟨t, mem_transforms_of_transformIn ht, hp⟩
  | port name port =>
    obtain ⟨t, ht, h⟩ := bind_eq_ok.mp h
    obtain ⟨q, hq, h⟩ := bind_eq_ok.mp h
    cases h
    rw [List.mem_singleton.mp hp]
    exact ⟨t, mem_transforms_of_transformIn ht, Transform.mem_ports_of_port hq⟩
  | output name i =>
    obtain ⟨t, ht, h⟩ := bind_eq_ok.mp h
    obtain ⟨q, hq, h⟩ := bind_eq_ok.mp h
    cases h
    rw [List.mem_singleton.mp hp]
    exact ⟨t, mem_transforms_of_transformIn ht, Transform.mem_ports_of_portAt hq⟩

/-- The edge of a link joins registered ports. -/
theorem Link.joins_of_edge {g : Graph} {link : Link} {e : Edge} (h : link.edge g = .ok e) :
    e.Joins g.HasPort := by
  obtain ⟨a, ha, h⟩ := bind_eq_ok.mp h
  obtain ⟨b, hb, h⟩ := bind_eq_ok.mp h
  obtain ⟨e₀, he, h⟩ := bind_eq_ok.mp h
  have hjoins : e₀.Joins g.HasPort := by
    refine (joins_of_connect he).mono fun p hp => ?_
    rcases hp with hp | hp
    · exact Socket.hasPort_of_endpoint ha hp
    · exact Socket.hasPort_of_endpoint hb hp
  cases hl : link.label with
  | none =>
    rw [hl] at h
    cases h
    exact hjoins
  | some label =>
    rw [hl] at h
    cases h
    exact hjoins

namespace Workshop

/-- **A step of making and registering links**: either the work ends with a refusal, or the edge of
the first link is registered and the work goes on. -/
theorem addLinks_cons_cases (link : Link) (rest : List Link) (w : Workshop) (g : Graph) :
    (∃ w' e, addLinks (link :: rest) w g = (w', .error e) ∧ w.Precedes w') ∨
      ∃ e event, link.edge g = .ok e ∧ g.ownerlessEnd? e = none ∧
        addLinks (link :: rest) w g = addLinks rest (w.record event) (g.appendEdge e) := by
  cases hmake : link.edge g with
  | error e => exact Or.inl ⟨w, e, by simp only [addLinks, hmake], Precedes.refl w⟩
  | ok e =>
    cases hend : g.ownerlessEnd? e with
    | some missing =>
      obtain ⟨side, id⟩ := missing
      refine Or.inl ⟨w.record (.noOwner g.name side id), .danglingReference side id g.name, ?_,
        record_precedes w _⟩
      simp only [addLinks, hmake, Workshop.addEdge, Graph.addEdge_of_ownerless hend]
      rfl
    | none =>
      refine Or.inr ⟨e, .edgeRegistered g.name (g.describe e), rfl, hend, ?_⟩
      simp only [addLinks, hmake, Workshop.addEdge, Graph.addEdge_of_owned hend]
      rfl

theorem addLinks_precedes (links : List Link) (w : Workshop) (g : Graph) :
    w.Precedes (w.addLinks links g).1 := by
  induction links generalizing w g with
  | nil => exact Precedes.refl w
  | cons link rest ih =>
    rcases addLinks_cons_cases link rest w g with ⟨w', e, heq, hw⟩ | ⟨e, event, -, -, heq⟩
    · rw [heq]
      exact hw
    · rw [heq]
      exact (record_precedes w event).trans (ih _ _)

/-- **What every registered link keeps** holds when all links are registered. -/
theorem addLinks_invariant {P : Workshop → Graph → Prop} {links : List Link} {w w' : Workshop}
    {g g' : Graph} (hstep : ∀ w g (link : Link) e event, link.edge g = .ok e →
      g.ownerlessEnd? e = none → P w g → P (w.record event) (g.appendEdge e))
    (hp : P w g) (h : w.addLinks links g = (w', .ok g')) : P w' g' := by
  induction links generalizing w g with
  | nil =>
    cases h
    exact hp
  | cons link rest ih =>
    rcases addLinks_cons_cases link rest w g with ⟨w', e, heq, -⟩ | ⟨e, event, hmake, hend, heq⟩
    · rw [heq] at h
      cases h
    · rw [heq] at h
      exact ih (hstep w g link e event hmake hend hp) h

section Links
variable {links : List Link} {w w' : Workshop} {g g' : Graph}
  (h : w.addLinks links g = (w', .ok g'))
include h

/-- Registering links leaves the table of names as it is. -/
theorem addLinks_slots : g'.slots = g.slots :=
  addLinks_invariant (P := fun _ g₁ => g₁.slots = g.slots) (fun _ _ _ _ _ _ _ hg => hg) rfl h

/-- Registering links makes nothing that has a value or a serial. -/
theorem addLinks_store : w'.store = w.store ∧ w'.nextSerial = w.nextSerial :=
  addLinks_invariant (P := fun w₁ _ => w₁.store = w.store ∧ w₁.nextSerial = w.nextSerial)
    (fun _ _ _ _ _ _ _ hw => hw) ⟨rfl, rfl⟩ h

/-- **Registering links keeps the graph sound** and its transforms as they are. -/
theorem addLinks_spec : g'.transforms = g.transforms ∧ (g.Sound → g'.Sound) := by
  refine addLinks_invariant (P := fun _ g₁ => g₁.transforms = g.transforms ∧ (g.Sound → g₁.Sound))
    (fun w₁ g₁ link e event hmake hend hg₁ => ⟨hg₁.1, fun hg => ?_⟩) ⟨rfl, id⟩ h
  have hsound := hg₁.2 hg
  refine hsound.appendEdge (fun p hp => ?_) hend
  exact (Link.joins_of_edge hmake).respects (fun p q => hsound.port_unique) hp

end Links

end Workshop

/-! ## Designs -/

namespace Design

/-- A design that is built went through all its plans and all its links. -/
theorem build_eq_ok {d : Design} {w w' : Workshop} {g : Graph} (h : d.build w = (w', .ok g)) :
    ∃ w₁ g₁, w.addPlans d.plans (Graph.empty d.name) = (w₁, .ok g₁) ∧
      w₁.addLinks d.links g₁ = (w', .ok g) := by
  unfold build at h
  split at h
  · cases h
  · rename_i w₁ g₁ hplans
    exact ⟨w₁, g₁, hplans, h⟩

/-- Building never sets a counter back, whatever comes of it. -/
theorem precedes_build (d : Design) (w : Workshop) : w.Precedes (d.build w).1 := by
  have hplans := w.addPlans_precedes d.plans (Graph.empty d.name)
  unfold build
  rcases h : w.addPlans d.plans (Graph.empty d.name) with ⟨w₁, e | g⟩
  · rw [h] at hplans
    exact hplans
  · rw [h] at hplans
    exact hplans.trans (w₁.addLinks_precedes d.links g)

/-- **A design that is built is a sound graph** of its own making, below the limit of the
counter. -/
theorem build_spec {d : Design} {w w' : Workshop} {g : Graph} (h : d.build w = (w', .ok g))
    (hb : w'.nextPort ≤ 4294967295) : g.Sound ∧ g.MadeBetween w w' := by
  obtain ⟨w₁, g₁, hplans, hlinks⟩ := build_eq_ok h
  have hl := w₁.addLinks_precedes d.links g₁
  rw [hlinks] at hl
  obtain ⟨hg₁, hm₁⟩ := Workshop.addPlans_spec (Workshop.Precedes.refl w) (Graph.sound_empty d.name)
    (Graph.madeBetween_empty d.name w w) hplans (Nat.le_trans hl.nextPort hb)
  obtain ⟨hts, hsound⟩ := Workshop.addLinks_spec hlinks
  exact ⟨hsound hg₁, (hm₁.mono hl).of_transforms_eq hts⟩

/-- Every transform of a built design was made for it. -/
theorem make_of_build {d : Design} {w w' : Workshop} {g : Graph} (h : d.build w = (w', .ok g))
    {t : Transform} (ht : t ∈ g.transforms) :
    ∃ plan, ∃ w₁ w₂ : Workshop, w₁.make plan = (w₂, .ok t) := by
  obtain ⟨w₁, g₁, hplans, hlinks⟩ := build_eq_ok h
  rw [(Workshop.addLinks_spec hlinks).1] at ht
  rcases Workshop.mem_transforms_addPlans hplans ht with hold | hmade
  · cases hold
  · exact hmade

end Design

/-! ## Designs that are always built -/

namespace Graph

/-- Every registered port is in the parent index, under whatever slot. -/
def Covers (g : Graph) : Prop := ∀ p, g.HasPort p → g.parents.contains p.id = true

theorem covers_empty (name : String) : (empty name).Covers := by
  rintro p ⟨t, ht, -⟩
  cases ht

/-- No entry of the index is lost when further ports are entered, also under identities that are
there already. -/
theorem Covers.appendTransform {g : Graph} (hg : g.Covers) (t : Transform) :
    (g.appendTransform t).Covers := by
  rintro p ⟨u, hu, hp⟩
  show (g.parents.enter g.nextSlot t).contains p.id = true
  rw [Table.contains_eq, ParentIndex.get?_enter]
  split
  · rfl
  · rename_i hnot
    rcases List.mem_append.mp hu with hold | hnew
    · exact hg p ⟨u, hold, hp⟩
    · obtain rfl := List.mem_singleton.mp hnew
      exact absurd (Transform.hasId_of_mem hp) hnot

theorem Covers.ownerlessEnd?_eq_none {g : Graph} (hg : g.Covers) {e : Edge}
    (he : e.Joins g.HasPort) : g.ownerlessEnd? e = none := by
  obtain ⟨a, b, ha, hb, -, -, hsrc, hdst⟩ := he
  exact ownerlessEnd?_eq_none_iff.mpr ⟨hsrc ▸ hg a ha, hdst ▸ hg b hb⟩

end Graph

namespace Workshop

theorem addPlans_covers {plans : List Plan} {w w' : Workshop} {g g' : Graph} (hg : g.Covers)
    (h : w.addPlans plans g = (w', .ok g')) : g'.Covers := by
  induction plans generalizing w g with
  | nil =>
    cases h
    exact hg
  | cons plan rest ih =>
    rcases addPlans_cons_cases plan rest w g with ⟨w', e, heq, -⟩ | ⟨w₁, t, event, -, -, heq⟩
    · rw [heq] at h
      cases h
    · rw [heq] at h
      exact ih (hg.appendTransform t) h

/-- Links whose sockets are there are all registered. -/
theorem addLinks_ok {links : List Link} (w : Workshop) {g : Graph} (hg : g.Covers)
    (h : ∀ link ∈ links, ∃ e, link.edge g = .ok e) : ∃ w' g', w.addLinks links g = (w', .ok g') := by
  induction links generalizing w g with
  | nil => exact ⟨w, g, rfl⟩
  | cons link rest ih =>
    obtain ⟨⟨e, he⟩, hrest⟩ := List.forall_mem_cons.mp h
    have hend := hg.ownerlessEnd?_eq_none (Link.joins_of_edge he)
    have hstep : addLinks (link :: rest) w g =
        addLinks rest (w.record (.edgeRegistered g.name (g.describe e))) (g.appendEdge e) := by
      simp only [addLinks, he, Workshop.addEdge, Graph.addEdge_of_owned hend]
      rfl
    rw [hstep]
    -- a link is looked up among the transforms, so the edges that were registered do not matter
    exact ih _ hg hrest

end Workshop

namespace Design

theorem build_ok {d : Design} {w w₁ : Workshop} {g₁ : Graph}
    (hplans : w.addPlans d.plans (Graph.empty d.name) = (w₁, .ok g₁))
    (hlinks : ∀ link ∈ d.links, ∃ e, link.edge g₁ = .ok e) :
    ∃ w' g, d.build w = (w', .ok g) := by
  obtain ⟨w', g, hok⟩ := Workshop.addLinks_ok w₁
    (Workshop.addPlans_covers (Graph.covers_empty d.name) hplans) hlinks
  exact ⟨w', g, by simp only [build, hplans, hok]⟩

theorem adder_build_ok (w : Workshop) : ∃ w' g, adder.build w = (w', .ok g) := by
  refine build_ok rfl ?_
  simp only [adder, List.forall_mem_cons]
  exact ⟨⟨_, rfl⟩, ⟨_, rfl⟩, ⟨_, rfl⟩, by simp⟩

theorem stream_build_ok (w : Workshop) : ∃ w' g, stream.build w = (w', .ok g) := by
  refine build_ok rfl ?_
  simp only [stream, List.forall_mem_cons]
  exact ⟨⟨_, rfl⟩, ⟨_, rfl⟩, by simp⟩

/-- **The built-in designs are built in every workshop**, also in one whose counter starts over on
the way. -/
theorem find?_build_ok {name : String} {d : Design} (h : find? name = some d) (w : Workshop) :
    ∃ w' g, d.build w = (w', .ok g) := by
  have hd : d ∈ all := List.mem_of_find?_eq_some h
  simp only [all, List.mem_cons, List.not_mem_nil, or_false] at hd
  rcases hd with rfl | rfl
  · exact adder_build_ok w
  · exact stream_build_ok w

end Design

end Dataflow
