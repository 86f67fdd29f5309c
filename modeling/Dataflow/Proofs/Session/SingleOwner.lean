import Dataflow.Proofs.Session.Graphs
import Mathlib.Data.List.Induction

/-!
# Single ownership

Nothing in a graph checks that a port comes in only once, and yet it does.  An identity belongs to
one port, and the port has one keeper (`Session.Keeper`): a variable, or a transform.  A transform
that is registered sits in one graph at one place (`Session.SingleOwner`).

Therefore a registration never meets a port that is in the index of any graph
(`Session.EntersAfresh`), whether a step asks for the registration or the building of a design
comes to it (`Session.Registers`).  Both hold along every ordinary run
(`Session.singleOwner_of_ordinary`).
-/

namespace Dataflow

namespace Graph
variable {g : Graph}

/-! ## Owners in one graph -/

theorem Sound.owns_of_ownerOfId (hg : g.Sound) {v : Ident} {t : Transform}
    (h : g.ownerOfId v = .ok t) : g.Owns v := by
  obtain ⟨k, hk, -⟩ := Option.bind_eq_some_iff.mp (ownerOfId_eq_ok_iff.mp h)
  refine hg.parents.contains_iff.mp ?_
  rw [Table.contains_eq, hk]
  exact Option.isSome_some

theorem Sound.owns_source_of_addEdge (hg : g.Sound) {e : Edge}
    (h : (g.addEdge e).result = .ok ()) : g.Owns e.source := by
  cases hend : g.ownerlessEnd? e with
  | none => exact hg.parents.contains_iff.mp (ownerlessEnd?_eq_none_iff.mp hend).1
  | some missing =>
    rw [addEdge_of_ownerless hend] at h
    cases h

end Graph

namespace Session
variable {s s' : Session} {x y : String}

/-! ## Keepers -/

/-- Where a port is kept: alone in a variable, or inside the transform with this serial. -/
inductive Keeper
  | alone (x : String)
  | inside (serial : Nat)

/-- The port is kept there. -/
inductive Keeps (s : Session) : Keeper → Port → Prop
  | alone {x : String} {p : Port} (hx : s.Holds x (.port p)) : Keeps s (.alone x) p
  | inside {t : Transform} {p : Port} (ht : s.Knows t) (hp : p ∈ t.ports) :
      Keeps s (.inside t.serial) p

theorem Keeps.hasPort {k : Keeper} {p : Port} (h : s.Keeps k p) : s.HasPort p := by
  cases h with
  | alone hx => exact ⟨_, _, hx, List.mem_singleton_self p⟩
  | inside ht hp => exact ht.hasPort hp

/-- The graph in the variable has the transform at this place of its list. -/
def Lists (s : Session) (x : String) (i : Nat) (t : Transform) : Prop :=
  ∃ g, s.Holds x (.graph g) ∧ g.transforms[i]? = some t

/-- **Every port has one keeper, and every registered transform has one place.** -/
structure SingleOwner (s : Session) : Prop where
  /-- An identity belongs to one port, and this port has one keeper. -/
  port : ∀ p q k k', s.Keeps k p → s.Keeps k' q → p.id = q.id → p = q ∧ k = k'
  /-- A transform has each of its ports once. -/
  ids : ∀ t, s.Knows t → (t.ports.map (·.id)).Nodup
  /-- A serial belongs to one transform. -/
  serial : ∀ t u, s.Knows t → s.Knows u → t.serial = u.serial → t = u
  /-- A transform that is open is in no other variable, and in no graph. -/
  draft : ∀ x y t u o, s.Holds x (.draft t) → s.Holds y o → u ∈ o.transforms →
    u.serial = t.serial → y = x
  /-- A transform is registered in one graph, at one place. -/
  place : ∀ x y i j t u, s.Lists x i t → s.Lists y j u → t.serial = u.serial → x = y ∧ i = j
  /-- A port has an owner in one graph only. -/
  ownerOfId : ∀ x y g g' v t u, s.Holds x (.graph g) → s.Holds y (.graph g') →
    g.ownerOfId v = .ok t → g'.ownerOfId v = .ok u → x = y
  /-- An edge is accepted by one graph only. -/
  addEdge : ∀ x y g g' e, s.Holds x (.graph g) → s.Holds y (.graph g') →
    (g.addEdge e).result = .ok () → (g'.addEdge e).result = .ok () → x = y

section Sound
variable (hs : s.Sound)
include hs

theorem Sound.eq_of_serial_eq {t u : Transform} (ht : s.Knows t) (hu : s.Knows u)
    (h : t.serial = u.serial) : t = u := by
  rcases hs.eq_or_apart ht hu with heq | hap
  · exact heq
  · exact absurd h hap.serial

theorem Sound.keeper_unique {p q : Port} {k k' : Keeper} (hp : s.Keeps k p) (hq : s.Keeps k' q)
    (h : p.id = q.id) : k = k' := by
  -- a loose port has no other keeper, whichever of the two it is
  have loose : ∀ {x : String} {a b : Port} {k : Keeper}, s.Holds x (.port a) → s.Keeps k b →
      a.id = b.id → Keeper.alone x = k := by
    intro x a b k hx hb hid
    cases hb with
    | @alone y _ hy =>
      have hport : s.HasPort b := ⟨y, _, hy, List.mem_singleton_self b⟩
      exact congrArg Keeper.alone
        ((hs.eq_of_loose hx hport hid).2 y _ hy (List.mem_singleton_self b))
    | @inside t _ ht hbt =>
      obtain ⟨y, o, ho, hto⟩ := ht
      have hbo : b ∈ o.ports := Object.mem_ports_of_mem hto hbt
      obtain ⟨-, hsame⟩ := hs.eq_of_loose hx ⟨y, o, ho, hbo⟩ hid
      obtain rfl := hsame y o ho hbo
      obtain rfl := hx.unique ho
      cases hto
  cases hp with
  | alone hx => exact loose hx hq h
  | @inside t _ ht hpt =>
    cases hq with
    | alone hy => exact (loose hy (.inside ht hpt) h.symm).symm
    | @inside u _ hu hqu =>
      rcases hs.eq_or_apart ht hu with rfl | hap
      · rfl
      · exact absurd (h ▸ Transform.hasId_of_mem hqu) (hap.ids _ (Transform.hasId_of_mem hpt))

/-- Two graphs have nothing in common. -/
theorem Sound.graphs_apart {g g' : Graph} (hx : s.Holds x (.graph g)) (hy : s.Holds y (.graph g'))
    (hxy : x ≠ y) {t u : Transform} (ht : t ∈ g.transforms) (hu : u ∈ g'.transforms) :
    t.Apart u :=
  (hs.compatible x y _ _ hxy hx hy).apart rfl ht hu

/-- Two graphs have no owner of the same identity. -/
theorem Sound.eq_of_owns {g g' : Graph} (hx : s.Holds x (.graph g)) (hy : s.Holds y (.graph g'))
    {v : Ident} (h : g.Owns v) (h' : g'.Owns v) : x = y := by
  obtain ⟨t, ht, hv⟩ := h
  obtain ⟨u, hu, hv'⟩ := h'
  by_cases hxy : x = y
  · exact hxy
  · exact absurd hv' ((hs.graphs_apart hx hy hxy ht hu).ids v hv)

theorem Sound.place_unique {i j : Nat} {t u : Transform} (ht : s.Lists x i t) (hu : s.Lists y j u)
    (h : t.serial = u.serial) : x = y ∧ i = j := by
  obtain ⟨g, hx, hi⟩ := ht
  obtain ⟨g', hy, hj⟩ := hu
  by_cases hxy : x = y
  · subst y
    obtain rfl : g = g' := Object.graph.inj (hx.unique hy)
    refine ⟨rfl, ?_⟩
    have hg : g.Sound := hs.object x _ hx
    obtain ⟨hil, rfl⟩ := List.getElem?_eq_some_iff.mp hi
    obtain ⟨hjl, rfl⟩ := List.getElem?_eq_some_iff.mp hj
    have hpair := List.pairwise_iff_getElem.mp hg.apart
    -- serials are pairwise different along the list
    rcases Nat.lt_trichotomy i j with hlt | heq | hlt
    · exact absurd h (hpair i j hil hjl hlt).serial
    · exact heq
    · exact absurd h.symm (hpair j i hjl hil hlt).serial
  · exact absurd h (hs.graphs_apart hx hy hxy (List.mem_of_getElem? hi)
      (List.mem_of_getElem? hj)).serial

theorem Sound.singleOwner : s.SingleOwner where
  port p q k k' hp hq h := ⟨hs.port_unique hp.hasPort hq.hasPort h, hs.keeper_unique hp hq h⟩
  ids t ht := (hs.transform ht).ids
  serial t u := hs.eq_of_serial_eq
  draft x y t u o hx hy hu h := by
    by_cases hyx : y = x
    · exact hyx
    · have hshare : o.mayShare (.draft t) = false := by
        cases o <;> rfl
      exact absurd h ((hs.compatible y x _ _ hyx hy hx).apart hshare hu
        (List.mem_singleton_self t)).serial
  place x y i j t u := hs.place_unique
  ownerOfId x y g g' v t u hx hy ht hu := by
    have hg : g.Sound := hs.object x _ hx
    have hg' : g'.Sound := hs.object y _ hy
    exact hs.eq_of_owns hx hy (hg.owns_of_ownerOfId ht) (hg'.owns_of_ownerOfId hu)
  addEdge x y g g' e hx hy h h' := by
    have hg : g.Sound := hs.object x _ hx
    have hg' : g'.Sound := hs.object y _ hy
    exact hs.eq_of_owns hx hy (hg.owns_source_of_addEdge h) (hg'.owns_source_of_addEdge h')

end Sound

/-! ## Registrations -/

/-- **The registrations that a step comes to**, with the workshop of that moment, the graph and the
transform: the one that it asks for, or one of those on the way to a design, where the plans before it
have been followed and the transform of the next one has been made. -/
inductive Registers (s : Session) : Step → Workshop → Graph → Transform → Prop
  | step {x y : String} {g : Graph} {t : Transform} (hx : s.Holds x (.graph g))
      (hy : s.Holds y (.draft t)) : Registers s (.addTransform x y) s.workshop g t
  | design {x name : String} {d : Design} {before after : List Plan} {plan : Plan}
      {w w₁ : Workshop} {g : Graph} {t : Transform} (hd : Design.find? name = some d)
      (hplans : d.plans = before ++ plan :: after)
      (hbefore : s.workshop.addPlans before (Graph.empty d.name) = (w, .ok g))
      (hmake : w.make plan = (w₁, .ok t)) : Registers s (.buildDesign x name) w₁ g t

/-- **A transform that comes into a graph without meeting a port again.**  Its identities are
pairwise different and in the index of no graph, so every port is entered anew, and the index grows
by the number of ports. -/
structure EntersAfresh (s : Session) (g : Graph) (t : Transform) : Prop where
  ids : (t.ports.map (·.id)).Nodup
  unindexed : ∀ p ∈ t.ports, g.parents.contains p.id = false
  elsewhere : ∀ x g', s.Holds x (.graph g') → ∀ p ∈ t.ports, g'.parents.contains p.id = false
  entersNew : g.parents.EntersNew g.nextSlot t.ports
  size : (g.addTransform t).result = .ok () →
    (g.addTransform t).graph.parents.size = g.parents.size + t.ports.length

/-- What is apart from all that is registered comes in afresh. -/
theorem Sound.entersAfresh {g : Graph} {t : Transform} (hs : s.Sound) (hg : g.Sound) (ht : t.Sound)
    (hap : ∀ u ∈ g.transforms, u.Apart t)
    (helse : ∀ x g', s.Holds x (.graph g') → ∀ u ∈ g'.transforms, u.Apart t) :
    s.EntersAfresh g t := by
  have unindexed : ∀ {g' : Graph}, g'.Sound → (∀ u ∈ g'.transforms, u.Apart t) →
      ∀ p ∈ t.ports, g'.parents.contains p.id = false := by
    intro g' hg' hap' p hp
    rw [Table.contains_eq, hg'.get?_parents_of_apart hap' hp]
    rfl
  have hnew := hg.entersNew ht hap g.nextSlot
  refine ⟨ht.ids, unindexed hg hap, fun x g' hx => ?_, hnew, fun h => ?_⟩
  · exact unindexed (hs.object x _ hx) (helse x g' hx)
  · cases hname : g.slots.contains t.name with
    | true =>
      rw [Graph.addTransform_of_taken hname] at h
      cases h
    | false =>
      rw [Graph.addTransform_of_new hname]
      exact hnew.size_enterPorts

/-- **No registration meets a port again**, as long as the counter of ports is within its limit. -/
theorem Sound.entersAfresh_of_registers {st : Step} {w : Workshop} {g : Graph} {t : Transform}
    (hs : s.Sound) (h : s.Registers st w g t) (hb : w.nextPort ≤ 4294967295) :
    s.EntersAfresh g t := by
  cases h with
  | step hx hy =>
    exact hs.entersAfresh (hs.object _ _ hx) (hs.object _ _ hy)
      (fun u hu => hs.apart_draft hx hy hu) fun z g' hz u hu => hs.apart_draft hz hy hu
  | @design _ _ d before _ plan w₀ _ _ _ _ _ hbefore hmake =>
    have hmade := Workshop.make_makes hmake
    have hlater := Workshop.addPlans_precedes before s.workshop (Graph.empty d.name)
    rw [hbefore] at hlater
    obtain ⟨hg, hm⟩ := Workshop.addPlans_spec (Workshop.Precedes.refl s.workshop)
      (Graph.sound_empty d.name) (Graph.madeBetween_empty d.name _ _) hbefore
      (Nat.le_trans hmade.precedes.nextPort hb)
    refine hs.entersAfresh hg (hmade.sound hb) (hm.apart hmade hb) fun z g' hz => ?_
    -- the graphs that are there are older than the building of the design
    have hbelow := hs.below z _ hz
    have hold : g'.MadeBetween (.start 0) s.workshop :=
      ⟨fun v ⟨u, hu, hv⟩ => ⟨Nat.zero_le _, hbelow.slots v (Object.uses_of_hasId hu hv)⟩,
        fun u hu => ⟨Nat.zero_le _, hbelow.serials u hu⟩⟩
    exact (hold.mono hlater).apart hmade hb

/-! ## Handles -/

/-- A handle was there, or is to a transform that a graph has, before the move or after it. -/
theorem Move.handle {t : Transform} (h : s.Move s') (hx : s'.Holds x (.handle t)) :
    s.Holds x (.handle t) ∨ (∃ y i, s.Lists y i t) ∨ ∃ y i, s'.Lists y i t := by
  cases h with
  | stay => exact Or.inl hx
  | discard => exact Or.inl (holds_unbind_iff.mp hx).2
  | create h =>
    rcases holds_bind_iff.mp hx with ⟨-, heq⟩ | ⟨-, hx⟩
    · subst heq
      cases h with
      | handle hy ht =>
        obtain ⟨i, hi⟩ := List.mem_iff_getElem?.mp ht
        exact Or.inr (Or.inl ⟨_, i, _, hy, hi⟩)
    · exact Or.inl hx
  | mark =>
    rcases holds_bind_iff.mp hx with ⟨-, heq⟩ | ⟨-, hx⟩
    · cases heq
    · exact Or.inl hx
  | addConstant | addPort =>
    rcases holds_bind_iff.mp hx with ⟨-, heq⟩ | ⟨-, hx⟩
    · cases heq
    · exact Or.inl (holds_unbind_iff.mp hx).2
  | addEdge =>
    rcases holds_bind_iff.mp hx with ⟨-, heq⟩ | ⟨-, hx⟩
    · cases heq
    · exact Or.inl hx
  | @register y z g u w hy hz =>
    rcases holds_bind_iff.mp hx with ⟨-, heq⟩ | ⟨-, hx⟩
    · cases heq
      have hzy : z ≠ y := hz.ne hy nofun
      refine Or.inr (Or.inr ⟨y, g.transforms.length, g.appendTransform t, ?_, ?_⟩)
      · exact holds_bind_iff.mpr (Or.inr ⟨hzy, holds_bind_iff.mpr (Or.inl ⟨rfl, rfl⟩)⟩)
      · exact List.getElem?_concat_length
    · rcases holds_bind_iff.mp hx with ⟨-, heq⟩ | ⟨-, hx⟩
      · cases heq
      · exact Or.inl (holds_unbind_iff.mp hx).2

/-- **Every handle is to a transform that a graph had** when it was registered, or later. -/
theorem listed_of_handle {n : Nat} {steps : List Step} (hsteps : ∀ st ∈ steps, st.isOrdinary = true)
    {t : Transform} (hx : ((start n).run steps).1.Holds x (.handle t)) :
    ∃ before after y i, steps = before ++ after ∧ ((start n).run before).1.Lists y i t := by
  -- from the end of the run: the handle comes from the last step, or was there before it
  induction steps using List.reverseRecOn with
  | nil => cases hx
  | append_singleton rest st ih =>
    have hrest : ∀ st ∈ rest, st.isOrdinary = true := fun a ha =>
      hsteps a (List.mem_append_left _ ha)
    have hmove := perform_move ((start n).run rest).1 (hsteps st (by simp))
    have hlast : ((start n).run (rest ++ [st])).1 = (((start n).run rest).1.perform st).1 :=
      run_append_fst _ _ _
    rw [hlast] at hx
    rcases hmove.handle hx with hold | ⟨y, i, hi⟩ | ⟨y, i, hi⟩
    · obtain ⟨before, after, y, i, rfl, hi⟩ := ih hrest hold
      exact ⟨before, after ++ [st], y, i, List.append_assoc _ _ _, hi⟩
    · exact ⟨rest, [st], y, i, rfl, hi⟩
    · exact ⟨rest ++ [st], [], y, i, (List.append_nil _).symm, hlast ▸ hi⟩

/-! ## Ordinary runs -/

/-- **Single ownership along ordinary runs.**  Every port has one keeper and every registered
transform one place; every registration that a further step comes to, while the counter is within
its limit, enters new ports only; and every handle is to a transform that was registered. -/
theorem singleOwner_of_ordinary {n : Nat} {steps : List Step} (h : Ordinary n steps) :
    ((start n).run steps).1.SingleOwner ∧
      (∀ st w g t, ((start n).run steps).1.Registers st w g t → w.nextPort ≤ 4294967295 →
        ((start n).run steps).1.EntersAfresh g t) ∧
      ∀ x t, ((start n).run steps).1.Holds x (.handle t) →
        ∃ before after y i, steps = before ++ after ∧ ((start n).run before).1.Lists y i t := by
  have hs := h.sound
  exact ⟨hs.singleOwner, fun st w g t hr hb => hs.entersAfresh_of_registers hr hb,
    fun x t hx => listed_of_handle h.keepsRules hx⟩

/-- The writer comes in beside the reader. -/
theorem singleOwner_pipeline : ((start 0).run (pipeline.take 4)).1.SingleOwner ∧
    ∃ w g t, ((start 0).run (pipeline.take 4)).1.Registers (.addTransform "graph" "writer") w g t ∧
      g.transforms.length = 1 ∧ t.ports.length = 1 ∧
      ((start 0).run (pipeline.take 4)).1.EntersAfresh g t := by
  have hord : Ordinary 0 (pipeline.take 4) := ⟨by decide, by decide +kernel⟩
  obtain ⟨howner, hafresh, -⟩ := singleOwner_of_ordinary hord
  obtain ⟨g, t, hx, hy, hg, ht⟩ : ∃ g t,
      ((start 0).run (pipeline.take 4)).1.Holds "graph" (.graph g) ∧
        ((start 0).run (pipeline.take 4)).1.Holds "writer" (.draft t) ∧
          g.transforms.length = 1 ∧ t.ports.length = 1 := ⟨_, _, rfl, rfl, rfl, rfl⟩
  have hreg := Registers.step hx hy
  exact ⟨howner, _, g, t, hreg, hg, ht, hafresh _ _ g t hreg hord.ports⟩

end Session

end Dataflow
