import Dataflow.Proofs.Session.Ownership

/-!
# Ordinary runs

A run is ordinary (`Session.Ordinary`) when none of its steps breaks a rule and the counter of ports
stays within the 32 bits of an identity.  Every move keeps a session sound
(`Session.Sound.move`), so every state of an ordinary run is sound (`Session.Ordinary.sound`), and
every property that moves keep holds along the run (`Session.run_induction`).  What every step keeps,
also one that breaks rules, holds along any run (`Session.run_invariant`).
-/

namespace Dataflow

namespace Session
variable {s s' : Session} {x y : String} {w : Workshop}

/-! ## Moves keep sessions sound -/

theorem Move.precedes (h : s.Move s') : s.workshop.Precedes s'.workshop := by
  cases h with
  | stay h => exact h
  | discard h => exact h
  | create h => exact h.precedes
  | register _ _ hw => exact hw
  | addEdge _ _ hw => exact hw
  | mark | addConstant | addPort => exact Workshop.Precedes.refl _

/-- No step sets a counter back. -/
theorem perform_precedes (s : Session) (st : Step) :
    s.workshop.Precedes (s.perform st).1.workshop := by
  by_cases hst : st.isOrdinary = true
  · exact (perform_move s hst).precedes
  · rcases perform_breach s (Bool.eq_false_iff.mpr hst) with hbreach | hsame
    · rw [hbreach.workshop]
      exact Workshop.Precedes.refl _
    · rw [hsame]
      exact Workshop.Precedes.refl _

theorem Sound.create {o : Object} (hs : s.Sound) (h : s.Creates w o)
    (hb : w.nextPort ≤ 4294967295) (x : String) : ((s.withWorkshop w).bind x o).Sound := by
  obtain ⟨ho, hbelow, hc⟩ := hs.admits h hb
  exact (hs.withWorkshop h.precedes).bind ho hbelow fun y o' _ => hc y o'

/-- An open transform may be replaced by one that has grown by ports of no variable. -/
theorem Sound.growDraft {t' : Transform} (hs : s.Sound) (t : Transform) (ps : List Port)
    (ht : t'.Sound) (hserial : t'.serial = t.serial) (hports : ∀ r ∈ t'.ports, r ∈ t.ports ∨ r ∈ ps)
    (hbt : (Object.draft t).Below s.workshop)
    (hbp : ∀ p ∈ ps, (Object.port p).Below s.workshop)
    (hct : ∀ z o, z ≠ x → s.Holds z o → (Object.draft t).Compatible o)
    (hcp : ∀ p ∈ ps, ∀ z o, s.Holds z o → (Object.port p).Compatible o) :
    (s.bind x (.draft t')).Sound := by
  refine hs.bind ht ⟨?_, ?_⟩ fun z o hz ho => ?_
  · intro v hv
    obtain ⟨r, hr, rfl⟩ := Transform.hasId_iff.mp (Object.uses_draft_iff.mp hv)
    rcases hports r hr with hold | hnew
    · exact hbt.slots r.id (Object.uses_draft_iff.mpr (Transform.hasId_of_mem hold))
    · exact (hbp r hnew).slots r.id (Object.uses_port_iff.mpr rfl)
  · intro u hu
    rw [List.mem_singleton.mp hu, hserial]
    exact hbt.serials t (List.mem_singleton_self t)
  · exact (hct z o hz ho).draft_grow hserial hports fun p hp => hcp p hp z o ho

section Drafts
variable {t t' : Transform} (hs : s.Sound) (hx : s.Holds x (.draft t))
include hs hx

theorem Sound.mark (reads writes : Bool) :
    (s.bind x (.draft (t.withMemory reads writes))).Sound := by
  have ht : t.Sound := hs.object x _ hx
  exact hs.growDraft t [] ⟨ht.toInOrder.withMemory reads writes, ht.ids⟩ rfl
    (fun r hr => Or.inl hr) (hs.below x _ hx) (fun p hp => (List.not_mem_nil hp).elim)
    (fun z o hz ho => hs.compatible x z _ o hz.symm hx ho) fun p hp => (List.not_mem_nil hp).elim

theorem Sound.addConstant {c : Constant} (h : t.addConstant c = (t', .ok ())) (y : String) :
    ((s.unbind y).bind x (.draft t')).Sound := by
  have ht : t.Sound := hs.object x _ hx
  have hord := ht.toInOrder.addConstant h
  obtain ⟨-, rfl⟩ := Transform.addConstant_eq_ok.mp h
  refine (hs.unbind y).growDraft t [] ⟨hord, ht.ids⟩ rfl (fun r hr => Or.inl hr)
    (hs.below x _ hx) (fun p hp => (List.not_mem_nil hp).elim) ?_
    fun p hp => (List.not_mem_nil hp).elim
  intro z o hz ho
  exact hs.compatible x z _ o hz.symm hx (holds_unbind_iff.mp ho).2

/-- **A port moves into a transform**: it was nowhere else, so the identities of the transform stay
pairwise different. -/
theorem Sound.addPort {p : Port} {d : Direction} (hy : s.Holds y (.port p))
    (h : t.addPortTo d p = (t', .ok ())) : ((s.unbind y).bind x (.draft t')).Sound := by
  have ht : t.Sound := hs.object x _ hx
  have hyx : y ≠ x := hy.ne hx nofun
  have hnew : ∀ r ∈ t.ports, r.id ≠ p.id := by
    intro r hr hid
    rw [← Object.ports_draft t] at hr
    exact (hs.compatible y x _ _ hyx hy hx).1.loose p (List.mem_singleton_self p) r hr hid.symm
  obtain ⟨hserial, hports⟩ := Transform.ports_of_addPortTo h
  refine (hs.unbind y).growDraft t [p] (ht.addPortTo h hnew) hserial hports (hs.below x _ hx)
    ?_ ?_ ?_
  · exact List.forall_mem_singleton.mpr (hs.below y _ hy)
  · intro z o hz ho
    exact hs.compatible x z _ o hz.symm hx (holds_unbind_iff.mp ho).2
  · -- the variable of the port has lost it
    intro q hq z o ho
    obtain ⟨hyz, ho⟩ := holds_unbind_iff.mp ho
    rw [List.mem_singleton.mp hq]
    exact hs.compatible y z _ o hyz hy ho

end Drafts

section Graphs
variable {g : Graph} (hs : s.Sound) (hx : s.Holds x (.graph g))
include hs hx

/-- **A transform moves into a graph**: it was nowhere else, so it has nothing in common with what
the graph has, nor with any other variable. -/
theorem Sound.register {t : Transform} (hy : s.Holds y (.draft t))
    (hname : g.slots.contains t.name = false) :
    ((s.unbind y).bind x (.graph (g.appendTransform t))).Sound := by
  have hap : ∀ u ∈ g.transforms, u.Apart t := fun u hu => hs.apart_draft hx hy hu
  have hg : g.Sound := hs.object x _ hx
  have hparts := Object.partsFrom_appendTransform g t
  refine (hs.unbind y).bind (hg.appendTransform (hs.object y _ hy) hap hname)
    ((hparts (.graph g)).below ?_) fun z o hz ho => (hparts o).compatible ?_
  · exact List.forall_mem_cons.mpr
      ⟨hs.below x _ hx, List.forall_mem_singleton.mpr (hs.below y _ hy)⟩
  · obtain ⟨hyz, ho⟩ := holds_unbind_iff.mp ho
    rw [List.forall_mem_cons, List.forall_mem_singleton]
    exact ⟨hs.compatible x z _ o hz.symm hx ho, hs.compatible y z _ o hyz hy ho⟩

/-- **An edge is copied into a graph**: it respects the ports of the graph wherever it was made. -/
theorem Sound.addEdge {e : Edge} (hy : s.Holds y (.edge e)) (hend : g.ownerlessEnd? e = none) :
    (s.bind x (.graph (g.appendEdge e))).Sound := by
  have hyx : y ≠ x := hy.ne hx nofun
  have hres : ∀ p, g.HasPort p → e.Respects p := by
    rintro p ⟨t, ht, hp⟩
    exact (hs.compatible y x _ _ hyx hy hx).1.edges e (List.mem_singleton_self e) p
      (Object.mem_ports_of_mem ht hp)
  have hg : g.Sound := hs.object x _ hx
  have hparts := Object.partsFrom_appendEdge g e
  refine hs.bind (hg.appendEdge hres hend) ((hparts (.graph g)).below ?_)
    fun z o hz ho => (hparts o).compatible ?_
  · exact List.forall_mem_cons.mpr
      ⟨hs.below x _ hx, List.forall_mem_singleton.mpr (hs.below y _ hy)⟩
  · rw [List.forall_mem_cons, List.forall_mem_singleton]
    -- the edge may still be in the other variable
    by_cases hyz : y = z
    · subst z
      obtain rfl := hy.unique ho
      exact ⟨hs.compatible x y _ _ hyx.symm hx hy, Object.compatible_edge_edge e e⟩
    · exact ⟨hs.compatible x z _ o hz.symm hx ho, hs.compatible y z _ o hyz hy ho⟩

end Graphs

/-- **Every move keeps a session sound**, as long as the counter of ports is within its limit. -/
theorem Sound.move (hs : s.Sound) (h : s.Move s') (hb : s'.workshop.nextPort ≤ 4294967295) :
    s'.Sound := by
  cases h with
  | stay h => exact hs.withWorkshop h
  | discard h x => exact (hs.withWorkshop h).unbind x
  | create h x => exact hs.create h hb x
  | mark hx reads writes => exact hs.mark hx reads writes
  | addConstant hx _ h => exact hs.addConstant hx h _
  | addPort hx hy h => exact hs.addPort hx hy h
  | @register x y g t w hx hy hw h =>
    have hs₁ := ((hs.withWorkshop hw).register hx hy h)
    have hx₁ : (((s.withWorkshop w).unbind y).bind x (.graph (g.appendTransform t))).Holds x
        (.graph (g.appendTransform t)) := holds_bind_iff.mpr (Or.inl ⟨rfl, rfl⟩)
    obtain ⟨ho, hbelow, hc⟩ := hs₁.admits_handle hx₁ (List.mem_append_right _
      (List.mem_singleton_self t))
    exact hs₁.bind (x := y) ho hbelow fun z o _ => hc z o
  | addEdge hx hy hw h => exact (hs.withWorkshop hw).addEdge hx hy h

/-! ## Runs -/

theorem run_cons_fst (s : Session) (st : Step) (rest : List Step) :
    (s.run (st :: rest)).1 = ((s.perform st).1.run rest).1 := rfl

theorem run_append_fst (s : Session) (before after : List Step) :
    (s.run (before ++ after)).1 = ((s.run before).1.run after).1 := by
  induction before generalizing s with
  | nil => rfl
  | cons st rest ih =>
    rw [List.cons_append, run_cons_fst, run_cons_fst]
    exact ih (s.perform st).1

/-- **Induction along a run**: what every step keeps holds at the end. -/
theorem run_invariant {P : Session → Prop} {steps : List Step}
    (hstep : ∀ s, ∀ st ∈ steps, P s → P (s.perform st).1) (h : P s) : P (s.run steps).1 := by
  induction steps generalizing s with
  | nil => exact h
  | cons st rest ih =>
    obtain ⟨hfirst, hrest⟩ := forall_and.mp fun s => List.forall_mem_cons.mp (hstep s)
    rw [run_cons_fst]
    exact ih hrest (hfirst s h)

/-- Along a run of ordinary steps it is enough to look at moves. -/
theorem run_induction {P : Session → Prop} (hmove : ∀ s s', P s → s.Move s' → P s')
    {steps : List Step} (hsteps : ∀ st ∈ steps, st.isOrdinary = true) (h : P s) :
    P (s.run steps).1 :=
  run_invariant (fun s st hst hs => hmove s _ hs (perform_move s (hsteps st hst))) h

/-- Counters are never set back. -/
theorem run_precedes (s : Session) (steps : List Step) :
    s.workshop.Precedes (s.run steps).1.workshop :=
  run_invariant (P := fun s' => s.workshop.Precedes s'.workshop)
    (fun s' st _ hs => hs.trans (perform_precedes s' st)) (Workshop.Precedes.refl _)

/-- **An ordinary run**: its ports are counted from `n` on and stay below the limit of the counter,
and no step breaks a rule. -/
structure Ordinary (n : Nat) (steps : List Step) : Prop where
  keepsRules : ∀ st ∈ steps, st.isOrdinary = true
  ports : ((start n).run steps).1.workshop.nextPort ≤ 4294967295

/-- What an ordinary run has come to on its way is the end of an ordinary run as well. -/
theorem Ordinary.of_append {n : Nat} {before after : List Step}
    (h : Ordinary n (before ++ after)) : Ordinary n before := by
  have hbefore : ∀ st ∈ before, st.isOrdinary = true := fun st hst =>
    h.keepsRules st (List.mem_append_left after hst)
  refine ⟨hbefore, Nat.le_trans ?_ h.ports⟩
  rw [run_append_fst]
  exact (run_precedes _ after).nextPort

/-- **Every state of an ordinary run is sound.** -/
theorem Ordinary.sound {n : Nat} {steps : List Step} (h : Ordinary n steps) :
    ((start n).run steps).1.Sound := by
  refine run_induction (P := fun s => s.workshop.nextPort ≤ 4294967295 → s.Sound) ?_ h.keepsRules
    (fun _ => sound_start n) h.ports
  -- the limit is known of the last state only, and counters are never set back
  intro s s' hs hmove hb
  exact (hs (Nat.le_trans hmove.precedes.nextPort hb)).move hmove hb

end Session

end Dataflow
