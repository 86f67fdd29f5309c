import Dataflow.Proofs.Session.Everywhere
import Dataflow.Proofs.Transform.Lookups
import Mathlib.Data.List.Perm.Subperm

/-!
# Whose identity is whose

The counter hands out an identity for each port that is made (`Ident.handedOut`), and no step makes
one up for a port.  So all ports that are there after a run, loose or in a transform, can be listed
such that their identities are some of those that were handed out (`Session.Numbered`); each is used
once, also where the counter has started over and hands out an identity again.

If those handed out are pairwise different, so are the identities of any list of ports, and each
transform is sound.  Then its lookups agree (`Session.lookups_agree`).
-/

namespace Dataflow

/-! ## What the counter hands out -/

namespace Ident

/-- The identities of the next `k` ports, when the counter stands at `n`. -/
def handedOut (n : Nat) : Nat → List Ident
  | 0 => []
  | k + 1 => (allocate n).1 :: handedOut (allocate n).2 k

theorem handedOut_eq (n k : Nat) : handedOut n k = (List.range' n k).map ofCounter := by
  induction k generalizing n with
  | zero => rfl
  | succ k ih => rw [handedOut, ih, List.range'_succ, List.map_cons]; rfl

theorem handedOut_append (n k j : Nat) :
    handedOut n (k + j) = handedOut n k ++ handedOut (n + k) j := by
  rw [handedOut_eq, handedOut_eq, handedOut_eq, ← List.map_append, List.range'_append_1]

end Ident

/-- **Ports made while the counter went from `n` to `n'`**: each has one of the identities that were
handed out meanwhile, and each of these is used once at most. -/
def Issued (n n' : Nat) (ps : List Port) : Prop :=
  ∃ k, n' = n + k ∧ (ps.map (·.id)).Subperm (Ident.handedOut n k)

namespace Issued
variable {n n' n'' : Nat} {ps qs : List Port}

theorem nil (h : n ≤ n') : Issued n n' [] := by
  obtain ⟨k, rfl⟩ := Nat.exists_eq_add_of_le h
  exact ⟨k, rfl, List.nil_subperm⟩

theorem append (h : Issued n n' ps) (h' : Issued n' n'' qs) : Issued n n'' (ps ++ qs) := by
  obtain ⟨k, rfl, hps⟩ := h
  obtain ⟨j, rfl, hqs⟩ := h'
  refine ⟨k + j, Nat.add_assoc n k j, ?_⟩
  rw [List.map_append, Ident.handedOut_append]
  exact hps.append hqs

/-- The counter may go on without a port that is left of it. -/
theorem mono (h : Issued n n' ps) (hle : n' ≤ n'') : Issued n n'' ps := by
  simpa using h.append (nil hle)

/-- **If the identities handed out are pairwise different, so are those of the ports.** -/
theorem nodup (h : Issued n n' ps) {k : Nat} (hk : n' = n + k) (hn : (Ident.handedOut n k).Nodup) :
    (ps.map (·.id)).Nodup := by
  obtain ⟨j, hj, l, hperm, hsub⟩ := h
  obtain rfl : k = j := by omega
  exact hperm.nodup_iff.mp (hn.sublist hsub)

theorem of_create {name : String} {type : PortType} {d : Direction} {p : Port}
    (h : Port.create name type d n = (n', .ok p)) : Issued n n' [p] := by
  obtain ⟨-, rfl, rfl⟩ := Port.create_eq_ok.mp h
  exact ⟨1, rfl, List.Subperm.refl _⟩

theorem of_makes {w w' : Workshop} {t : Transform} (h : w.Makes w' t) :
    Issued w.nextPort w'.nextPort t.ports := by
  obtain ⟨k, hk, hids⟩ := h.ids
  refine ⟨k, hk, ?_⟩
  rw [Ident.handedOut_eq]
  exact hids.subperm

end Issued

/-! ## Ports from one list -/

/-- Transforms in order with ports from the list, and ports from the list. -/
def Trait.among (ps : List Port) : Trait where
  transform t := t.InOrder ∧ ∀ p ∈ t.ports, p ∈ ps
  port p := p ∈ ps
  constant _ := True

namespace Trait

theorem grows_among (ps : List Port) : (among ps).Grows where
  withMemory reads writes ht := ⟨ht.1.withMemory reads writes, ht.2⟩
  addConstant ht _ h := by
    obtain ⟨-, rfl⟩ := Transform.addConstant_eq_ok.mp h
    exact ⟨ht.1.addConstant h, ht.2⟩
  addPortTo ht hp h := by
    refine ⟨ht.1.addPortTo h, fun q hq => ?_⟩
    rcases (Transform.ports_of_addPortTo h).2 q hq with hold | hnew
    · exact ht.2 q hold
    · exact List.mem_singleton.mp hnew ▸ hp

end Trait

namespace Transform

theorem InOrder.nodup_ports {t : Transform} (ht : t.InOrder) : t.ports.Nodup := by
  rw [ports_eq]
  refine List.nodup_append.mpr ⟨(ht.names .input).of_map, (ht.names .output).of_map, ?_⟩
  rintro p hin q hout rfl
  have hdirection := (ht.direction .input p hin).symm.trans (ht.direction .output p hout)
  cases hdirection

/-- **A transform with ports from a list without a repeated identity is sound.** -/
theorem sound_of_among {t : Transform} {ps : List Port} (ht : (Trait.among ps).transform t)
    (hps : (ps.map (·.id)).Nodup) : t.Sound where
  toInOrder := ht.1
  ids := ht.1.nodup_ports.map_on fun p hp q hq h =>
    List.inj_on_of_nodup_map hps (ht.2 p hp) (ht.2 q hq) h

end Transform

/-! ## Designs -/

/-- The ports of planned transforms come from the counter. -/
theorem Workshop.addPlans_issued {plans : List Plan} {w w' : Workshop} {g g' : Graph}
    (h : w.addPlans plans g = (w', .ok g')) : ∃ new, Issued w.nextPort w'.nextPort new ∧
      ∀ t ∈ g'.transforms, t ∈ g.transforms ∨ (Trait.among new).transform t := by
  induction plans generalizing w g with
  | nil =>
    cases h
    exact ⟨[], Issued.nil (Nat.le_refl _), fun t ht => Or.inl ht⟩
  | cons plan rest ih =>
    rcases addPlans_cons_cases plan rest w g with ⟨w', e, heq, -⟩ | ⟨w₁, t, event, hmake, -, heq⟩
    · rw [heq] at h
      cases h
    · rw [heq] at h
      have hmade := make_makes hmake
      obtain ⟨new, hnew, hall⟩ := ih h
      refine ⟨t.ports ++ new, (Issued.of_makes hmade).append hnew, fun u hu => ?_⟩
      rcases hall u hu with hold | ⟨hord, hports⟩
      · refine (List.mem_append.mp hold).imp id fun hlast => ?_
        rw [List.mem_singleton.mp hlast]
        exact ⟨hmade.inOrder, fun p hp => List.mem_append_left new hp⟩
      · exact Or.inr ⟨hord, fun p hp => List.mem_append_right t.ports (hports p hp)⟩

theorem Design.build_issued {d : Design} {w w' : Workshop} {g : Graph}
    (h : d.build w = (w', .ok g)) : ∃ new, Issued w.nextPort w'.nextPort new ∧
      ∀ t ∈ g.transforms, (Trait.among new).transform t := by
  obtain ⟨w₁, g₁, hplans, hlinks⟩ := build_eq_ok h
  obtain ⟨new, hnew, hall⟩ := Workshop.addPlans_issued hplans
  have hlater := w₁.addLinks_precedes d.links g₁
  rw [hlinks] at hlater
  refine ⟨new, hnew.mono hlater.nextPort, fun t ht => ?_⟩
  rw [(Workshop.addLinks_spec hlinks).1] at ht
  exact (hall t ht).resolve_left List.not_mem_nil

/-! ## Runs -/

namespace Session

/-- **All ports come from one list** that was made since the counter stood at `n`. -/
def Numbered (s : Session) (n : Nat) : Prop :=
  ∃ ps, Issued n s.workshop.nextPort ps ∧ s.Everywhere (Trait.among ps)

section Numbered
variable {s : Session} {n : Nat}

theorem numbered_start (n : Nat) : (start n).Numbered n :=
  ⟨[], Issued.nil (Nat.le_refl n), Everywhere.start n _⟩

theorem Everywhere.among_append {ps : List Port} (hs : s.Everywhere (Trait.among ps))
    (new : List Port) : s.Everywhere (Trait.among (ps ++ new)) :=
  hs.mono (fun _ ht => ⟨ht.1, fun p hp => List.mem_append_left new (ht.2 p hp)⟩)
    (fun _ hp => List.mem_append_left new hp) fun _ _ => trivial

/-- What a variable can be bound to anew has ports that the counter has just numbered, or ports that
were there. -/
theorem Creates.issued {w : Workshop} {o : Object} (h : s.Creates w o) {ps : List Port}
    (hs : s.Holding (Trait.among ps)) : ∃ new, Issued s.workshop.nextPort w.nextPort new ∧
      o.HasTrait (Trait.among (ps ++ new)) := by
  have hnone : Issued s.workshop.nextPort s.workshop.nextPort [] := Issued.nil (Nat.le_refl _)
  cases h with
  | @port _ _ _ p n h => exact ⟨[p], Issued.of_create h, List.mem_append_right ps (by simp)⟩
  | constant => exact ⟨[], hnone, trivial⟩
  | @draft _ t _ h =>
    have hmade := Workshop.make_makes h
    exact ⟨t.ports, Issued.of_makes hmade, hmade.inOrder, fun p hp => List.mem_append_right ps hp⟩
  | edge | relabel => exact ⟨[], hnone, trivial⟩
  | graph name => exact ⟨[], hnone, fun t ht => (List.not_mem_nil ht).elim⟩
  | design h =>
    obtain ⟨new, hnew, hall⟩ := Design.build_issued h
    exact ⟨new, hnew, fun t ht =>
      ⟨(hall t ht).1, fun p hp => List.mem_append_right ps ((hall t ht).2 p hp)⟩⟩
  | @handle x g t hx ht =>
    have hold : (Trait.among ps).transform t := hs x _ hx t ht
    exact ⟨[], hnone, hold.1, fun p hp => List.mem_append_left [] (hold.2 p hp)⟩

/-- **Every step numbers the ports that it makes.** -/
theorem Numbered.perform (hsep : s.Separate) (hs : s.Numbered n) (st : Step) :
    (s.perform st).1.Numbered n := by
  obtain ⟨ps, hps, hall⟩ := hs
  rcases hall.held.perform_or_creates (Trait.grows_among ps) st with
    hheld | ⟨w, o, x, hcreates, heq⟩
  · exact ⟨ps, hps.mono (perform_precedes s st).nextPort,
      hall.of_feeds (perform_feeds hsep st) hheld⟩
  · obtain ⟨new, hnew, ho⟩ := hcreates.issued hall.held
    refine ⟨ps ++ new, ?_, (hall.among_append new).perform_create hsep heq ho⟩
    rw [heq]
    exact hps.append hnew

theorem Numbered.run (hsep : s.Separate) (hs : s.Numbered n) (steps : List Step) :
    (s.run steps).1.Numbered n := by
  have hboth : (s.run steps).1.Separate ∧ (s.run steps).1.Numbered n :=
    run_invariant (P := fun s => s.Separate ∧ s.Numbered n)
      (fun _ st _ hs => ⟨hs.1.perform st, hs.2.perform hs.1 st⟩) ⟨hsep, hs⟩
  exact hboth.2

end Numbered

/-- **Positions, names and identities lead to the same ports**, in every transform that is there
after any script, as long as the identities that were handed out are pairwise different. -/
theorem lookups_agree {n k : Nat} {steps : List Step}
    (hk : ((start n).run steps).1.workshop.nextPort = n + k) (hids : (Ident.handedOut n k).Nodup)
    {t : Transform} (ht : ((start n).run steps).1.Reaches t) : t.LookupsAgree := by
  obtain ⟨ps, hps, hall⟩ := (numbered_start n).run (separate_start n) steps
  exact (Transform.sound_of_among (hall.transform ht) (hps.nodup hk hids)).lookupsAgree

/-- A run whose counter starts over: an input and an output of one name, another output that is added
later, and a graph that goes around the rules. -/
def crossing : List Step :=
  [.createTransform "pair" ⟨"pair", false, false, [("x", ⟨"T"⟩)], [("x", ⟨"T"⟩)],
      [("limit", some (.literal "8"))]⟩,
   .createPort "late" "y" ⟨"T"⟩ .output,
   .addPort "pair" "late",
   .createGraph "graph" none,
   .forceTransform "graph" "pair"]

theorem lookups_agree_crossing : ∃ t, ((start 4294967295).run crossing).1.Reaches t ∧
    t.LookupsAgree ∧ t.port "x" = t.portAt .input 0 ∧ t.port "y" = t.portAt .output 1 ∧
      t.solePort .input = t.portAt .input 0 ∧ (t.constant "limit").isOk := by
  obtain ⟨t, ht, hports⟩ : ∃ t, ((start 4294967295).run crossing).1.Holds "pair" (.handle t) ∧
      t.port "x" = t.portAt .input 0 ∧ t.port "y" = t.portAt .output 1 ∧
        t.solePort .input = t.portAt .input 0 ∧ (t.constant "limit").isOk :=
    ⟨_, rfl, rfl, rfl, rfl, rfl⟩
  have hreaches : ((start 4294967295).run crossing).1.Reaches t :=
    Or.inl (knows_of_holds (Or.inr ht))
  exact ⟨t, hreaches, lookups_agree (k := 3) rfl (by decide) hreaches, hports⟩

end Session

end Dataflow
