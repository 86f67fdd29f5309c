import Dataflow.Proofs.Session.Constants
import Dataflow.Proofs.Session.Traits

/-!
# Everything that is there

Beside the objects that variables hold there are transforms that no variable leads to any more, on
which the value of a constant still works.  `Session.Reaches` is all transforms that are there, and
a trait holds everywhere (`Session.Everywhere`) if those, the loose ports and the loose constants
have it.

Values come to work on registered transforms only, which are there already.  So a trait holds
everywhere after a step as soon as the variables hold objects that have it
(`Session.Everywhere.of_feeds`), and a universal trait holds everywhere in every state of every run
(`Session.everywhere_of_run`).
-/

namespace Dataflow

namespace Session

/-- The transform is open or registered in a variable, in a graph, or the value of a constant works
on it. -/
def Reaches (s : Session) (t : Transform) : Prop := s.Knows t ∨ s.store.Mentions t

/-- **Everything that is there has the trait.** -/
structure Everywhere (s : Session) (K : Trait) : Prop where
  held : s.Holding K
  mentioned : ∀ t, s.store.Mentions t → K.transform t

section Everywhere
variable {s s' : Session} {K L : Trait} {x : String} {o : Object}

/-- A fixed item is a transform that is there. -/
theorem reaches_of_has {t : Transform} (h : s.Has (.fixed t)) : s.Reaches t := by
  rcases h with ⟨x, o, ho, hi⟩ | ⟨u, hu, hmentioned⟩
  · refine Or.inl ⟨x, o, ho, ?_⟩
    cases o with
    | handle u =>
      cases List.mem_singleton.mp hi
      exact List.mem_singleton_self t
    | graph g =>
      obtain ⟨u, hu, heq⟩ := List.mem_map.mp hi
      cases heq
      exact hu
    | constant c => cases List.mem_singleton.mp hi
    | draft u => cases List.mem_singleton.mp hi
    | port | edge => cases hi
  · cases hu
    exact Or.inr hmentioned

namespace Everywhere

theorem transform (hs : s.Everywhere K) {t : Transform} (ht : s.Reaches t) : K.transform t := by
  rcases ht with ⟨x, o, ho, ht⟩ | ht
  · exact (hs.held x o ho).transform ht
  · exact hs.mentioned t ht

theorem start (n : Nat) (K : Trait) : (Session.start n).Everywhere K where
  held := Holding.start n K
  mentioned t ht := by
    obtain ⟨c, v, hv, -⟩ := ht
    cases hv

theorem mono (hs : s.Everywhere K) (ht : ∀ t, K.transform t → L.transform t)
    (hp : ∀ p, K.port p → L.port p) (hc : ∀ c, K.constant c → L.constant c) : s.Everywhere L where
  held x o ho := (hs.held x o ho).mono ht hp hc
  mentioned t hm := ht t (hs.mentioned t hm)

/-- Values come to work only on transforms that are there, so the variables remain to be looked
at. -/
theorem of_feeds (hs : s.Everywhere K) (hw : s.Feeds s'.workshop) (hheld : s'.Holding K) :
    s'.Everywhere K where
  held := hheld
  mentioned t ht := hs.transform (reaches_of_has (hw.mentions t ht))

/-- The step that binds a variable to something new keeps the trait if the new object has it. -/
theorem perform_create (hsep : s.Separate) (hs : s.Everywhere K) {st : Step} {w : Workshop}
    (h : (s.perform st).1 = (s.withWorkshop w).bind x o) (ho : o.HasTrait K) :
    (s.perform st).1.Everywhere K := by
  refine hs.of_feeds (perform_feeds hsep st) ?_
  rw [h]
  exact (hs.held.withWorkshop w).bind x ho

/-- **Every step keeps a universal trait.** -/
theorem perform (hK : K.Universal) (hsep : s.Separate) (hs : s.Everywhere K) (st : Step) :
    (s.perform st).1.Everywhere K :=
  hs.of_feeds (perform_feeds hsep st) (hs.held.perform hK st)

theorem run (hK : K.Universal) (hsep : s.Separate) (hs : s.Everywhere K) (steps : List Step) :
    (s.run steps).1.Everywhere K := by
  -- that items are separate goes along, for the step needs it
  have hboth : (s.run steps).1.Separate ∧ (s.run steps).1.Everywhere K :=
    run_invariant (P := fun s => s.Separate ∧ s.Everywhere K)
      (fun _ st _ hs => ⟨hs.1.perform st, hs.2.perform hK hs.1 st⟩) ⟨hsep, hs⟩
  exact hboth.2

end Everywhere

end Everywhere

/-- **A universal trait holds everywhere after any script.** -/
theorem everywhere_of_run {K : Trait} (hK : K.Universal) (n : Nat) (steps : List Step) :
    ((start n).run steps).1.Everywhere K :=
  (Everywhere.start n K).run hK (separate_start n) steps

end Session

end Dataflow
