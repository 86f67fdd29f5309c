import Dataflow.Proofs.Session.Ordinary
import Dataflow.Proofs.Transform.Traits

/-!
# Traits of what variables hold

An object has a trait (`Object.HasTrait`) if it and the transforms behind it have.  Whether all variables
hold such objects (`Session.Holding`) depends on what is made and on what grows, and on nothing else:
a trait that growing keeps is kept by every move that does not bind a variable to something new
(`Session.Holding.move`) and by every breach of the rules (`Session.Holding.breach`).  If whatever is
made has it too, it is kept by every step (`Session.Holding.perform`).
-/

namespace Dataflow

/-- The object has the trait, and so have the transforms of a graph. -/
def Object.HasTrait (K : Trait) : Object → Prop
  | .port p => K.port p
  | .constant c => K.constant c
  | .draft t => K.transform t
  | .handle t => K.transform t
  | .edge _ => True
  | .graph g => ∀ t ∈ g.transforms, K.transform t

namespace Object.HasTrait
variable {K L : Trait} {o : Object} {g g' : Graph} {t : Transform}

theorem transform (ho : o.HasTrait K) (ht : t ∈ o.transforms) : K.transform t := by
  cases o with
  | draft u => exact List.mem_singleton.mp ht ▸ ho
  | handle u => exact List.mem_singleton.mp ht ▸ ho
  | graph g => exact ho t ht
  | port | constant | edge => cases ht

/-- A trait of transforms alone is the property of all transforms of the object. -/
theorem ofTransform_iff {P : Transform → Prop} :
    o.HasTrait (Trait.ofTransform P) ↔ ∀ t ∈ o.transforms, P t := by
  refine ⟨fun ho t ht => ho.transform ht, fun h => ?_⟩
  cases o with
  | draft u => exact h u (List.mem_singleton_self u)
  | handle u => exact h u (List.mem_singleton_self u)
  | graph g => exact h
  | port | constant | edge => trivial

theorem mono (ho : o.HasTrait K) (ht : ∀ t, K.transform t → L.transform t)
    (hp : ∀ p, K.port p → L.port p) (hc : ∀ c, K.constant c → L.constant c) : o.HasTrait L := by
  cases o with
  | port p => exact hp p ho
  | constant c => exact hc c ho
  | draft t => exact ht t ho
  | handle t => exact ht t ho
  | edge e => trivial
  | graph g => exact fun t hm => ht t (ho t hm)

/-- Of a graph only the transforms matter. -/
theorem graph_of_eq (hg : (Object.graph g).HasTrait K) (h : g'.transforms = g.transforms) :
    (Object.graph g').HasTrait K :=
  fun t ht => hg t (h ▸ ht)

theorem graph_append (hg : (Object.graph g).HasTrait K) (ht : K.transform t)
    (h : g'.transforms = g.transforms ++ [t]) : (Object.graph g').HasTrait K := by
  show ∀ u ∈ g'.transforms, K.transform u
  rw [h]
  exact List.forall_mem_append.mpr ⟨hg, List.forall_mem_singleton.mpr ht⟩

end Object.HasTrait

namespace Session

/-- **Every variable holds an object with the trait.** -/
def Holding (s : Session) (K : Trait) : Prop := ∀ x o, s.Holds x o → o.HasTrait K

namespace Holding
variable {s s' : Session} {K : Trait} {o : Object}

theorem start (n : Nat) (K : Trait) : (Session.start n).Holding K := by
  intro x o ho
  cases ho

theorem bind (hs : s.Holding K) (x : String) (ho : o.HasTrait K) : (s.bind x o).Holding K := by
  intro y o' ho'
  rcases holds_bind_iff.mp ho' with ⟨-, rfl⟩ | ⟨-, ho'⟩
  · exact ho
  · exact hs y o' ho'

theorem unbind (hs : s.Holding K) (x : String) : (s.unbind x).Holding K :=
  fun y o ho => hs y o (holds_unbind_iff.mp ho).2

theorem withWorkshop (hs : s.Holding K) (w : Workshop) : (s.withWorkshop w).Holding K := hs

/-- **A move keeps a trait that growing keeps**, unless it binds a variable to something new. -/
theorem move (hK : K.Grows) (hs : s.Holding K) (h : s.Move s') :
    s'.Holding K ∨ ∃ w o x, s.Creates w o ∧ s' = (s.withWorkshop w).bind x o := by
  cases h with
  | stay => exact Or.inl (hs.withWorkshop _)
  | discard _ x => exact Or.inl ((hs.withWorkshop _).unbind x)
  | create h x => exact Or.inr ⟨_, _, x, h, rfl⟩
  | @mark x t hx reads writes =>
    exact Or.inl (hs.bind x (hK.withMemory reads writes (hs x _ hx)))
  | @addConstant x y t t' c hx hy h =>
    exact Or.inl ((hs.unbind y).bind x (hK.addConstant (hs x _ hx) (hs y _ hy) h))
  | @addPort x y t t' p d hx hy h =>
    exact Or.inl ((hs.unbind y).bind x (hK.addPortTo (hs x _ hx) (hs y _ hy) h))
  | @register x y g t w hx hy =>
    have ht : K.transform t := hs y _ hy
    have hg : (Object.graph (g.appendTransform t)).HasTrait K := (hs x _ hx).graph_append ht rfl
    exact Or.inl (((((hs.unbind y).withWorkshop w).bind x hg).bind y) ht)
  | @addEdge x y g e w hx =>
    exact Or.inl ((hs.withWorkshop w).bind x ((hs x _ hx).graph_of_eq rfl))

/-- **Broken rules keep every trait**: they make nothing, and nothing grows by them. -/
theorem breach (hs : s.Holding K) (h : s.Breach s') : s'.Holding K := by
  cases h with
  | forgeEdge x e => exact hs.bind x trivial
  | @forceEdge x g hx e => exact hs.bind x ((hs x _ hx).graph_of_eq rfl)
  | @forceTransform x y g t hx hy =>
    have ht : K.transform t := by
      rcases hy with hy | hy
      · exact hs y _ hy
      · exact hs y _ hy
    exact (hs.bind x ((hs x _ hx).graph_append ht rfl)).bind y ht
  | @forceIndex x g hx index => exact hs.bind x ((hs x _ hx).graph_of_eq rfl)

/-- What a variable can be bound to anew has every universal trait. -/
theorem hasTrait_of_creates (hK : K.Universal) (hs : s.Holding K) {w : Workshop}
    (h : s.Creates w o) : o.HasTrait K := by
  cases h with
  | port h => exact hK.createPort h
  | constant h => exact hK.createConstant h
  | draft h => exact hK.make h
  | edge | relabel => trivial
  | graph name => exact fun t ht => (List.not_mem_nil ht).elim
  | design h =>
    intro t ht
    obtain ⟨plan, w₁, w₂, hmake⟩ := Design.make_of_build h ht
    exact hK.make hmake
  | handle hx ht => exact hs _ _ hx _ ht

/-- A step keeps a trait that growing keeps, unless it binds a variable to something new. -/
theorem perform_or_creates (hK : K.Grows) (hs : s.Holding K) (st : Step) :
    (s.perform st).1.Holding K ∨
      ∃ w o x, s.Creates w o ∧ (s.perform st).1 = (s.withWorkshop w).bind x o := by
  by_cases hst : st.isOrdinary = true
  · exact hs.move hK (perform_move s hst)
  · refine Or.inl ?_
    rcases perform_breach s (Bool.eq_false_iff.mpr hst) with hbreach | hsame
    · exact hs.breach hbreach
    · rw [hsame]
      exact hs

/-- **Every step keeps a universal trait.** -/
theorem perform (hK : K.Universal) (hs : s.Holding K) (st : Step) :
    (s.perform st).1.Holding K := by
  rcases hs.perform_or_creates hK.toGrows st with hsame | ⟨w, o, x, hcreates, heq⟩
  · exact hsame
  · rw [heq]
    exact (hs.withWorkshop w).bind x (hs.hasTrait_of_creates hK hcreates)

theorem run (hK : K.Universal) (hs : s.Holding K) (steps : List Step) :
    (s.run steps).1.Holding K :=
  run_invariant (P := fun s => s.Holding K) (fun _ st _ hs => hs.perform hK st) hs

end Holding

end Session

end Dataflow
