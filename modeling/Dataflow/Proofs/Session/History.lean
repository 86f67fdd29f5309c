import Dataflow.Proofs.Graph.Growth
import Dataflow.Proofs.Session.Graphs

/-!
# The history of a graph

A graph is made in a variable and stays there until the variable is given another object or none.
As long as it stays (`Session.Retains`), all that steps can do to it is to enter something, and what
they enter can be read off the run: the transforms and edges that were registered since the graph
was made, in order (`Session.history`).

In every state of an ordinary run a graph holds exactly its history, place by place, and whatever
it has and finds lasts for as long as it stays (`Session.graph_lasts`).
-/

namespace Dataflow

/-- The step has found or made something. -/
def Outcome.isResult : Outcome → Bool
  | .done .nothing => false
  | .done _ => true
  | .refused _ => false
  | .senseless => false

namespace Step

/-- The variable for the result of the step. -/
def target? : Step → Option String
  | .createPort target _ _ _ => some target
  | .createConstant target _ _ => some target
  | .createTransform target _ => some target
  | .connect target _ _ _ => some target
  | .joinPorts target _ _ => some target
  | .relabel target _ _ => some target
  | .createGraph target _ => some target
  | .buildDesign target _ => some target
  | .findTransform _ _ target => target
  | .findTransformWithId _ _ target => target
  | .findOwner _ _ target => target
  | .findOwnerOfId _ _ target => target
  | .forgeEdge target _ => some target
  | _ => none

/-- The variable that is bound to the result when the step ends in this way. -/
def bound? (st : Step) (o : Outcome) : Option String := if o.isResult then st.target? else none

/-- The step empties the variable. -/
def drops (x : String) : Step → Bool
  | .drop y => y = x
  | _ => false

end Step

namespace Session

/-! ## Staying -/

/-- The step gives the variable another object, or takes its object out. -/
def replaces (s : Session) (x : String) (st : Step) : Bool :=
  st.drops x || st.bound? (s.perform st).2 = some x

/-- Throughout the steps, what the variable holds stays there. -/
def Retains (s : Session) (x : String) : List Step → Prop
  | [] => True
  | st :: rest => s.replaces x st = false ∧ (s.perform st).1.Retains x rest

/-- The transforms that a step registers in the graph of the variable. -/
def registered (s : Session) (x : String) : Step → List Transform
  | .addTransform y z =>
    match (s.perform (.addTransform y z)).2, s.lookUp .draft z with
    | .done _, .ok t => if y = x then [t] else []
    | _, _ => []
  | _ => []

/-- The edges that a step registers in the graph of the variable. -/
def joined (s : Session) (x : String) : Step → List Edge
  | .addEdge y z =>
    match (s.perform (.addEdge y z)).2, s.lookUp .edge z with
    | .done _, .ok e => if y = x then [e] else []
    | _, _ => []
  | _ => []

/-- What has been registered in the graph that a step makes: only a design comes with entries. -/
def firstEntries (s : Session) : Step → Entries
  | .buildDesign _ name =>
    match Design.find? name with
    | some d => d.entries s.workshop
    | none => .none
  | _ => .none

/-- The entries of the graph in the variable after a step. -/
def entriesAfter (s : Session) (x : String) (st : Step) (entries : Entries) : Entries :=
  if s.replaces x st then s.firstEntries st
  else entries.append (s.registered x st) (s.joined x st)

/-- The entries of the graph in the variable after all steps. -/
def entriesAfterAll (s : Session) (x : String) : List Step → Entries → Entries
  | [], entries => entries
  | st :: rest, entries => (s.perform st).1.entriesAfterAll x rest (s.entriesAfter x st entries)

/-- **The history of the graph in a variable**: what was registered in it since it was made. -/
def history (n : Nat) (x : String) (steps : List Step) : Entries :=
  (start n).entriesAfterAll x steps .none

/-! ## What a step leaves in a variable, and what it puts there -/

section Perform
variable {s s' : Session} {x y : String} {o o' : Object} {g : Graph} {st : Step}

/-- The variable holds the same graph in both states, or none in both. -/
def SameGraph (s s' : Session) (x : String) : Prop :=
  ∀ g, s'.Holds x (.graph g) ↔ s.Holds x (.graph g)

theorem SameGraph.refl (s : Session) (x : String) : s.SameGraph s x := fun _ => Iff.rfl

theorem sameGraph_of_bindings_eq (h : s'.bindings = s.bindings) : s.SameGraph s' x := by
  intro g
  unfold Holds
  rw [h]

theorem sameGraph_bind_of_ne (hy : y ≠ x) (o : Object) : s.SameGraph (s.bind y o) x := by
  intro g
  simp [holds_bind_iff, hy]

/-- Other objects than graphs come and go. -/
theorem sameGraph_bind (hy : s.Holds y o) (ho : ∀ g, o ≠ .graph g) (ho' : ∀ g, o' ≠ .graph g) :
    s.SameGraph (s.bind y o') x := by
  intro g
  rw [holds_bind_iff]
  constructor
  · rintro (⟨-, heq⟩ | ⟨-, hx⟩)
    · exact absurd heq (ho' g)
    · exact hx
  · intro hx
    exact Or.inr ⟨hy.ne hx (ho g), hx⟩

theorem sameGraph_unbind (hy : s.Holds y o) (ho : ∀ g, o ≠ .graph g) :
    s.SameGraph (s.unbind y) x := by
  intro g
  rw [holds_unbind_iff]
  exact ⟨fun h => h.2, fun hx => ⟨hy.ne hx (ho g), hx⟩⟩

theorem SameGraph.trans {s'' : Session} (h : s.SameGraph s' x) (h' : s'.SameGraph s'' x) :
    s.SameGraph s'' x := fun g => (h' g).trans (h g)

/-- **What the end of a step does to the variables.**  It binds the result to the target of the step,
if there are both, and a graph that is bound comes with its first entries. -/
def BindsTarget (s : Session) (st : Step) (r : Session × Except Obstacle Reply) : Prop :=
  match st.bound? (.of r.2) with
  | none => r.1.bindings = s.bindings
  | some y => ∃ o, r.1.bindings = s.bindings.insert y o ∧
      ∀ g, o = .graph g → g.Records (s.firstEntries st)

/-- A step that fails binds nothing. -/
theorem bindsTarget_error {f : Obstacle} (h : s'.bindings = s.bindings) :
    s.BindsTarget st (s', .error f) := by
  cases f <;> exact h

/-- A step that binds its target. -/
theorem bindsTarget_bind {reply : Reply} (h : st.bound? (.done reply) = some y)
    (hb : s'.bindings = s.bindings.insert y o)
    (ho : ∀ g, o = .graph g → g.Records (s.firstEntries st)) :
    s.BindsTarget st (s', .ok reply) := by
  unfold BindsTarget
  rw [show st.bound? (.of (.ok reply)) = some y from h]
  exact ⟨o, hb, ho⟩

theorem bindsTarget_read_bind {α : Type} {r : Session → Except Obstacle α} {f : α → Work Reply}
    (h : ∀ a, s.BindsTarget st (f a s)) : s.BindsTarget st ((Attempt.read r >>= f) s) :=
  Attempt.read_bind_elim (fun _ _ => bindsTarget_error rfl) fun a _ => h a

section BindsTarget
variable (h : s.BindsTarget st (carryOut st s))
include h

theorem BindsTarget.sameGraph (hr : s.replaces x st = false) :
    s.SameGraph (s.perform st).1 x := by
  have hr : st.bound? (s.perform st).2 ≠ some x :=
    of_decide_eq_false (Bool.or_eq_false_iff.mp hr).2
  have h : match st.bound? (s.perform st).2 with
    | none => (s.perform st).1.bindings = s.bindings
    | some y => ∃ o, (s.perform st).1.bindings = s.bindings.insert y o ∧
        ∀ g, o = .graph g → g.Records (s.firstEntries st) := h
  cases hbound : st.bound? (s.perform st).2 with
  | none =>
    rw [hbound] at h
    exact sameGraph_of_bindings_eq h
  | some y =>
    rw [hbound] at h hr
    obtain ⟨o, hb, -⟩ := h
    have hyx : y ≠ x := fun heq => hr (congrArg some heq)
    exact (sameGraph_bind_of_ne hyx o).trans (sameGraph_of_bindings_eq hb)

theorem BindsTarget.records (hd : st.drops x = false) (hr : s.replaces x st = true)
    (hx : (s.perform st).1.Holds x (.graph g)) : g.Records (s.firstEntries st) := by
  have hr : st.bound? (s.perform st).2 = some x := by
    simpa [replaces, hd] using hr
  have hr : st.bound? (.of (carryOut st s).2) = some x := hr
  unfold BindsTarget at h
  rw [hr] at h
  obtain ⟨o, hb, hgraph⟩ := h
  have hx : (carryOut st s).1.bindings.get? x = some (.graph g) := hx
  rw [hb, Table.get?_insert_self] at hx
  exact hgraph g (Option.some.inj hx)

end BindsTarget

/-- Work that begins in the workshop, whatever it does there, leaves the variables to the rest. -/
theorem bindsTarget_inWorkshop_bind {α : Type} {work : Workshop → Workshop × Except Error α}
    {f : α → Work Reply}
    (h : ∀ w a, work s.workshop = (w, .ok a) → s.BindsTarget st (f a (s.withWorkshop w))) :
    s.BindsTarget st ((Work.inWorkshop work >>= f) s) :=
  inWorkshop_bind_elim (fun _ _ _ => bindsTarget_error rfl) h

theorem createTransform_bindsTarget (target : String) (spec : PlanSpec) :
    s.BindsTarget (.createTransform target spec) (carryOut (.createTransform target spec) s) := by
  refine bindsTarget_read_bind fun before => bindsTarget_inWorkshop_bind fun w t _ => ?_
  split
  · exact bindsTarget_bind rfl rfl nofun
  · exact bindsTarget_error rfl

theorem buildDesign_bindsTarget (target name : String) :
    s.BindsTarget (.buildDesign target name) (carryOut (.buildDesign target name) s) := by
  show s.BindsTarget _ (Work.buildDesign target name s)
  unfold Work.buildDesign
  cases hd : Design.find? name with
  | none => exact rfl
  | some d =>
    refine bindsTarget_inWorkshop_bind fun w g hbuild => bindsTarget_bind rfl rfl fun g' hg => ?_
    cases hg
    simp only [firstEntries, hd]
    exact Design.build_records hbuild

/-- A transform that was found is bound to the target, if there is one. -/
theorem foundTransform_bindsTarget {target : Option String} {t : Transform}
    (ht : st.target? = target) : s.BindsTarget st (Work.foundTransform target t s) := by
  subst ht
  unfold BindsTarget
  cases htarget : st.target? with
  | none =>
    simp only [Step.bound?, htarget, ite_self]
    rfl
  | some y =>
    have hbound : st.bound? (.of (Work.foundTransform (some y) t s).2) = some y := htarget
    rw [hbound]
    exact ⟨_, rfl, nofun⟩

/-- A transform that is looked up may be missing, and then nothing is bound. -/
theorem maybeTransform_bindsTarget {target : Option String} (t : Option Transform)
    (ht : st.target? = target) : s.BindsTarget st (Work.maybeTransform target t s) := by
  cases t with
  | none => exact rfl
  | some t => exact foundTransform_bindsTarget ht

/-! ## What a step does to the graph of a variable -/

/-- **A graph goes on, or a new one begins.**  A variable that is not replaced holds a graph after
the step if and only if it held one before, and this graph has got what the step registered in it; a
graph in a variable that is replaced has its first entries. -/
structure Carries (s : Session) (x : String) (st : Step) (s' : Session) : Prop where
  kept : s.replaces x st = false → ∀ g, s.Holds x (.graph g) →
    ∃ g', s'.Holds x (.graph g') ∧ g.ExtendedBy g' (s.registered x st) (s.joined x st)
  origin : s.replaces x st = false → ∀ g', s'.Holds x (.graph g') → ∃ g, s.Holds x (.graph g)
  made : s.replaces x st = true → ∀ g, s'.Holds x (.graph g) → g.Records (s.firstEntries st)

theorem replaces_eq_false (hd : st.drops x = false) (ht : st.target? = none) :
    s.replaces x st = false := by
  simp [replaces, Step.bound?, hd, ht]

section Carries
variable (ht : s.registered x st = []) (he : s.joined x st = [])
include ht he

theorem Carries.of_sameGraph (h : s.SameGraph s' x) (hr : s.replaces x st = false) :
    s.Carries x st s' where
  kept _ g hx := ⟨g, (h g).mpr hx, ht ▸ he ▸ .refl g⟩
  origin _ g hx := ⟨g, (h g).mp hx⟩
  made hr' := absurd hr' (Bool.eq_false_iff.mp hr)

theorem Carries.of_bindsTarget (h : s.BindsTarget st (carryOut st s)) (hd : st.drops x = false) :
    s.Carries x st (s.perform st).1 where
  kept hr g hx := ⟨g, (h.sameGraph hr g).mpr hx, ht ▸ he ▸ .refl g⟩
  origin hr g hx := ⟨g, (h.sameGraph hr g).mp hx⟩
  made hr _ hx := h.records hd hr hx

end Carries

/-- What is offered to a transform is no graph, and the transform is none either. -/
theorem offer_sameGraph {α : Type} (y z : String) {k : Object.Kind α}
    {add : Transform → α → Transform × Except Error Unit} (hk : ∀ a g, k.wrap a ≠ .graph g)
    (hk' : ∀ a t, k.wrap a ≠ .draft t) : s.SameGraph (Work.offer y z k add s).1 x := by
  rcases s.offer_cases y z k add with h | ⟨t, a, hy, hz, h⟩
  · exact h ▸ .refl s x
  · rw [h]
    exact (sameGraph_unbind hz (hk a)).trans
      (sameGraph_bind (holds_unbind_iff.mpr ⟨hz.ne hy (hk' a t), hy⟩) nofun nofun)

theorem markMemory_sameGraph (y : String) (reads writes : Bool) :
    s.SameGraph (s.perform (.markMemory y reads writes)).1 x :=
  Attempt.read_bind_elim (P := fun r => s.SameGraph r.1 x) (fun _ _ => .refl s x)
    fun _ ht => sameGraph_bind (lookUp_eq_ok.mp ht) nofun nofun

theorem addTransform_carries (y z : String) :
    s.Carries x (.addTransform y z) (s.perform (.addTransform y z)).1 := by
  have hr : s.replaces x (.addTransform y z) = false := replaces_eq_false rfl rfl
  rcases s.addTransform_cases y z with h | ⟨g₁, t, hy, hz, ⟨-, h⟩ | ⟨-, h⟩⟩
  · have hnone : s.registered x (.addTransform y z) = [] := by simp only [registered, h]
    rw [h]
    exact .of_sameGraph hnone rfl (.refl s x) hr
  · have hnone : s.registered x (.addTransform y z) = [] := by simp only [registered, h]
    rw [h]
    exact .of_sameGraph hnone rfl (sameGraph_unbind hz nofun) hr
  · have hone : s.registered x (.addTransform y z) = if y = x then [t] else [] := by
      simp only [registered, h, (lookUp_eq_ok (k := .draft)).mpr hz]
    have hzy : z ≠ y := hz.ne hy nofun
    by_cases hyx : y = x
    · subst y
      rw [if_pos rfl] at hone
      refine ⟨fun _ g hx => ?_, fun _ _ _ => ⟨g₁, hy⟩, fun hr' => ?_⟩
      · obtain rfl : g₁ = g := Object.graph.inj (hy.unique hx)
        rw [h, hone]
        exact ⟨g₁.appendTransform t,
          holds_bind_iff.mpr (Or.inr ⟨hzy, holds_bind_iff.mpr (Or.inl ⟨rfl, rfl⟩)⟩),
          rfl, rfl, (List.append_nil _).symm⟩
      · exact absurd hr' (Bool.eq_false_iff.mp hr)
    · rw [if_neg hyx] at hone
      rw [h]
      refine .of_sameGraph hone rfl (fun g => ⟨fun hx => ?_, fun hx => ?_⟩) hr
      · rcases holds_bind_iff.mp hx with ⟨-, heq⟩ | ⟨-, hx⟩
        · cases heq
        · rcases holds_bind_iff.mp hx with ⟨heq, -⟩ | ⟨-, hx⟩
          · exact absurd heq hyx
          · exact (holds_unbind_iff.mp hx).2
      · have hzx : z ≠ x := hz.ne hx nofun
        exact holds_bind_iff.mpr (Or.inr ⟨hzx, holds_bind_iff.mpr
          (Or.inr ⟨hyx, holds_unbind_iff.mpr ⟨hzx, hx⟩⟩)⟩)

theorem addEdge_carries (y z : String) : s.Carries x (.addEdge y z) (s.perform (.addEdge y z)).1 := by
  have hr : s.replaces x (.addEdge y z) = false := replaces_eq_false rfl rfl
  rcases s.addEdge_cases y z with h | ⟨g₁, e, hy, hz, ⟨side, id, -, h⟩ | ⟨-, h⟩⟩
  · have hnone : s.joined x (.addEdge y z) = [] := by simp only [joined, h]
    rw [h]
    exact .of_sameGraph rfl hnone (.refl s x) hr
  · have hnone : s.joined x (.addEdge y z) = [] := by simp only [joined, h]
    rw [h]
    exact .of_sameGraph rfl hnone (.refl s x) hr
  · have hone : s.joined x (.addEdge y z) = if y = x then [e] else [] := by
      simp only [joined, h, (lookUp_eq_ok (k := .edge)).mpr hz]
    by_cases hyx : y = x
    · subst y
      rw [if_pos rfl] at hone
      refine ⟨fun _ g hx => ?_, fun _ _ _ => ⟨g₁, hy⟩, fun hr' => ?_⟩
      · obtain rfl : g₁ = g := Object.graph.inj (hy.unique hx)
        rw [h, hone]
        exact ⟨g₁.appendEdge e, holds_bind_iff.mpr (Or.inl ⟨rfl, rfl⟩), rfl,
          (List.append_nil _).symm, rfl⟩
      · exact absurd hr' (Bool.eq_false_iff.mp hr)
    · rw [if_neg hyx] at hone
      rw [h]
      exact .of_sameGraph rfl hone (sameGraph_bind_of_ne hyx _) hr

theorem drop_carries (y : String) : s.Carries x (.drop y) (s.perform (.drop y)).1 := by
  by_cases hyx : y = x
  · subst y
    refine ⟨fun hr => ?_, fun hr => ?_, fun _ g hg => ?_⟩
    · simp [replaces, Step.drops] at hr
    · simp [replaces, Step.drops] at hr
    · exact absurd rfl (holds_unbind_iff.mp hg).1
  · have hr : s.replaces x (.drop y) = false :=
      replaces_eq_false (decide_eq_false hyx) rfl
    refine .of_sameGraph rfl rfl (fun g => ?_) hr
    exact ⟨fun h => (holds_unbind_iff.mp h).2, fun hx => holds_unbind_iff.mpr ⟨hyx, hx⟩⟩

/-- **Every ordinary step carries the graphs on**, one case for each kind of step. -/
theorem perform_carries (s : Session) (x : String) (hst : st.isOrdinary = true) :
    s.Carries x st (s.perform st).1 := by
  cases st with
  | addTransform y z => exact addTransform_carries y z
  | addEdge y z => exact addEdge_carries y z
  | createTransform => exact .of_bindsTarget rfl rfl (createTransform_bindsTarget _ _) rfl
  | createPort =>
    exact .of_bindsTarget rfl rfl
      (bindsTarget_inWorkshop_bind fun _ _ _ => bindsTarget_bind rfl rfl nofun) rfl
  | createConstant =>
    exact .of_bindsTarget rfl rfl (bindsTarget_read_bind fun _ =>
      bindsTarget_inWorkshop_bind fun _ _ _ => bindsTarget_bind rfl rfl nofun) rfl
  | setConstant =>
    exact .of_bindsTarget rfl rfl (bindsTarget_read_bind fun _ => bindsTarget_read_bind fun _ => rfl) rfl
  | copyValue =>
    exact .of_bindsTarget rfl rfl (bindsTarget_read_bind fun _ => bindsTarget_read_bind fun _ =>
      bindsTarget_read_bind fun _ => rfl) rfl
  | resolveConstant =>
    exact .of_bindsTarget rfl rfl (bindsTarget_read_bind fun _ =>
      bindsTarget_inWorkshop_bind fun _ _ _ => rfl) rfl
  | connect =>
    exact .of_bindsTarget rfl rfl (bindsTarget_read_bind fun _ => bindsTarget_read_bind fun _ =>
      bindsTarget_read_bind fun _ => bindsTarget_bind rfl rfl nofun) rfl
  | joinPorts =>
    exact .of_bindsTarget rfl rfl (bindsTarget_read_bind fun _ => bindsTarget_read_bind fun _ =>
      bindsTarget_read_bind fun _ => bindsTarget_bind rfl rfl nofun) rfl
  | relabel =>
    exact .of_bindsTarget rfl rfl
      (bindsTarget_read_bind fun _ => bindsTarget_bind rfl rfl nofun) rfl
  | createGraph =>
    refine .of_bindsTarget rfl rfl (bindsTarget_bind rfl rfl fun g hg => ?_) rfl
    cases hg
    exact Graph.records_empty _
  | buildDesign => exact .of_bindsTarget rfl rfl (buildDesign_bindsTarget _ _) rfl
  | findTransform =>
    exact .of_bindsTarget rfl rfl
      (bindsTarget_read_bind fun _ => maybeTransform_bindsTarget _ rfl) rfl
  | findTransformWithId =>
    exact .of_bindsTarget rfl rfl
      (bindsTarget_read_bind fun _ => maybeTransform_bindsTarget _ rfl) rfl
  | findOwner =>
    exact .of_bindsTarget rfl rfl (bindsTarget_read_bind fun _ => bindsTarget_read_bind fun _ =>
      bindsTarget_read_bind fun _ => foundTransform_bindsTarget rfl) rfl
  | findOwnerOfId =>
    exact .of_bindsTarget rfl rfl (bindsTarget_read_bind fun _ =>
      bindsTarget_read_bind fun _ => foundTransform_bindsTarget rfl) rfl
  | addConstant y z =>
    exact .of_sameGraph rfl rfl (offer_sameGraph (k := .constant) y z (fun _ _ => nofun)
      fun _ _ => nofun) (replaces_eq_false rfl rfl)
  | addPort y z =>
    exact .of_sameGraph rfl rfl (offer_sameGraph (k := .port) y z (fun _ _ => nofun)
      fun _ _ => nofun) (replaces_eq_false rfl rfl)
  | addPortTo d y z =>
    exact .of_sameGraph rfl rfl (offer_sameGraph (k := .port) y z (fun _ _ => nofun)
      fun _ _ => nofun) (replaces_eq_false rfl rfl)
  | markMemory y reads writes =>
    exact .of_sameGraph rfl rfl (markMemory_sameGraph y reads writes) (replaces_eq_false rfl rfl)
  | drop y => exact drop_carries y
  | takeLog => exact .of_sameGraph rfl rfl (.refl s x) (replaces_eq_false rfl rfl)
  | forgeEdge | forceEdge | forceTransform | forceIndex => cases hst
  -- all other steps only look
  | _ => exact .of_sameGraph rfl rfl (.refl s x) (replaces_eq_false rfl rfl)

end Perform

/-! ## Runs -/

section Run
variable {s : Session} {x : String} {g : Graph} {steps : List Step}
  (hsteps : ∀ st ∈ steps, st.isOrdinary = true)
include hsteps

/-- **A graph holds what the run entered**, if it did so at the beginning. -/
theorem run_records {entries : Entries} (h : ∀ g, s.Holds x (.graph g) → g.Records entries) :
    ∀ g, (s.run steps).1.Holds x (.graph g) → g.Records (s.entriesAfterAll x steps entries) := by
  induction steps generalizing s entries with
  | nil => exact h
  | cons st rest ih =>
    obtain ⟨hst, hrest⟩ := List.forall_mem_cons.mp hsteps
    have hcarries := perform_carries s x hst
    refine ih hrest fun g' hg' => ?_
    unfold entriesAfter
    cases hr : s.replaces x st with
    | true => exact hcarries.made hr g' hg'
    | false =>
      -- the graph was there before the step, and what it has become is unique
      obtain ⟨g, hg⟩ := hcarries.origin hr g' hg'
      obtain ⟨g'', hg'', hext⟩ := hcarries.kept hr g hg
      obtain rfl : g' = g'' := Object.graph.inj (hg'.unique hg'')
      exact (h g hg).extendedBy hext

/-- **A graph that stays only grows.** -/
theorem run_extendedBy (hr : s.Retains x steps) (hx : s.Holds x (.graph g)) :
    ∃ g' ts es, (s.run steps).1.Holds x (.graph g') ∧ g.ExtendedBy g' ts es := by
  induction steps generalizing s g with
  | nil => exact ⟨g, [], [], hx, .refl g⟩
  | cons st rest ih =>
    obtain ⟨hst, hrest⟩ := List.forall_mem_cons.mp hsteps
    obtain ⟨g₁, hx₁, hext₁⟩ := (perform_carries s x hst).kept hr.1 g hx
    obtain ⟨g', ts, es, hx', hext⟩ := ih hrest hr.2 hx₁
    exact ⟨g', _, _, hx', hext₁.trans hext⟩

end Run

/-- **Graphs are append-only, and what is found in them lasts.**  Take any state of an ordinary run
and any continuation in which the graph of a variable stays.  The graph is still there, its history
has gone on, and in both states it holds its history place by place; everything that it had and
found before, it has and finds afterwards. -/
theorem graph_lasts {n : Nat} {before after : List Step} (h : Ordinary n (before ++ after))
    {x : String} {g : Graph} (hx : ((start n).run before).1.Holds x (.graph g))
    (hr : ((start n).run before).1.Retains x after) :
    g.Records (history n x before) ∧
      ∃ g', ((start n).run (before ++ after)).1.Holds x (.graph g') ∧
        g'.Records (history n x (before ++ after)) ∧
        (g'.transforms.length ≤ 4294967295 → g.LastsIn g') := by
  have hnone : ∀ g, (start n).Holds x (.graph g) → g.Records .none := nofun
  have hg : g.Sound := h.of_append.sound.object x _ hx
  have hafter : ∀ st ∈ after, st.isOrdinary = true := fun st hst =>
    h.keepsRules st (List.mem_append_right before hst)
  obtain ⟨g', ts, es, hx', hext⟩ := run_extendedBy hafter hr hx
  rw [← run_append_fst] at hx'
  have hg' : g'.Sound := h.sound.object x _ hx'
  refine ⟨run_records h.of_append.keepsRules hnone g hx, g', hx',
    run_records h.keepsRules hnone g' hx', fun hl => ?_⟩
  exact hg.lastsIn hg' hl hext.name (hext.transforms ▸ List.prefix_append _ _)
    (hext.edges ▸ List.prefix_append _ _)

/-- The reader stays the first transform of the pipeline while the writer and an edge come in. -/
theorem graph_lasts_pipeline : ∃ g g' : Graph,
    ((start 0).run (pipeline.take 4)).1.Holds "graph" (.graph g) ∧
      ((start 0).run pipeline).1.Holds "graph" (.graph g') ∧ g.transforms.length = 1 ∧
        g'.transforms.length = 2 ∧ g'.edges.length = 1 ∧ g.LastsIn g' := by
  have hord : Ordinary 0 (pipeline.take 4 ++ pipeline.drop 4) := ordinary_pipeline
  obtain ⟨g, hx, hl⟩ : ∃ g : Graph,
      ((start 0).run (pipeline.take 4)).1.Holds "graph" (.graph g) ∧ g.transforms.length = 1 :=
    ⟨_, rfl, rfl⟩
  have hr : ((start 0).run (pipeline.take 4)).1.Retains "graph" (pipeline.drop 4) := by
    refine ⟨?_, ?_, ?_, trivial⟩ <;> decide +kernel
  obtain ⟨-, g', hx', -, hlasts⟩ := graph_lasts hord hx hr
  obtain ⟨g₂, hx₂, hl₂, he₂⟩ := holds_pipeline
  obtain rfl : g₂ = g' := Object.graph.inj (hx₂.unique hx')
  exact ⟨g, g₂, hx, hx', hl, hl₂, he₂, hlasts (by omega)⟩

end Session

end Dataflow
