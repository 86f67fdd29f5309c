import Dataflow.Proofs.Graph.Skeleton
import Dataflow.Proofs.Session.Ordinary

/-!
# Structure does not depend on payload

Types of ports, labels of edges, values of constants and marks of transforms are carried along and
shown, but no step of a session that builds, connects, registers, looks up or checks depends on
them.  A session and its skeleton (`Session.skeleton`) go through the skeleton of a step alike
(`Session.carryOut_skeleton`).  So do two sessions with one skeleton, step by step, for any two lists
of steps with one skeleton (`Session.run_sameStructure`).

Left out are the steps that compare ports or edges and those that read the value of a constant
(`Step.isStructural`).  And a value that is to be bound has to make sense, because a step with a
value that means nothing is not carried out at all (`Session.Understood`).
-/

namespace Dataflow

/-! ## Tables -/

namespace Table
variable {κ ν μ : Type}

/-- The table with another value for each key. -/
def map (f : ν → μ) (t : Table κ ν) : Table κ μ :=
  ⟨t.entries.map fun entry => (entry.1, f entry.2), by
    have hkeys : (t.entries.map fun entry => (entry.1, f entry.2)).map Prod.fst =
        t.entries.map Prod.fst := by
      rw [List.map_map]
      rfl
    rw [hkeys]
    exact t.nodup⟩

theorem map_map_self {f : ν → ν} (hf : ∀ v, f (f v) = f v) (t : Table κ ν) :
    (t.map f).map f = t.map f := by
  apply eq_of_entries
  simp [map, Function.comp_def, hf]

variable [DecidableEq κ] (f : ν → μ) (t : Table κ ν) (k : κ)

theorem get?_map : (t.map f).get? k = (t.get? k).map f := by
  show valueIn k (t.entries.map _) = (valueIn k t.entries).map f
  induction t.entries with
  | nil => rfl
  | cons entry rest ih =>
    rw [List.map_cons, valueIn, valueIn, ih]
    split <;> rfl

theorem insert_map (v : ν) : (t.map f).insert k (f v) = (t.insert k v).map f := by
  apply eq_of_entries
  show write k (f v) (t.entries.map _) = (write k v t.entries).map _
  induction t.entries with
  | nil => rfl
  | cons entry rest ih =>
    rw [List.map_cons, write, write, ih]
    split <;> rfl

theorem erase_map : (t.map f).erase k = (t.erase k).map f := by
  apply eq_of_entries
  show (t.entries.map _).filter _ = (t.entries.filter _).map _
  rw [List.filter_map]
  rfl

theorem contains_map : (t.map f).contains k = t.contains k := by
  rw [contains_eq, contains_eq, get?_map, Option.isSome_map]

end Table

/-! ## Sessions -/

/-- What a variable holds, without payload. -/
def Object.skeleton : Object → Object
  | .port p => .port p.skeleton
  | .constant c => .constant c
  | .draft t => .draft t.skeleton
  | .handle t => .handle t.skeleton
  | .edge e => .edge e.skeleton
  | .graph g => .graph g.skeleton

namespace Object

@[simp] theorem skeleton_skeleton (o : Object) : o.skeleton.skeleton = o.skeleton := by
  cases o <;> simp [skeleton]

theorem port_congr {p p' : Port} (h : p.skeleton = p'.skeleton) :
    (port p).skeleton = (port p').skeleton := congrArg port h

theorem draft_congr {t t' : Transform} (h : t.skeleton = t'.skeleton) :
    (draft t).skeleton = (draft t').skeleton := congrArg draft h

theorem handle_congr {t t' : Transform} (h : t.skeleton = t'.skeleton) :
    (handle t).skeleton = (handle t').skeleton := congrArg handle h

theorem edge_congr {e e' : Edge} (h : e.skeleton = e'.skeleton) :
    (edge e).skeleton = (edge e').skeleton := congrArg edge h

theorem graph_congr {g g' : Graph} (h : g.skeleton = g'.skeleton) :
    (graph g).skeleton = (graph g').skeleton := congrArg graph h

end Object

namespace Session

/-- The session without payload. -/
def skeleton (s : Session) : Session := ⟨s.workshop.skeleton, s.bindings.map Object.skeleton⟩

section Skeleton
variable (s : Session) (x : String)

@[simp] theorem skeleton_skeleton : s.skeleton.skeleton = s.skeleton := by
  simp [skeleton, Table.map_map_self Object.skeleton_skeleton]

@[simp] theorem skeleton_bind (o : Object) :
    (s.bind x o).skeleton = s.skeleton.bind x o.skeleton := by
  simp only [bind, skeleton, Table.insert_map]

@[simp] theorem skeleton_unbind : (s.unbind x).skeleton = s.skeleton.unbind x := by
  simp only [unbind, skeleton, Table.erase_map]

@[simp] theorem skeleton_withWorkshop (w : Workshop) :
    (s.withWorkshop w).skeleton = s.skeleton.withWorkshop w.skeleton := rfl

@[simp] theorem skeleton_withStore (store : Store) :
    (s.withStore store).skeleton = s.skeleton.withStore store.skeleton := rfl

@[simp] theorem skeleton_bindIfSome (target : Option String) (o : Object) :
    (s.bindIfSome target o).skeleton = s.skeleton.bindIfSome target o.skeleton := by
  cases target with
  | none => rfl
  | some y => exact s.skeleton_bind y o

/-! ### Looking up -/

theorem get?_skeleton :
    s.skeleton.bindings.get? x = (s.bindings.get? x).map Object.skeleton :=
  Table.get?_map _ _ _

/-- A variable holds the skeleton of what it held, which is of the same sort. -/
theorem lookUp_skeleton {α : Type} {k : Object.Kind α} {f : α → α}
    (hk : ∀ o : Object, k.unwrap? o.skeleton = (k.unwrap? o).map f) :
    s.skeleton.lookUp k x = (s.lookUp k x).map f := by
  unfold lookUp
  rw [get?_skeleton]
  cases s.bindings.get? x with
  | none => rfl
  | some o =>
    simp only [Option.map_some, Option.bind_some, hk]
    cases k.unwrap? o <;> rfl

theorem loosePort_skeleton : s.skeleton.lookUp .port x = (s.lookUp .port x).map Port.skeleton :=
  s.lookUp_skeleton x fun o => by cases o <;> rfl

theorem looseConstant_skeleton :
    s.skeleton.lookUp .constant x = (s.lookUp .constant x).map fun c => c :=
  s.lookUp_skeleton x fun o => by cases o <;> rfl

theorem draft_skeleton : s.skeleton.lookUp .draft x = (s.lookUp .draft x).map Transform.skeleton :=
  s.lookUp_skeleton x fun o => by cases o <;> rfl

theorem handle_skeleton :
    s.skeleton.lookUp .handle x = (s.lookUp .handle x).map Transform.skeleton :=
  s.lookUp_skeleton x fun o => by cases o <;> rfl

theorem edge_skeleton : s.skeleton.lookUp .edge x = (s.lookUp .edge x).map Edge.skeleton :=
  s.lookUp_skeleton x fun o => by cases o <;> rfl

theorem graph_skeleton : s.skeleton.lookUp .graph x = (s.lookUp .graph x).map Graph.skeleton :=
  s.lookUp_skeleton x fun o => by cases o <;> rfl

theorem transform_skeleton : s.skeleton.transform x = (s.transform x).map Transform.skeleton := by
  unfold transform
  rw [draft_skeleton, handle_skeleton]
  cases s.lookUp .draft x <;> rfl

theorem orRefuse_map {α β : Type} (f : α → β) (r : Except Error α) :
    orRefuse (r.map f) = (orRefuse r).map f := by
  cases r <;> rfl

theorem port_skeleton (r : PortRef) : s.skeleton.port r = (s.port r).map Port.skeleton := by
  cases r with
  | loose x => exact s.loosePort_skeleton x
  | positioned x d index =>
    simp only [port, transform_skeleton]
    cases s.transform x with
    | error f => rfl
    | ok t => exact (congrArg orRefuse (t.portAt_skeleton d index)).trans (orRefuse_map _ _)
  | named x name =>
    simp only [port, transform_skeleton]
    cases s.transform x with
    | error f => rfl
    | ok t => exact (congrArg orRefuse (t.port_skeleton name)).trans (orRefuse_map _ _)

theorem constant_skeleton (r : ConstantRef) :
    s.skeleton.constant r = (s.constant r).map fun c => c := by
  cases r with
  | loose x => exact s.looseConstant_skeleton x
  | named x name =>
    simp only [constant, transform_skeleton]
    cases s.transform x with
    | error f => rfl
    | ok t =>
      show orRefuse (t.constant name) = (orRefuse (t.constant name)).map _
      cases t.constant name <;> rfl

theorem endpoint_skeleton (r : EndpointRef) :
    s.skeleton.endpoint r = (s.endpoint r).map Endpoint.skeleton := by
  cases r with
  | port r =>
    simp only [endpoint, port_skeleton]
    cases s.port r <;> rfl
  | whole x =>
    simp only [endpoint, transform_skeleton]
    cases s.transform x <;> rfl

end Skeleton

end Session

/-! ## Steps and answers -/

/-- The specification without types, marks and values. -/
def PlanSpec.skeleton (p : PlanSpec) : PlanSpec :=
  { p with
    readsMemory := false
    writesMemory := false
    inputs := p.inputs.map fun port => (port.1, ⟨""⟩)
    outputs := p.outputs.map fun port => (port.1, ⟨""⟩)
    constants := p.constants.map fun constant => (constant.1, none) }

namespace Step

/-- The step without payload.  A constant is made without a value, and an empty text stands for a
value that a constant is set to. -/
def skeleton : Step → Step
  | createPort x name _ d => createPort x name ⟨""⟩ d
  | createConstant x name _ => createConstant x name none
  | setConstant r _ => setConstant r (.literal "")
  | createTransform x plan => createTransform x plan.skeleton
  | markMemory x _ _ => markMemory x false false
  | connect x a b _ => connect x a b none
  | relabel x e _ => relabel x e ""
  | forgeEdge x e => forgeEdge x e.skeleton
  | forceEdge g e => forceEdge g e.skeleton
  | st => st

/-- The step neither compares ports or edges nor reads the value of a constant. -/
def isStructural : Step → Bool
  | comparePorts _ _ => false
  | compareEdges _ _ => false
  | viewConstant _ => false
  | inspectConstant _ => false
  | copyValue _ _ => false
  | resolveConstant _ _ => false
  | _ => true

theorem isStructural_skeleton (st : Step) : st.skeleton.isStructural = st.isStructural := by
  cases st <;> rfl

end Step

/-- The result of a step without payload.  Texts may tell of types and labels, so they are left
out. -/
def Reply.skeleton : Reply → Reply
  | .text _ => .text ""
  | .memory _ _ => .memory false false
  | .port p => .port p.skeleton
  | .constant v => .text v.name
  | .outline o => .outline ⟨"", o.constants⟩
  | .transform v => .transform ⟨v.transform.skeleton, []⟩
  | .edge e => .edge e.skeleton
  | .registered e _ => .registered e.skeleton ""
  | .graph v =>
    .graph { v with
      transforms := v.transforms.map fun _ => ""
      edges := v.edges.map Edge.skeleton
      shown := v.shown.map fun _ => "" }
  | .events log => .events (log.map Event.skeleton)
  | r => r

/-- The end of a step without payload: whether it was carried out, and the cause if it was not. -/
def Outcome.skeleton : Outcome → Outcome
  | .done r => .done r.skeleton
  | .refused e => .refused e
  | .senseless => .senseless

namespace Session

/-- Every value that the step binds makes sense. -/
def understandsStep (s : Session) : Step → Bool
  | .createConstant _ _ v => (s.valueIfSome v).isOk
  | .setConstant _ v => (s.value v).isOk
  | .createTransform _ plan => s.understands plan
  | _ => true

/-! ## Sessions with one skeleton -/

section Congr
variable {s s' : Session} (hs : s.skeleton = s'.skeleton)
include hs

theorem bind_congr (x : String) {o o' : Object} (ho : o.skeleton = o'.skeleton) :
    (s.bind x o).skeleton = (s'.bind x o').skeleton := by
  rw [skeleton_bind, skeleton_bind, hs, ho]

theorem bindIfSome_congr (target : Option String) {o o' : Object} (ho : o.skeleton = o'.skeleton) :
    (s.bindIfSome target o).skeleton = (s'.bindIfSome target o').skeleton := by
  rw [skeleton_bindIfSome, skeleton_bindIfSome, hs, ho]

theorem unbind_congr (x : String) : (s.unbind x).skeleton = (s'.unbind x).skeleton := by
  rw [skeleton_unbind, skeleton_unbind, hs]

theorem withWorkshop_congr {w w' : Workshop} (hw : w.skeleton = w'.skeleton) :
    (s.withWorkshop w).skeleton = (s'.withWorkshop w').skeleton := by
  rw [skeleton_withWorkshop, skeleton_withWorkshop, hs, hw]

theorem withStore_congr {store store' : Store} (h : store.skeleton = store'.skeleton) :
    (s.withStore store).skeleton = (s'.withStore store').skeleton := by
  rw [skeleton_withStore, skeleton_withStore, hs, h]

theorem workshop_congr : s.workshop.skeleton = s'.workshop.skeleton :=
  congrArg Session.workshop hs

/-- What is looked up without regard to payload is the same but for payload. -/
theorem lookUp_congr {α : Type} {f : α → α} {r : Session → Except Obstacle α}
    (h : ∀ s : Session, r s.skeleton = (r s).map f) : (r s).map f = (r s').map f := by
  rw [← h, hs, h]

end Congr

/-! ## Work that goes alike -/

/-- **Two pieces of work have ended alike**: in sessions with one skeleton, and with results that have
one skeleton or for one cause. -/
def Alike {α : Type} (k : α → α) (r r' : Session × Except Obstacle α) : Prop :=
  skeletons skeleton k r = skeletons skeleton k r'

section Alike
variable {α β : Type} {s s' : Session} {f : α → α} {k : β → β} (hs : s.skeleton = s'.skeleton)
include hs

theorem alike_ok {b b' : β} (h : k b = k b') : Alike k (s, .ok b) (s', .ok b') :=
  Prod.ext hs (congrArg Except.ok h)

theorem alike_error (e : Obstacle) : Alike k (s, .error e) (s', .error e) := Prod.ext hs rfl

theorem alike_read {r r' : Session → Except Obstacle β} (h : (r s).map k = (r' s').map k) :
    Alike k (Attempt.read r s) (Attempt.read r' s') := Prod.ext hs h

/-- Two pieces of work that read alike, and go on alike with what they have read. -/
theorem alike_read_bind {r r' : Session → Except Obstacle α} {F F' : α → Work β}
    (hr : (r s).map f = (r' s').map f)
    (h : ∀ a a', r s = .ok a → r' s' = .ok a' → f a = f a' → Alike k (F a s) (F' a' s')) :
    Alike k ((Attempt.read r >>= F) s) ((Attempt.read r' >>= F') s') := by
  have hread : skeletons skeleton f (Attempt.read r s) = skeletons skeleton f (Attempt.read r' s') :=
    alike_read hs hr
  rcases skeletons_cases hread with
    ⟨_, _, e, hfirst, hfirst', -⟩ | ⟨_, _, a, a', hfirst, hfirst', -, ha⟩
  · have he : r s = .error e := congrArg Prod.snd hfirst
    have he' : r' s' = .error e := congrArg Prod.snd hfirst'
    rw [Attempt.read_bind_of_error he, Attempt.read_bind_of_error he']
    exact alike_error hs e
  · have ha₁ : r s = .ok a := congrArg Prod.snd hfirst
    have ha₁' : r' s' = .ok a' := congrArg Prod.snd hfirst'
    rw [Attempt.read_bind_of_ok ha₁, Attempt.read_bind_of_ok ha₁']
    exact h a a' ha₁ ha₁' ha

/-- Two pieces of work that begin with the same lookup. -/
theorem alike_lookUp_bind {r : Session → Except Obstacle α} {F F' : α → Work β}
    (hr : ∀ s : Session, r s.skeleton = (r s).map f)
    (h : ∀ a a', f a = f a' → Alike k (F a s) (F' a' s')) :
    Alike k ((Attempt.read r >>= F) s) ((Attempt.read r >>= F') s') :=
  alike_read_bind hs (lookUp_congr hs hr) fun a a' _ _ ha => h a a' ha

/-- Two pieces of work that begin with the same answer. -/
theorem alike_answer_bind {x x' : Except Error α} {F F' : α → Work β} (hx : x.map f = x'.map f)
    (h : ∀ a a', f a = f a' → Alike k (F a s) (F' a' s')) :
    Alike k ((Work.answer x >>= F) s) ((Work.answer x' >>= F') s') := by
  refine alike_read_bind hs (f := f) ?_ fun a a' _ _ ha => h a a' ha
  show (orRefuse x).map f = (orRefuse x').map f
  rw [← orRefuse_map, hx, orRefuse_map]

/-- Two pieces of work that begin alike in their workshops. -/
theorem alike_inWorkshop_bind {work work' : Workshop → Workshop × Except Error α}
    {F F' : α → Work β} (hw : skeletons Workshop.skeleton f (work s.workshop) =
      skeletons Workshop.skeleton f (work' s'.workshop))
    (h : ∀ s s' a a', s.skeleton = s'.skeleton → f a = f a' → Alike k (F a s) (F' a' s')) :
    Alike k ((Work.inWorkshop work >>= F) s) ((Work.inWorkshop work' >>= F') s') := by
  have hfirst : Alike f (Work.inWorkshop work s) (Work.inWorkshop work' s') := by
    unfold Work.inWorkshop
    rcases skeletons_cases hw with ⟨w, w', e, hr, hr', hw⟩ | ⟨w, w', a, a', hr, hr', hw, ha⟩
    · rw [hr, hr']
      exact alike_error (withWorkshop_congr hs hw) _
    · rw [hr, hr']
      exact alike_ok (withWorkshop_congr hs hw) ha
  exact andThen_congr hfirst h

/-- Two pieces of work that begin alike on graphs with one skeleton. -/
theorem alike_inGraph_bind {x : String} {g g' : Graph}
    {work work' : Workshop → Graph → (Workshop × Graph) × Except Error Unit} {F F' : Graph → Work β}
    (hw : skeletons (Prod.map Workshop.skeleton Graph.skeleton) id (work s.workshop g) =
      skeletons (Prod.map Workshop.skeleton Graph.skeleton) id (work' s'.workshop g'))
    (h : ∀ s s' g g', s.skeleton = s'.skeleton → g.skeleton = g'.skeleton →
      Alike k (F g s) (F' g' s')) :
    Alike k ((Work.inGraph x g work >>= F) s) ((Work.inGraph x g' work' >>= F') s') := by
  have hfirst : Alike Graph.skeleton (Work.inGraph x g work s) (Work.inGraph x g' work' s') := by
    unfold Work.inGraph
    rcases skeletons_cases hw with
      ⟨⟨w, g₁⟩, ⟨w', g₁'⟩, e, hr, hr', hwg⟩ | ⟨⟨w, g₁⟩, ⟨w', g₁'⟩, a, a', hr, hr', hwg, -⟩
    · rw [hr, hr']
      obtain ⟨hw, hg⟩ := Prod.mk.inj hwg
      exact alike_error (bind_congr (withWorkshop_congr hs hw) x (Object.graph_congr hg)) _
    · rw [hr, hr']
      obtain ⟨hw, hg⟩ := Prod.mk.inj hwg
      exact alike_ok (bind_congr (withWorkshop_congr hs hw) x (Object.graph_congr hg)) hg
  exact andThen_congr hfirst h

end Alike

/-! ## What a plan and a graph show -/

/-- Of values that make sense nothing is left in a skeleton. -/
theorem map_const_of_isOk {ε α : Type} {x x' : Except ε α} (a : α) (h : x.isOk = true)
    (h' : x'.isOk = true) : x.map (fun _ => a) = x'.map fun _ => a := by
  cases x with
  | error e => cases h
  | ok b =>
    cases x' with
    | error e => cases h'
    | ok b' => rfl

theorem plan_skeleton (s : Session) {spec : PlanSpec} (h : s.understands spec = true) :
    s.skeleton.plan spec.skeleton = (s.plan spec).skeleton := by
  -- without values there is nothing to understand, and a plan that makes sense is not cut off
  have hnone : ∀ l : List (String × Option ValueSpec),
      s.skeleton.plannedConstants (l.map fun c => (c.1, none)) = l.map fun c => (c.1, none) := by
    intro l
    induction l with
    | nil => rfl
    | cons c rest ih => exact congrArg (List.cons _) ih
  have hall : ∀ l : List (String × Option ValueSpec),
      (l.all fun c => (s.valueIfSome c.2).isOk) = true →
        (s.plannedConstants l).map (fun c => (c.1, (none : Option Value))) =
          l.map fun c => (c.1, none) := by
    intro l hl
    induction l with
    | nil => rfl
    | cons c rest ih =>
      obtain ⟨name, v⟩ := c
      rw [List.all_cons, Bool.and_eq_true] at hl
      cases hv : s.valueIfSome v with
      | error f =>
        rw [hv] at hl
        cases hl.1
      | ok value =>
        rw [plannedConstants, hv]
        exact congrArg (List.cons _) (ih hl.2)
  unfold plan Plan.skeleton
  simp only [PlanSpec.skeleton, hnone, hall spec.constants h]

theorem understands_skeleton (s : Session) (spec : PlanSpec) :
    s.skeleton.understands spec.skeleton = true := by
  simp [understands, PlanSpec.skeleton, valueIfSome, Except.isOk, Except.toBool]

theorem view_skeleton (g : Graph) :
    (Reply.graph g.skeleton.view).skeleton = (Reply.graph g.view).skeleton := by
  simp [Reply.skeleton, Graph.view, Graph.skeleton, Function.comp_def]

theorem size_skeleton (g : Graph) : g.skeleton.size = g.size := by
  simp [Graph.size, Graph.skeleton]

/-! ## What each sort of step does to the skeleton -/

section Steps
variable {s s' : Session} (hs : s.skeleton = s'.skeleton) (x y : String)
include hs

theorem createPort_congr (name : String) (type type' : PortType) (d : Direction) :
    Alike Reply.skeleton (Work.createPort x name type d s) (Work.createPort x name type' d s') :=
  alike_inWorkshop_bind hs (Workshop.createPort_congr (workshop_congr hs) name type type' d)
    fun _ _ _ _ hs hp => alike_ok (bind_congr hs x (Object.port_congr hp)) (congrArg Reply.port hp)

theorem createConstant_congr (name : String) {v v' : Option ValueSpec}
    (hv : (s.valueIfSome v).isOk = true) (hv' : (s'.valueIfSome v').isOk = true) :
    Alike Reply.skeleton (Work.createConstant x name v s) (Work.createConstant x name v' s') := by
  refine alike_read_bind hs (map_const_of_isOk none hv hv') fun v v' _ _ _ => ?_
  refine alike_inWorkshop_bind hs (Workshop.createConstant_congr (workshop_congr hs) name v v')
    fun s s' c c' hs hc => ?_
  have hc : c = c' := hc
  subst hc
  exact alike_ok (bind_congr hs x rfl) rfl

theorem setConstant_congr (r : ConstantRef) {v v' : ValueSpec} (hv : (s.value v).isOk = true)
    (hv' : (s'.value v').isOk = true) :
    Alike Reply.skeleton (Work.setConstant r v s) (Work.setConstant r v' s') := by
  refine alike_read_bind hs (map_const_of_isOk (.literal "") hv hv') fun v v' _ _ _ => ?_
  refine alike_lookUp_bind hs (fun s => s.constant_skeleton r) fun c c' hc => ?_
  have hc : c = c' := hc
  subst hc
  have hstore : s.store.skeleton = s'.store.skeleton := congrArg Workshop.store (workshop_congr hs)
  exact alike_ok (withStore_congr hs (Store.set_congr hstore c v v')) rfl

theorem createTransform_congr {spec spec' : PlanSpec}
    (hplan : (s.plan spec).skeleton = (s'.plan spec').skeleton) (h : s.understands spec = true)
    (h' : s'.understands spec' = true) :
    Alike Reply.skeleton (Work.createTransform x spec s) (Work.createTransform x spec' s') := by
  refine alike_read_bind (f := skeleton) hs (congrArg Except.ok hs) fun before before' hb hb' _ => ?_
  cases hb
  cases hb'
  refine alike_inWorkshop_bind hs (Workshop.make_congr (workshop_congr hs) hplan)
    fun s₁ s₁' t t' hs ht => ?_
  rw [if_pos h, if_pos h']
  have houtline := congrArg (fun t : Transform => Reply.outline ⟨"", t.outline.constants⟩) ht
  exact alike_ok (bind_congr hs x (Object.draft_congr ht)) houtline

theorem markMemory_congr (reads writes reads' writes' : Bool) :
    Alike Reply.skeleton (Work.markMemory x reads writes s) (Work.markMemory x reads' writes' s') := by
  refine alike_lookUp_bind hs (fun s => s.draft_skeleton x) fun t t' ht => ?_
  have ht : (t.withMemory reads writes).skeleton = (t'.withMemory reads' writes').skeleton := ht
  exact alike_ok (bind_congr hs x (Object.draft_congr ht)) rfl

/-- What is offered to a transform is taken in or refused alike. -/
theorem offer_congr {α : Type} {k : Object.Kind α} {f : α → α}
    (hk : ∀ o : Object, k.unwrap? o.skeleton = (k.unwrap? o).map f)
    {add : Transform → α → Transform × Except Error Unit}
    (hadd : ∀ t t' a a', t.skeleton = t'.skeleton → f a = f a' →
      skeletons Transform.skeleton id (add t a) = skeletons Transform.skeleton id (add t' a')) :
    Alike Reply.skeleton (Work.offer x y k add s) (Work.offer x y k add s') := by
  refine alike_lookUp_bind hs (fun s => s.draft_skeleton x) fun t t' ht => ?_
  refine alike_lookUp_bind hs (fun s => s.lookUp_skeleton y hk) fun a a' ha => ?_
  obtain ⟨hadded, hanswer⟩ := Prod.mk.inj (hadd t t' a a' ht ha)
  have hs := bind_congr (unbind_congr hs y) x (Object.draft_congr hadded)
  exact alike_answer_bind hs hanswer fun _ _ _ => alike_ok hs rfl

theorem offerConstant_congr : Alike Reply.skeleton (Work.offer x y .constant Transform.addConstant s)
    (Work.offer x y .constant Transform.addConstant s') := by
  refine offer_congr hs x y (f := fun c => c) (fun o => by cases o <;> rfl) fun t t' c c' ht hc => ?_
  have hc : c = c' := hc
  rw [← Transform.addConstant_skeleton, ht, hc, Transform.addConstant_skeleton]

theorem offerPort_congr (direction : Port → Direction)
    (hd : ∀ p : Port, direction p.skeleton = direction p) :
    Alike Reply.skeleton (Work.offer x y .port (fun t p => t.addPortTo (direction p) p) s)
      (Work.offer x y .port (fun t p => t.addPortTo (direction p) p) s') := by
  refine offer_congr hs x y (f := Port.skeleton) (fun o => by cases o <;> rfl)
    fun t t' p p' ht hp => ?_
  rw [← Transform.addPortTo_skeleton, ← Transform.addPortTo_skeleton, ht, hp, ← hd p, ← hd p', hp]

/-! ### Edges -/

theorem bindEdge_congr {e e' : Edge} (he : e.skeleton = e'.skeleton) :
    Alike Reply.skeleton (Work.bindEdge x e s) (Work.bindEdge x e' s') :=
  alike_ok (bind_congr hs x (Object.edge_congr he)) (congrArg Reply.edge he)

theorem connect_congr (a b : EndpointRef) (label label' : Option String) :
    Alike Reply.skeleton (Work.connect x a b label s) (Work.connect x a b label' s') := by
  refine alike_lookUp_bind hs (fun s => s.endpoint_skeleton a) fun a a' ha => ?_
  refine alike_lookUp_bind hs (fun s => s.endpoint_skeleton b) fun b b' hb => ?_
  have hedge : Dataflow.connect a b = Dataflow.connect a' b' := by
    rw [← Dataflow.connect_skeleton, ha, hb, Dataflow.connect_skeleton]
  refine alike_answer_bind hs (congrArg (Except.map Edge.skeleton) hedge) fun e e' he => ?_
  refine bindEdge_congr hs x ?_
  cases label <;> cases label' <;> exact he

theorem joinPorts_congr (a b : PortRef) :
    Alike Reply.skeleton (Work.joinPorts x a b s) (Work.joinPorts x a b s') := by
  refine alike_lookUp_bind hs (fun s => s.port_skeleton a) fun p p' hp => ?_
  refine alike_lookUp_bind hs (fun s => s.port_skeleton b) fun q q' hq => ?_
  have hedge : Edge.between p q = Edge.between p' q' := by
    rw [← Edge.between_skeleton, hp, hq, Edge.between_skeleton]
  exact alike_answer_bind hs (congrArg (Except.map Edge.skeleton) hedge) fun e e' he =>
    bindEdge_congr hs x he

theorem relabel_congr (label label' : String) :
    Alike Reply.skeleton (Work.relabel x y label s) (Work.relabel x y label' s') :=
  alike_lookUp_bind hs (fun s => s.edge_skeleton y) fun e e' he =>
    have hnamed : (e.named label).skeleton = (e'.named label').skeleton := he
    bindEdge_congr hs x hnamed

/-! ### Graphs -/

theorem bindGraph_congr {g g' : Graph} (hg : g.skeleton = g'.skeleton) :
    Alike Reply.skeleton (Work.bindGraph x g s) (Work.bindGraph x g' s') := by
  have hview : (Reply.graph g.view).skeleton = (Reply.graph g'.view).skeleton := by
    rw [← view_skeleton, hg, view_skeleton]
  exact alike_ok (bind_congr hs x (Object.graph_congr hg)) hview

theorem buildDesign_congr (name : String) :
    Alike Reply.skeleton (Work.buildDesign x name s) (Work.buildDesign x name s') := by
  unfold Work.buildDesign
  cases Design.find? name with
  | none => exact alike_ok hs rfl
  | some d =>
    exact alike_inWorkshop_bind hs (Workshop.build_congr d (workshop_congr hs))
      fun _ _ _ _ hs hg => bindGraph_congr hs x hg

theorem addTransform_congr :
    Alike Reply.skeleton (Work.addTransform x y s) (Work.addTransform x y s') := by
  refine alike_lookUp_bind hs (fun s => s.graph_skeleton x) fun g g' hg => ?_
  refine alike_lookUp_bind hs (fun s => s.draft_skeleton y) fun t t' ht => ?_
  have hadd := Workshop.addTransform_congr (workshop_congr hs) hg ht
  refine alike_inGraph_bind (unbind_congr hs y) hadd fun s s' _ _ hs _ => ?_
  exact alike_ok (bind_congr hs y (Object.handle_congr ht)) rfl

theorem addEdge_congr : Alike Reply.skeleton (Work.addEdge x y s) (Work.addEdge x y s') := by
  refine alike_lookUp_bind hs (fun s => s.graph_skeleton x) fun g g' hg => ?_
  refine alike_lookUp_bind hs (fun s => s.edge_skeleton y) fun e e' he => ?_
  have hadd := Workshop.addEdge_congr (workshop_congr hs) hg he
  refine alike_inGraph_bind hs hadd fun s s' g g' hs _ => ?_
  exact alike_ok hs (congrArg (Reply.registered · "") he)

theorem foundTransform_congr (target : Option String) {t t' : Transform}
    (ht : t.skeleton = t'.skeleton) :
    Alike Reply.skeleton (Work.foundTransform target t s) (Work.foundTransform target t' s') :=
  alike_ok (bindIfSome_congr hs target (Object.handle_congr ht)) rfl

theorem maybeTransform_congr (target : Option String) {found found' : Option Transform}
    (h : found.map Transform.skeleton = found'.map Transform.skeleton) :
    Alike Reply.skeleton (Work.maybeTransform target found s)
      (Work.maybeTransform target found' s') := by
  cases found with
  | none =>
    cases found' with
    | none => exact alike_ok hs rfl
    | some t' => cases h
  | some t =>
    cases found' with
    | none => cases h
    | some t' => exact foundTransform_congr hs target (Option.some.inj h)

theorem findTransform_congr {find : Graph → Option Transform}
    (hfind : ∀ g : Graph, find g.skeleton = (find g).map Transform.skeleton)
    (target : Option String) : Alike Reply.skeleton (Work.findTransform x find target s)
      (Work.findTransform x find target s') := by
  refine alike_lookUp_bind hs (fun s => s.graph_skeleton x) fun g g' hg => ?_
  exact maybeTransform_congr hs target (by rw [← hfind, hg, hfind])

theorem findOwner_congr (r : PortRef) (target : Option String) :
    Alike Reply.skeleton (Work.findOwner x r target s) (Work.findOwner x r target s') := by
  refine alike_lookUp_bind hs (fun s => s.graph_skeleton x) fun g g' hg => ?_
  refine alike_lookUp_bind hs (fun s => s.port_skeleton r) fun p p' hp => ?_
  have howner : (g.ownerOfPort p).map Transform.skeleton =
      (g'.ownerOfPort p').map Transform.skeleton := by
    rw [← g.ownerOfPort_skeleton, hg, hp, g'.ownerOfPort_skeleton]
  exact alike_answer_bind hs howner fun t t' ht => foundTransform_congr hs target ht

theorem findOwnerOfId_congr (id : Ident) (target : Option String) :
    Alike Reply.skeleton (Work.findOwnerOfId x id target s)
      (Work.findOwnerOfId x id target s') := by
  refine alike_lookUp_bind hs (fun s => s.graph_skeleton x) fun g g' hg => ?_
  have howner : (g.ownerOfId id).map Transform.skeleton =
      (g'.ownerOfId id).map Transform.skeleton := by
    rw [← g.ownerOfId_skeleton, hg, g'.ownerOfId_skeleton]
  exact alike_answer_bind hs howner fun t t' ht => foundTransform_congr hs target ht

/-! ### Breaking the rules -/

theorem replaceGraph_congr {g g' : Graph} (hg : g.skeleton = g'.skeleton) :
    Alike Reply.skeleton (Work.replaceGraph x g s) (Work.replaceGraph x g' s') := by
  have hsize : g.size = g'.size := by rw [← size_skeleton, hg, size_skeleton]
  exact alike_ok (bind_congr hs x (Object.graph_congr hg)) (congrArg Reply.size hsize)

theorem forceEdge_congr {e e' : Edge} (he : e.skeleton = e'.skeleton) :
    Alike Reply.skeleton (Work.forceEdge x e s) (Work.forceEdge x e' s') := by
  refine alike_lookUp_bind hs (fun s => s.graph_skeleton x) fun g g' hg => ?_
  refine replaceGraph_congr hs x ?_
  rw [← g.appendEdge_skeleton, hg, he, g'.appendEdge_skeleton]

theorem forceTransform_congr :
    Alike Reply.skeleton (Work.forceTransform x y s) (Work.forceTransform x y s') := by
  refine alike_lookUp_bind hs (fun s => s.graph_skeleton x) fun g g' hg => ?_
  refine alike_lookUp_bind hs (fun s => s.transform_skeleton y) fun t t' ht => ?_
  have hpush : (g.pushTransform t).skeleton = (g'.pushTransform t').skeleton := by
    rw [← g.pushTransform_skeleton, hg, ht, g'.pushTransform_skeleton]
  refine andThen_congr (replaceGraph_congr hs x hpush) fun s s' size size' hs hsize => ?_
  exact alike_ok (bind_congr hs y (Object.handle_congr ht)) hsize

theorem forceIndex_congr (slot : Ident) :
    Alike Reply.skeleton (Work.forceIndex x y slot s) (Work.forceIndex x y slot s') := by
  refine alike_lookUp_bind hs (fun s => s.graph_skeleton x) fun g g' hg => ?_
  refine alike_lookUp_bind hs (fun s => s.transform_skeleton y) fun t t' ht => ?_
  -- both the guard and the new entries ask for the identities of the ports only
  have hany : ∀ (g : Graph) (t : Transform),
      (t.skeleton.ports.any fun p => g.skeleton.parents.contains p.id) =
        t.ports.any fun p => g.parents.contains p.id := by
    intro g t
    rw [Transform.ports_skeleton, List.any_map]
    rfl
  have hguard : (t.ports.any fun p => g.parents.contains p.id) =
      t'.ports.any fun p => g'.parents.contains p.id := by
    rw [← hany, hg, ht, hany]
  have henter : (g.enterPorts slot t).skeleton = (g'.enterPorts slot t').skeleton := by
    rw [← g.enterPorts_skeleton, hg, ht, g'.enterPorts_skeleton]
  rw [hguard]
  split
  · exact alike_error hs _
  · exact replaceGraph_congr hs x henter

end Steps

/-- **The check of a graph gives its answer by the skeleton alone.** -/
theorem validate_skeleton (s : Session) (x : String) (part : Option ValidatePart) :
    s.skeleton.validate x part = s.validate x part := by
  unfold validate
  rw [graph_skeleton]
  cases s.lookUp .graph x with
  | error f => rfl
  | ok g =>
    have answer : ∀ {r r' : Except Error Unit}, r = r' →
        (orRefuse r >>= fun _ => pure Reply.nothing) = orRefuse r' >>= fun _ => pure .nothing :=
      fun h => by rw [h]
    rcases part with _ | _ | _ | _
    · exact answer g.validate_skeleton
    · exact answer g.validateTransforms_skeleton
    · exact answer g.validateParents_skeleton
    · exact answer g.validateEdges_skeleton

/-! ## Steps -/

/-- **A step works alike on a session and, without its payload, on the skeleton of the session.** -/
theorem carryOut_skeleton (s : Session) {st : Step} (hst : st.isStructural = true)
    (hv : s.understandsStep st = true) :
    Alike Reply.skeleton (carryOut st.skeleton s.skeleton) (carryOut st s) := by
  have hs := s.skeleton_skeleton
  cases st with
  | createPort x name type d => exact createPort_congr hs x name ⟨""⟩ type d
  | createConstant x name v => exact createConstant_congr hs x name rfl hv
  | setConstant r v => exact setConstant_congr hs r rfl hv
  | createTransform x spec =>
    have hplan : (s.skeleton.plan spec.skeleton).skeleton = (s.plan spec).skeleton := by
      rw [s.plan_skeleton hv]
      exact Plan.skeleton_skeleton _
    exact createTransform_congr hs x hplan (s.understands_skeleton spec) hv
  | markMemory x reads writes => exact markMemory_congr hs x false false reads writes
  | addConstant x y => exact offerConstant_congr hs x y
  | addPort x y => exact offerPort_congr hs x y (fun p => p.direction) fun _ => rfl
  | addPortTo d x y => exact offerPort_congr hs x y (fun _ => d) fun _ => rfl
  | connect x a b label => exact connect_congr hs x a b none label
  | joinPorts x a b => exact joinPorts_congr hs x a b
  | relabel x e label => exact relabel_congr hs x e "" label
  | createGraph x name => exact bindGraph_congr hs x rfl
  | buildDesign x name => exact buildDesign_congr hs x name
  | addTransform x y => exact addTransform_congr hs x y
  | addEdge x y => exact addEdge_congr hs x y
  | findOwner x r target => exact findOwner_congr hs x r target
  | findOwnerOfId x id target => exact findOwnerOfId_congr hs x id target
  | findTransform x name target =>
    exact findTransform_congr hs x (fun g => g.transform?_skeleton name) target
  | findTransformWithId x id target =>
    exact findTransform_congr hs x (fun g => g.transformWithId?_skeleton id) target
  | viewPort r => exact alike_read hs (map_bind_congr (s.port_skeleton r) fun p => rfl)
  | viewTransform x =>
    exact alike_read hs (map_bind_congr (s.transform_skeleton x) fun t =>
      congrArg (fun t => Except.ok (Reply.transform ⟨t, []⟩)) t.skeleton_skeleton)
  | viewSolePort x d =>
    refine alike_read hs (map_bind_congr (s.transform_skeleton x) fun t => ?_)
    rw [Transform.solePort_skeleton, orRefuse_map]
    exact map_bind_congr rfl fun p => rfl
  | ownsPort x r =>
    refine alike_read hs (map_bind_congr (s.transform_skeleton x) fun t => ?_)
    refine map_bind_congr (s.port_skeleton r) fun p => ?_
    rw [Transform.hasId_skeleton]
    rfl
  | ownsId x id =>
    refine alike_read hs (map_bind_congr (s.transform_skeleton x) fun t => ?_)
    rw [Transform.hasId_skeleton]
  | viewGraph x =>
    exact alike_read hs (map_bind_congr (s.graph_skeleton x) fun g =>
      congrArg Except.ok (view_skeleton g))
  | findEdgeWithId x id =>
    refine alike_read hs (map_bind_congr (s.graph_skeleton x) fun g => congrArg Except.ok ?_)
    rw [Graph.edgeWithId?_skeleton]
    cases g.edgeWithId? id <;> rfl
  | findPortWithId x id =>
    refine alike_read hs (map_bind_congr (s.graph_skeleton x) fun g => congrArg Except.ok ?_)
    rw [Graph.port?_skeleton]
    cases g.port? id <;> rfl
  | viewIndex x id =>
    exact alike_read hs (map_bind_congr (s.graph_skeleton x) fun g => rfl)
  | describeEdge x y =>
    exact alike_read hs (map_bind_congr (s.graph_skeleton x) fun g =>
      map_bind_congr (s.edge_skeleton y) fun e => rfl)
  | validate x part => exact alike_read hs (congrArg _ (s.validate_skeleton x part))
  | drop x =>
    have hcontains : s.skeleton.bindings.contains x = s.bindings.contains x :=
      Table.contains_map _ _ _
    exact alike_ok (unbind_congr hs x) (congrArg Reply.truth hcontains)
  | takeLog =>
    have hw : { s.workshop.skeleton with log := [] }.skeleton =
        { s.workshop with log := [] }.skeleton := rfl
    have hlog : (Reply.events (s.workshop.log.map Event.skeleton)).skeleton =
        (Reply.events s.workshop.log).skeleton := by
      simp [Reply.skeleton, Function.comp_def]
    exact alike_ok (withWorkshop_congr hs hw) hlog
  | forgeEdge x e => exact bindEdge_congr hs x e.skeleton_skeleton
  | forceEdge x e => exact forceEdge_congr hs x e.skeleton_skeleton
  | forceTransform x y => exact forceTransform_congr hs x y
  | forceIndex x y slot => exact forceIndex_congr hs x y slot
  -- the steps that are left out
  | comparePorts | compareEdges | viewConstant | inspectConstant | copyValue | resolveConstant =>
    cases hst

/-! ## Runs -/

/-- Every value that a step of the list binds makes sense when its turn comes. -/
def Understood (s : Session) : List Step → Prop
  | [] => True
  | st :: rest => s.understandsStep st = true ∧ (s.perform st).1.Understood rest

theorem Understood.take {s : Session} {steps : List Step} (h : s.Understood steps) (k : Nat) :
    s.Understood (steps.take k) := by
  induction steps generalizing s k with
  | nil => rwa [List.take_nil]
  | cons st rest ih =>
    cases k with
    | zero => exact trivial
    | succ k => exact ⟨h.1, ih h.2 k⟩

section Runs
variable {s s' : Session}

/-- Work that has ended alike has ended with one outcome but for payload. -/
theorem Alike.outcome {r r' : Session × Except Obstacle Reply} (h : Alike Reply.skeleton r r') :
    (Outcome.of r.2).skeleton = (Outcome.of r'.2).skeleton := by
  have hof : ∀ x, (Outcome.of x).skeleton = .of (x.map Reply.skeleton) := by
    rintro ((_ | _) | _) <;> rfl
  rw [hof, hof, (Prod.mk.inj h).2]

/-- **Two steps with one skeleton keep two sessions with one skeleton alike.** -/
theorem perform_congr (hs : s.skeleton = s'.skeleton) {st st' : Step}
    (hskeleton : st.skeleton = st'.skeleton) (hst : st.isStructural = true)
    (hv : s.understandsStep st = true) (hv' : s'.understandsStep st' = true) :
    (s.perform st).1.skeleton = (s'.perform st').1.skeleton ∧
      (s.perform st).2.skeleton = (s'.perform st').2.skeleton := by
  have hst' : st'.isStructural = true := by
    rw [← Step.isStructural_skeleton, ← hskeleton, Step.isStructural_skeleton]
    exact hst
  have h := s.carryOut_skeleton hst hv
  rw [hs, hskeleton] at h
  have halike : Alike Reply.skeleton (carryOut st s) (carryOut st' s') :=
    h.symm.trans (s'.carryOut_skeleton hst' hv')
  exact ⟨(Prod.mk.inj halike).1, halike.outcome⟩

/-- **Two runs with one skeleton** end alike and are answered alike. -/
theorem run_congr {steps steps' : List Step} (hs : s.skeleton = s'.skeleton)
    (hsteps : steps.map Step.skeleton = steps'.map Step.skeleton)
    (hst : ∀ st ∈ steps, st.isStructural = true) (hv : s.Understood steps)
    (hv' : s'.Understood steps') :
    (s.run steps).1.skeleton = (s'.run steps').1.skeleton ∧
      (s.run steps).2.map (·.outcome.skeleton) = (s'.run steps').2.map (·.outcome.skeleton) := by
  induction steps generalizing s s' steps' with
  | nil =>
    obtain rfl := List.map_eq_nil_iff.mp hsteps.symm
    exact ⟨hs, rfl⟩
  | cons st rest ih =>
    obtain ⟨st', rest', rfl, hhead, htail⟩ := List.map_eq_cons_iff.mp hsteps.symm
    obtain ⟨hfirst, hrest⟩ := List.forall_mem_cons.mp hst
    obtain ⟨hsession, houtcome⟩ := perform_congr hs hhead.symm hfirst hv.1 hv'.1
    obtain ⟨hlast, houtcomes⟩ := ih hsession htail.symm hrest hv.2 hv'.2
    exact ⟨hlast, List.cons_eq_cons.mpr ⟨houtcome, houtcomes⟩⟩

end Runs

end Session

/-! ## What two runs have in common -/

/-- **Two graphs that are built alike**: only types, labels and marks can be different, and every
check gives the same answer. -/
structure Graph.SameStructure (g g' : Graph) : Prop where
  name : g.name = g'.name
  transforms : g.transforms.map Transform.skeleton = g'.transforms.map Transform.skeleton
  ends : g.edges.map (fun e => (e.source, e.destination)) =
    g'.edges.map fun e => (e.source, e.destination)
  slots : g.slots = g'.slots
  parents : g.parents = g'.parents
  validate : g.validate = g'.validate
  validateTransforms : g.validateTransforms = g'.validateTransforms
  validateParents : g.validateParents = g'.validateParents
  validateEdges : g.validateEdges = g'.validateEdges

theorem Graph.sameStructure_of_skeleton {g g' : Graph} (h : g.skeleton = g'.skeleton) :
    g.SameStructure g' where
  name := congrArg (·.name) h
  transforms := congrArg (·.transforms) h
  ends := by
    have hends : ∀ g : Graph, g.edges.map (fun e => (e.source, e.destination)) =
        g.skeleton.edges.map fun e => (e.source, e.destination) := by
      intro g
      rw [show g.skeleton.edges = g.edges.map Edge.skeleton from rfl, List.map_map]
      rfl
    rw [hends, h, hends g']
  slots := congrArg (·.slots) h
  parents := congrArg (·.parents) h
  validate := by rw [← g.validate_skeleton, h, validate_skeleton]
  validateTransforms := by rw [← g.validateTransforms_skeleton, h, validateTransforms_skeleton]
  validateParents := by rw [← g.validateParents_skeleton, h, validateParents_skeleton]
  validateEdges := by rw [← g.validateEdges_skeleton, h, validateEdges_skeleton]

namespace Session

/-- **Two sessions that are alike but for payload**: the counters and, variable by variable, the
skeletons of what they hold. -/
structure SameStructure (s s' : Session) : Prop where
  nextPort : s.workshop.nextPort = s'.workshop.nextPort
  nextSerial : s.workshop.nextSerial = s'.workshop.nextSerial
  objects : ∀ x, (s.bindings.get? x).map Object.skeleton = (s'.bindings.get? x).map Object.skeleton
  graphs : ∀ x g, s.Holds x (.graph g) → ∃ g', s'.Holds x (.graph g') ∧ g.SameStructure g'

theorem sameStructure_of_skeleton {s s' : Session} (h : s.skeleton = s'.skeleton) :
    s.SameStructure s' where
  nextPort := congrArg (·.workshop.nextPort) h
  nextSerial := congrArg (·.workshop.nextSerial) h
  objects x := by rw [← s.get?_skeleton, h, get?_skeleton]
  graphs x g hx := by
    have hg := s.graph_skeleton x
    rw [h, graph_skeleton, (lookUp_eq_ok (k := .graph)).mpr hx] at hg
    cases hg' : s'.lookUp .graph x with
    | error f =>
      rw [hg'] at hg
      cases hg
    | ok g' =>
      rw [hg'] at hg
      exact ⟨g', lookUp_eq_ok.mp hg', Graph.sameStructure_of_skeleton (Except.ok.inj hg).symm⟩

/-- **Structure does not depend on payload.**  Two runs that differ only in types, labels, values
and marks are answered alike, step by step, and are alike but for payload after every step. -/
theorem run_sameStructure {s s' : Session} (hs : s.skeleton = s'.skeleton)
    {steps steps' : List Step} (hsteps : steps.map Step.skeleton = steps'.map Step.skeleton)
    (hst : ∀ st ∈ steps, st.isStructural = true) (hv : s.Understood steps)
    (hv' : s'.Understood steps') :
    (s.run steps).2.map (·.outcome.skeleton) = (s'.run steps').2.map (·.outcome.skeleton) ∧
      ∀ k, (s.run (steps.take k)).1.SameStructure (s'.run (steps'.take k)).1 := by
  refine ⟨(run_congr hs hsteps hst hv hv').2, fun k => sameStructure_of_skeleton ?_⟩
  refine (run_congr hs ?_ (fun st h => hst st (List.mem_of_mem_take h)) (hv.take k) (hv'.take k)).1
  rw [List.map_take, List.map_take, hsteps]

/-- A run that builds, registers and checks a graph without much payload. -/
def plainRun : List Step :=
  [.createTransform "reader" ⟨"read", false, false, [], [("rows", ⟨"T"⟩)], [("depth", none)]⟩,
   .createTransform "writer" ⟨"write", false, false, [("rows", ⟨"T"⟩)], [], []⟩,
   .createGraph "graph" none,
   .addTransform "graph" "reader",
   .addTransform "graph" "writer",
   .connect "edge" (.whole "reader") (.whole "writer") none,
   .addEdge "graph" "edge",
   .createConstant "limit" "limit" none,
   .forceIndex "graph" "writer" (Ident.ofCounter 1),
   .validate "graph" none]

/-- The same run with other types, marks, labels and values. -/
def ornateRun : List Step :=
  [.createTransform "reader"
     ⟨"read", true, false, [], [("rows", ⟨"Table"⟩)], [("depth", some (.literal "4"))]⟩,
   .createTransform "writer" ⟨"write", false, true, [("rows", ⟨"Page"⟩)], [], []⟩,
   .createGraph "graph" none,
   .addTransform "graph" "reader",
   .addTransform "graph" "writer",
   .connect "edge" (.whole "reader") (.whole "writer") (some "bus"),
   .addEdge "graph" "edge",
   .createConstant "limit" "limit" (some (.chain "reader" "depth" 0)),
   .forceIndex "graph" "writer" (Ident.ofCounter 1),
   .validate "graph" none]

theorem run_sameStructure_ornateRun : ∃ g g' : Graph,
    ((start 0).run plainRun).1.Holds "graph" (.graph g) ∧
      ((start 0).run ornateRun).1.Holds "graph" (.graph g') ∧
      g.edges.map (·.label) = [none] ∧ g'.edges.map (·.label) = [some "bus"] ∧
      g.SameStructure g' ∧
      ((start 0).run plainRun).2.map (·.outcome.skeleton) =
        ((start 0).run ornateRun).2.map (·.outcome.skeleton) := by
  have hskeleton : plainRun.map Step.skeleton = ornateRun.map Step.skeleton := rfl
  have hstructural : ∀ st ∈ plainRun, st.isStructural = true := by decide
  have hplain : (start 0).Understood plainRun :=
    ⟨rfl, rfl, rfl, rfl, rfl, rfl, rfl, rfl, rfl, rfl, trivial⟩
  have hornate : (start 0).Understood ornateRun :=
    ⟨rfl, rfl, rfl, rfl, rfl, rfl, rfl, rfl, rfl, rfl, trivial⟩
  obtain ⟨houtcomes, hall⟩ := run_sameStructure rfl hskeleton hstructural hplain hornate
  obtain ⟨g', hx', hsame⟩ := (hall 10).graphs "graph" _ rfl
  obtain ⟨g₁, hx₁, hlabels⟩ : ∃ g₁ : Graph, ((start 0).run ornateRun).1.Holds "graph" (.graph g₁) ∧
      g₁.edges.map (·.label) = [some "bus"] := ⟨_, rfl, rfl⟩
  obtain rfl := Object.graph.inj (hx₁.unique hx')
  exact ⟨_, g₁, rfl, hx₁, rfl, hlabels, hsame, houtcomes⟩

end Session

end Dataflow
