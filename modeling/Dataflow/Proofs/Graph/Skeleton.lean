import Dataflow.Design
import Dataflow.Proofs.Transform.Building

/-!
# Skeletons

The skeleton of what is built is what is left when everything is taken away that only describes it:
the types of ports, the labels of edges, the values of constants, and the marks of transforms that
read or write memory.  Names, directions and identities stay.

Nothing that is done to transforms, edges and graphs looks at what is taken away.  So for every
operation it makes no difference whether it works on the things or on their skeletons: it succeeds
or is refused with the same cause, and the skeleton of the result is the result on the skeletons.
In particular the check of a graph gives its answer by the skeleton alone
(`Graph.validate_skeleton`).
-/

namespace Dataflow

/-! ## Answers for skeletons -/

section Answers
variable {ε α β γ : Type}

/-- Two computations whose parts give the same, up to what a function takes away. -/
theorem map_bind_congr {f : α → α} {k : β → γ} {x x' : Except ε α} {F F' : α → Except ε β}
    (hx : x' = x.map f) (h : ∀ a, (F' (f a)).map k = (F a).map k) :
    (x' >>= F').map k = (x >>= F).map k := by
  subst hx
  cases x with
  | error e => rfl
  | ok a => exact h a

end Answers

/-! ## Attempts -/

section Attempts
variable {σ ε α β : Type} {f : σ → σ} {k : α → α} {l : β → β}

/-- A state and the answer beside it, both without payload. -/
def skeletons (f : σ → σ) (k : α → α) (r : σ × Except ε α) : σ × Except ε α := (f r.1, r.2.map k)

/-- Two attempts with one skeleton fail for one cause, or give results with one skeleton. -/
theorem skeletons_cases {r r' : σ × Except ε α} (h : skeletons f k r = skeletons f k r') :
    (∃ s s' e, r = (s, .error e) ∧ r' = (s', .error e) ∧ f s = f s') ∨
      ∃ s s' a a', r = (s, .ok a) ∧ r' = (s', .ok a') ∧ f s = f s' ∧ k a = k a' := by
  obtain ⟨s, x⟩ := r
  obtain ⟨s', x'⟩ := r'
  obtain ⟨hs, hx⟩ := Prod.mk.inj h
  cases x with
  | error e =>
    cases x' with
    | error e' =>
      cases hx
      exact Or.inl ⟨s, s', e, rfl, rfl, hs⟩
    | ok a' => cases hx
  | ok a =>
    cases x' with
    | error e' => cases hx
    | ok a' => exact Or.inr ⟨s, s', a, a', rfl, rfl, hs, Except.ok.inj hx⟩

/-- Work that goes alike in its first part and in the rest goes alike. -/
theorem andThen_congr {r r' : σ × Except ε α} {F F' : σ → α → σ × Except ε β}
    (hr : skeletons f k r = skeletons f k r')
    (h : ∀ s s' a a', f s = f s' → k a = k a' → skeletons f l (F s a) = skeletons f l (F' s' a')) :
    skeletons f l (andThen r F) = skeletons f l (andThen r' F') := by
  rcases skeletons_cases hr with ⟨s, s', e, rfl, rfl, hs⟩ | ⟨s, s', a, a', rfl, rfl, hs, ha⟩
  · exact Prod.ext hs rfl
  · exact h s s' a a' hs ha

end Attempts

/-! ## Ports and transforms -/

/-- The port without its type. -/
def Port.skeleton (p : Port) : Port := { p with type := ⟨""⟩ }

@[simp] theorem Port.skeleton_skeleton (p : Port) : p.skeleton.skeleton = p.skeleton := rfl

theorem Port.create_skeleton (name : String) (type : PortType) (d : Direction) (next : Nat) :
    Port.create name ⟨""⟩ d next =
      skeletons (fun next => next) Port.skeleton (Port.create name type d next) := by
  unfold Port.create
  cases checkName name <;> rfl

namespace Transform

/-- The transform without the types of its ports and without marks.  It has the same constants:
their values are no part of it. -/
def skeleton (t : Transform) : Transform :=
  { t with
    inputs := t.inputs.map Port.skeleton
    outputs := t.outputs.map Port.skeleton
    readsMemory := false
    writesMemory := false }

section Skeleton
variable (t : Transform)

@[simp] theorem name_skeleton : t.skeleton.name = t.name := rfl

@[simp] theorem constants_skeleton : t.skeleton.constants = t.constants := rfl

@[simp] theorem portsOf_skeleton (d : Direction) :
    t.skeleton.portsOf d = (t.portsOf d).map Port.skeleton := by
  cases d <;> rfl

@[simp] theorem ports_skeleton : t.skeleton.ports = t.ports.map Port.skeleton :=
  (List.map_append).symm

@[simp] theorem skeleton_skeleton : t.skeleton.skeleton = t.skeleton := by
  simp [skeleton, Function.comp_def]

theorem appendPort_skeleton (p : Port) (d : Direction) :
    t.skeleton.appendPort p.skeleton d = (t.appendPort p d).skeleton := by
  cases d <;> simp [appendPort, skeleton]

theorem create_skeleton (serial : Nat) (name : String) :
    create serial name = (create serial name).map skeleton := by
  unfold create
  cases checkName name <;> rfl

theorem addConstant_skeleton (c : Constant) :
    t.skeleton.addConstant c = skeletons skeleton id (t.addConstant c) := by
  unfold addConstant
  rw [constants_skeleton, name_skeleton]
  split <;> rfl

theorem addPortTo_skeleton (d : Direction) (p : Port) :
    t.skeleton.addPortTo d p.skeleton = skeletons skeleton id (t.addPortTo d p) := by
  have hany : (t.skeleton.portsOf d).any (·.name = p.name) =
      (t.portsOf d).any (·.name = p.name) := by
    rw [portsOf_skeleton, List.any_map]
    rfl
  unfold addPortTo
  rw [show p.skeleton.direction = p.direction from rfl, show p.skeleton.name = p.name from rfl,
    hany, appendPort_skeleton]
  split
  · rfl
  · split <;> rfl

theorem portAt_skeleton (d : Direction) (index : Nat) :
    t.skeleton.portAt d index = (t.portAt d index).map Port.skeleton := by
  unfold portAt
  rw [portsOf_skeleton, List.getElem?_map, List.length_map]
  cases (t.portsOf d)[index]? <;> rfl

theorem port_skeleton (name : String) :
    t.skeleton.port name = (t.port name).map Port.skeleton := by
  have hfind : t.skeleton.ports.find? (·.name = name) =
      (t.ports.find? (·.name = name)).map Port.skeleton := by
    rw [ports_skeleton, List.find?_map]
    rfl
  unfold port
  rw [hfind]
  cases t.ports.find? (·.name = name) <;> rfl

theorem solePort_skeleton (d : Direction) :
    t.skeleton.solePort d = (t.solePort d).map Port.skeleton := by
  unfold solePort
  rw [portsOf_skeleton]
  cases t.portsOf d with
  | nil => rfl
  | cons p rest =>
    cases rest with
    | nil => rfl
    | cons q rest =>
      simp only [List.map_cons, List.length_cons, List.length_map]
      rfl

theorem portWithId?_skeleton (id : Ident) :
    t.skeleton.portWithId? id = (t.portWithId? id).map Port.skeleton := by
  unfold portWithId?
  rw [ports_skeleton, List.find?_map]
  rfl

theorem hasId_skeleton (id : Ident) : t.skeleton.hasId id = t.hasId id := by
  unfold hasId
  rw [ports_skeleton, List.any_map]
  rfl

end Skeleton

end Transform

/-! ## Edges -/

/-- The edge without its label. -/
def Edge.skeleton (e : Edge) : Edge := { e with label := none }

@[simp] theorem Edge.skeleton_skeleton (e : Edge) : e.skeleton.skeleton = e.skeleton := rfl

/-- A side of a connection, without types. -/
def Endpoint.skeleton : Endpoint → Endpoint
  | .port p => .port p.skeleton
  | .transform t => .transform t.skeleton

theorem Edge.between_skeleton (p q : Port) :
    Edge.between p.skeleton q.skeleton = Edge.between p q := rfl

theorem connect_skeleton (a b : Endpoint) : connect a.skeleton b.skeleton = connect a b := by
  -- whichever side is the port, the port of the transform is looked for and comes first
  have mixed : ∀ (t : Transform) (p : Port),
      (t.skeleton.solePort p.direction.opposite >>= fun q => Edge.between q p.skeleton) =
        t.solePort p.direction.opposite >>= fun q => Edge.between q p := by
    intro t p
    rw [Transform.solePort_skeleton]
    cases t.solePort p.direction.opposite <;> rfl
  cases a with
  | port p =>
    cases b with
    | port q => rfl
    | transform t => exact mixed t p
  | transform t =>
    cases b with
    | port p => exact mixed t p
    | transform u =>
      simp only [Endpoint.skeleton, connect, Transform.solePort_skeleton]
      cases t.solePort .output with
      | error e => rfl
      | ok p => cases u.solePort .input <;> rfl

/-! ## Graphs -/

/-- The graph with the skeletons of its transforms and edges.  The tables stay as they are. -/
def Graph.skeleton (g : Graph) : Graph :=
  { g with
    transforms := g.transforms.map Transform.skeleton
    edges := g.edges.map Edge.skeleton }

theorem ParentIndex.enter_skeleton (index : ParentIndex) (owner : Ident) (t : Transform) :
    index.enter owner t.skeleton = index.enter owner t := by
  unfold enter
  rw [Transform.ports_skeleton, List.foldl_map]
  rfl

namespace Graph
variable (g : Graph)

@[simp] theorem name_skeleton : g.skeleton.name = g.name := rfl

@[simp] theorem skeleton_skeleton : g.skeleton.skeleton = g.skeleton := by
  simp [skeleton, Function.comp_def]

/-! ### Looking up -/

theorem transformWithId?_skeleton (id : Ident) :
    g.skeleton.transformWithId? id = (g.transformWithId? id).map Transform.skeleton :=
  List.getElem?_map

theorem edgeWithId?_skeleton (id : Ident) :
    g.skeleton.edgeWithId? id = (g.edgeWithId? id).map Edge.skeleton :=
  List.getElem?_map

theorem transform?_skeleton (name : String) :
    g.skeleton.transform? name = (g.transform? name).map Transform.skeleton := by
  unfold transform?
  rw [Option.map_bind]
  exact congrArg _ (funext g.transformWithId?_skeleton)

theorem owner?_skeleton (id : Ident) :
    g.skeleton.owner? id = (g.owner? id).map Transform.skeleton := by
  unfold owner?
  rw [Option.map_bind]
  exact congrArg _ (funext g.transformWithId?_skeleton)

theorem port?_skeleton (id : Ident) : g.skeleton.port? id = (g.port? id).map Port.skeleton := by
  unfold port?
  rw [owner?_skeleton]
  cases g.owner? id with
  | none => rfl
  | some t => exact t.portWithId?_skeleton id

theorem ownerOfPort_skeleton (p : Port) :
    g.skeleton.ownerOfPort p.skeleton = (g.ownerOfPort p).map Transform.skeleton := by
  unfold ownerOfPort
  rw [show p.skeleton.id = p.id from rfl, owner?_skeleton]
  cases g.owner? p.id <;> rfl

theorem ownerOfId_skeleton (id : Ident) :
    g.skeleton.ownerOfId id = (g.ownerOfId id).map Transform.skeleton := by
  unfold ownerOfId
  rw [owner?_skeleton]
  cases g.owner? id <;> rfl

/-! ### Registering -/

theorem nextSlot_skeleton : g.skeleton.nextSlot = g.nextSlot :=
  congrArg Ident.ofCounter (List.length_map _)

theorem enterPorts_skeleton (slot : Ident) (t : Transform) :
    g.skeleton.enterPorts slot t.skeleton = (g.enterPorts slot t).skeleton := by
  simp only [enterPorts, skeleton, ParentIndex.enter_skeleton]

theorem pushTransform_skeleton (t : Transform) :
    g.skeleton.pushTransform t.skeleton = (g.pushTransform t).skeleton := by
  simp only [pushTransform, skeleton, List.map_append, List.map_cons, List.map_nil]

theorem appendTransform_skeleton (t : Transform) :
    g.skeleton.appendTransform t.skeleton = (g.appendTransform t).skeleton := by
  simp only [appendTransform, nextSlot_skeleton, Transform.name_skeleton, enterPorts_skeleton,
    ← pushTransform_skeleton]
  rfl

theorem appendEdge_skeleton (e : Edge) :
    g.skeleton.appendEdge e.skeleton = (g.appendEdge e).skeleton := by
  simp only [appendEdge, skeleton, List.map_append, List.map_cons, List.map_nil]

theorem addTransform_skeleton (t : Transform) :
    (g.skeleton.addTransform t.skeleton).result = (g.addTransform t).result ∧
      (g.skeleton.addTransform t.skeleton).graph = (g.addTransform t).graph.skeleton := by
  unfold addTransform
  rw [appendTransform_skeleton, Transform.name_skeleton, show g.skeleton.slots = g.slots from rfl]
  split <;> exact ⟨rfl, rfl⟩

theorem ownerlessEnd?_skeleton (e : Edge) :
    g.skeleton.ownerlessEnd? e.skeleton = g.ownerlessEnd? e := rfl

theorem addEdge_skeleton (e : Edge) :
    (g.skeleton.addEdge e.skeleton).result = (g.addEdge e).result ∧
      (g.skeleton.addEdge e.skeleton).graph = (g.addEdge e).graph.skeleton := by
  unfold addEdge
  rw [appendEdge_skeleton, ownerlessEnd?_skeleton]
  split <;> exact ⟨rfl, rfl⟩

end Graph

/-! ### Checking -/

theorem Transform.checkPorts_skeleton (t : Transform) (d : Direction) (seen : List String)
    (ports : List Port) :
    t.skeleton.checkPorts d seen (ports.map Port.skeleton) = t.checkPorts d seen ports := by
  induction ports generalizing seen with
  | nil => rfl
  | cons p rest ih =>
    rw [List.map_cons, checkPorts, checkPorts, ih]
    rfl

theorem Transform.check_skeleton (t : Transform) : t.skeleton.check = t.check := by
  unfold check
  rw [show t.skeleton.inputs = t.inputs.map Port.skeleton from rfl,
    show t.skeleton.outputs = t.outputs.map Port.skeleton from rfl, checkPorts_skeleton,
    checkPorts_skeleton]
  rfl

theorem checkTransforms_skeleton (seen : List String) (ts : List Transform) :
    checkTransforms seen (ts.map Transform.skeleton) = checkTransforms seen ts := by
  induction ts generalizing seen with
  | nil => rfl
  | cons t rest ih =>
    rw [List.map_cons, checkTransforms, checkTransforms, t.check_skeleton, t.name_skeleton, ih]

namespace ParentIndex
variable (index : ParentIndex)

theorem checkPorts_skeleton (owner : Ident) (t : Transform) (ports : List Port) :
    index.checkPorts owner t.skeleton (ports.map Port.skeleton) =
      index.checkPorts owner t ports := by
  induction ports with
  | nil => rfl
  | cons p rest ih =>
    rw [List.map_cons, checkPorts, checkPorts, ih]
    rfl

theorem checkOwners_skeleton (start : Nat) (ts : List Transform) :
    index.checkOwners start (ts.map Transform.skeleton) = index.checkOwners start ts := by
  induction ts generalizing start with
  | nil => rfl
  | cons t rest ih =>
    rw [List.map_cons, checkOwners, checkOwners, t.ports_skeleton, checkPorts_skeleton, ih]

theorem portCount_skeleton (ts : List Transform) :
    portCount (ts.map Transform.skeleton) = portCount ts := by
  induction ts with
  | nil => rfl
  | cons t rest ih =>
    rw [List.map_cons, portCount, portCount, ih, t.ports_skeleton, List.length_map]

end ParentIndex

namespace Graph
variable (g : Graph)

theorem validateTransforms_skeleton : g.skeleton.validateTransforms = g.validateTransforms :=
  checkTransforms_skeleton [] g.transforms

theorem validateParents_skeleton : g.skeleton.validateParents = g.validateParents := by
  unfold validateParents ParentIndex.check
  rw [show g.skeleton.transforms = g.transforms.map Transform.skeleton from rfl,
    ParentIndex.checkOwners_skeleton, ParentIndex.portCount_skeleton]
  rfl

theorem portAtEnd_skeleton (side : EdgeEnd) (id : Ident) :
    g.skeleton.portAtEnd side id = (g.portAtEnd side id).map Port.skeleton := by
  unfold portAtEnd
  rw [port?_skeleton]
  cases g.port? id <;> rfl

theorem checkEdge_skeleton (position : Nat) (e : Edge) :
    g.skeleton.checkEdge position e.skeleton = g.checkEdge position e := by
  unfold checkEdge
  rw [show e.skeleton.source = e.source from rfl,
    show e.skeleton.destination = e.destination from rfl, portAtEnd_skeleton, portAtEnd_skeleton]
  cases g.portAtEnd .source e.source with
  | error err => rfl
  | ok p => cases g.portAtEnd .destination e.destination <;> rfl

theorem checkEdgeList_skeleton (position : Nat) (edges : List Edge) :
    g.skeleton.checkEdgeList position (edges.map Edge.skeleton) =
      g.checkEdgeList position edges := by
  induction edges generalizing position with
  | nil => rfl
  | cons e rest ih =>
    rw [List.map_cons, checkEdgeList, checkEdgeList, checkEdge_skeleton, ih]

theorem validateEdges_skeleton : g.skeleton.validateEdges = g.validateEdges :=
  g.checkEdgeList_skeleton 0 g.edges

/-- **The check of a graph looks at its skeleton only.** -/
theorem validate_skeleton : g.skeleton.validate = g.validate := by
  unfold validate
  rw [validateTransforms_skeleton, validateParents_skeleton, validateEdges_skeleton]

end Graph

/-! ## Workshops -/

/-- The event without the words that describe what was registered. -/
def Event.skeleton : Event → Event
  | .transformRegistered graph slot _ => .transformRegistered graph slot ""
  | .edgeRegistered graph _ => .edgeRegistered graph ""
  | e => e

@[simp] theorem Event.skeleton_skeleton (e : Event) : e.skeleton.skeleton = e.skeleton := by
  cases e <;> rfl

/-- The store with the cells that were handed out, but without values. -/
def Store.skeleton (s : Store) : Store := ⟨.empty, s.next, fun _ _ => rfl⟩

@[simp] theorem Store.skeleton_skeleton (s : Store) : s.skeleton.skeleton = s.skeleton := rfl

theorem Store.allocate_skeleton (s : Store) (v : Option Value) :
    (s.skeleton.allocate none).2 = (s.allocate v).2.skeleton :=
  Store.ext rfl (s.next_allocate v).symm

theorem Store.set_congr {s s' : Store} (h : s.skeleton = s'.skeleton) (c : Constant)
    (v v' : Value) : (s.set c v).skeleton = (s'.set c v').skeleton := by
  have hnext := congrArg Store.next h
  exact Store.ext rfl (congrArg (max · (c.cell.index + 1)) hnext)

theorem Store.createConstant_skeleton (s : Store) (name : String) (v : Option Value) :
    s.skeleton.createConstant name none = skeletons skeleton id (s.createConstant name v) := by
  unfold createConstant
  cases checkName name with
  | error e => rfl
  | ok _ => exact Prod.ext (s.allocate_skeleton v) rfl

/-- The plan without types, marks and values. -/
def Plan.skeleton (p : Plan) : Plan :=
  { p with
    readsMemory := false
    writesMemory := false
    inputs := p.inputs.map fun port => (port.1, ⟨""⟩)
    outputs := p.outputs.map fun port => (port.1, ⟨""⟩)
    constants := p.constants.map fun constant => (constant.1, none) }

theorem Plan.skeleton_skeleton (p : Plan) : p.skeleton.skeleton = p.skeleton := by
  simp [skeleton, Function.comp_def]

namespace Transform

theorem addNewPorts_skeleton (d : Direction) (specs : List (String × PortType)) (t : Transform)
    (next : Nat) :
    t.skeleton.addNewPorts d (specs.map fun port => (port.1, ⟨""⟩)) next =
      skeletons (Prod.map skeleton id) id (t.addNewPorts d specs next) := by
  induction specs generalizing t next with
  | nil => rfl
  | cons spec rest ih =>
    obtain ⟨name, type⟩ := spec
    rw [List.map_cons, addNewPorts, addNewPorts, Port.create_skeleton name type]
    rcases Port.create name type d next with ⟨next, e | p⟩
    · rfl
    · simp only [skeletons, Except.map, addPortTo_skeleton]
      rcases t.addPortTo d p with ⟨t', e | u⟩
      · rfl
      · exact ih t' next

theorem addNewConstants_skeleton (specs : List (String × Option Value)) (t : Transform)
    (s : Store) :
    t.skeleton.addNewConstants (specs.map fun constant => (constant.1, none)) s.skeleton =
      skeletons (Prod.map skeleton Store.skeleton) id (t.addNewConstants specs s) := by
  induction specs generalizing t s with
  | nil => rfl
  | cons spec rest ih =>
    obtain ⟨name, v⟩ := spec
    rw [List.map_cons, addNewConstants, addNewConstants, Store.createConstant_skeleton s name v]
    rcases s.createConstant name v with ⟨s', e | c⟩
    · rfl
    · simp only [skeletons, Except.map, id, addConstant_skeleton]
      rcases t.addConstant c with ⟨t', e | u⟩
      · rfl
      · exact ih t' s'

end Transform

namespace Workshop

/-- The workshop without values, and with the skeletons of the events in its log. -/
def skeleton (w : Workshop) : Workshop :=
  ⟨w.nextPort, w.nextSerial, w.store.skeleton, w.log.map Event.skeleton⟩

@[simp] theorem skeleton_skeleton (w : Workshop) : w.skeleton.skeleton = w.skeleton := by
  simp [skeleton, Function.comp_def]

theorem skeleton_record (w : Workshop) (e : Event) :
    (w.record e).skeleton = w.skeleton.record e.skeleton := by
  simp [record, skeleton]

theorem makePorts_skeleton (plan : Plan) (t : Transform) (next : Nat) :
    makePorts plan.skeleton t.skeleton next =
      skeletons (Prod.map Transform.skeleton id) id (makePorts plan t next) := by
  unfold makePorts
  rw [show plan.skeleton.inputs = plan.inputs.map _ from rfl,
    show plan.skeleton.outputs = plan.outputs.map _ from rfl, Transform.addNewPorts_skeleton]
  rcases t.addNewPorts .input plan.inputs next with ⟨⟨t', next'⟩, e | u⟩
  · rfl
  · exact t'.addNewPorts_skeleton .output plan.outputs next'

/-- **Making a plan looks at its skeleton only.** -/
theorem make_skeleton (w : Workshop) (plan : Plan) : w.skeleton.make plan.skeleton =
    skeletons skeleton Transform.skeleton (w.make plan) := by
  unfold make
  -- a transform without ports is its own skeleton, so the marks are all that has to go
  rw [show plan.skeleton.name = plan.name from rfl,
    show w.skeleton.nextSerial = w.nextSerial from rfl]
  conv =>
    lhs
    rw [Transform.create_skeleton]
  cases Transform.create w.nextSerial plan.name with
  | error e => rfl
  | ok t =>
    have hports : makePorts plan.skeleton (t.skeleton.withMemory plan.skeleton.readsMemory
        plan.skeleton.writesMemory) w.skeleton.nextPort = _ :=
      makePorts_skeleton plan (t.withMemory plan.readsMemory plan.writesMemory) w.nextPort
    simp only [Except.map, hports]
    rcases makePorts plan (t.withMemory plan.readsMemory plan.writesMemory) w.nextPort with
      ⟨⟨t', next⟩, e | u⟩
    · rfl
    · have hconstants : t'.skeleton.addNewConstants plan.skeleton.constants w.skeleton.store = _ :=
        Transform.addNewConstants_skeleton plan.constants t' w.store
      simp only [skeletons, Except.map, Prod.map, hconstants]
      rcases t'.addNewConstants plan.constants w.store with ⟨⟨t'', s'⟩, e | u⟩ <;> rfl

/-! ### Registering and building -/

variable {w w' : Workshop} {g g' : Graph}

theorem make_congr (hw : w.skeleton = w'.skeleton) {plan plan' : Plan}
    (hplan : plan.skeleton = plan'.skeleton) :
    skeletons skeleton Transform.skeleton (w.make plan) =
      skeletons skeleton Transform.skeleton (w'.make plan') := by
  rw [← make_skeleton, ← make_skeleton, hw, hplan]

theorem createPort_skeleton (w : Workshop) (name : String) (type : PortType) (d : Direction) :
    w.skeleton.createPort name ⟨""⟩ d = skeletons skeleton Port.skeleton (w.createPort name type d) := by
  unfold createPort
  rw [show w.skeleton.nextPort = w.nextPort from rfl, Port.create_skeleton name type]
  rfl

theorem createPort_congr (hw : w.skeleton = w'.skeleton) (name : String) (type type' : PortType)
    (d : Direction) : skeletons skeleton Port.skeleton (w.createPort name type d) =
      skeletons skeleton Port.skeleton (w'.createPort name type' d) := by
  rw [← createPort_skeleton, ← createPort_skeleton, hw]

theorem createConstant_skeleton (w : Workshop) (name : String) (v : Option Value) :
    w.skeleton.createConstant name none = skeletons skeleton id (w.createConstant name v) := by
  unfold createConstant
  rw [show w.skeleton.store = w.store.skeleton from rfl, Store.createConstant_skeleton _ _ v]
  rfl

theorem createConstant_congr (hw : w.skeleton = w'.skeleton) (name : String)
    (v v' : Option Value) : skeletons skeleton id (w.createConstant name v) =
      skeletons skeleton id (w'.createConstant name v') := by
  rw [← createConstant_skeleton, ← createConstant_skeleton, hw]

theorem addTransform_congr (hw : w.skeleton = w'.skeleton) (hg : g.skeleton = g'.skeleton)
    {t t' : Transform} (ht : t.skeleton = t'.skeleton) :
    skeletons (Prod.map skeleton Graph.skeleton) id (w.addTransform g t) =
      skeletons (Prod.map skeleton Graph.skeleton) id (w'.addTransform g' t') := by
  -- the event shows the signature, which the types are part of
  have hevent : ∀ (g : Graph) (t : Transform), (g.addTransform t).event.skeleton =
      (g.skeleton.addTransform t.skeleton).event.skeleton := by
    intro g t
    unfold Graph.addTransform
    rw [Transform.name_skeleton, show g.skeleton.slots = g.slots from rfl, g.nextSlot_skeleton]
    split <;> rfl
  unfold skeletons addTransform Prod.map
  simp only [skeleton_record]
  rw [hevent g t, hevent g' t', ← (g.addTransform_skeleton t).1, ← (g.addTransform_skeleton t).2,
    ← (g'.addTransform_skeleton t').1, ← (g'.addTransform_skeleton t').2, hw, hg, ht]

theorem addEdge_congr (hw : w.skeleton = w'.skeleton) (hg : g.skeleton = g'.skeleton)
    {e e' : Edge} (he : e.skeleton = e'.skeleton) :
    skeletons (Prod.map skeleton Graph.skeleton) id (w.addEdge g e) =
      skeletons (Prod.map skeleton Graph.skeleton) id (w'.addEdge g' e') := by
  -- the event shows the edge with its label
  have hevent : ∀ (g : Graph) (e : Edge), (g.addEdge e).event.skeleton =
      (g.skeleton.addEdge e.skeleton).event.skeleton := by
    intro g e
    unfold Graph.addEdge
    rw [Graph.ownerlessEnd?_skeleton]
    split <;> rfl
  unfold skeletons addEdge Prod.map
  simp only [skeleton_record]
  rw [hevent g e, hevent g' e', ← (g.addEdge_skeleton e).1, ← (g.addEdge_skeleton e).2,
    ← (g'.addEdge_skeleton e').1, ← (g'.addEdge_skeleton e').2, hw, hg, he]

/-- Registrations that go alike leave graphs that are alike, or none. -/
theorem built_congr {r r' : (Workshop × Graph) × Except Error Unit}
    (h : skeletons (Prod.map skeleton Graph.skeleton) id r =
      skeletons (Prod.map skeleton Graph.skeleton) id r') :
    skeletons skeleton Graph.skeleton (built r) = skeletons skeleton Graph.skeleton (built r') := by
  rcases skeletons_cases h with ⟨s, s', e, rfl, rfl, hs⟩ | ⟨s, s', a, a', rfl, rfl, hs, -⟩
  · exact Prod.ext (Prod.mk.inj hs).1 rfl
  · exact Prod.ext (Prod.mk.inj hs).1 (congrArg Except.ok (Prod.mk.inj hs).2)

theorem addPlans_cons (plan : Plan) (rest : List Plan) (w : Workshop) (g : Graph) :
    w.addPlans (plan :: rest) g = andThen (w.make plan) fun w t =>
      andThen (built (w.addTransform g t)) fun w g => w.addPlans rest g := by
  rw [addPlans]
  rcases w.make plan with ⟨w₁, e | t⟩
  · rfl
  · simp only [andThen]
    rcases built (w₁.addTransform g t) with ⟨w₂, e | g₁⟩ <;> rfl

theorem addLinks_cons (link : Link) (rest : List Link) (w : Workshop) (g : Graph) :
    w.addLinks (link :: rest) g = andThen (w, link.edge g) fun w e =>
      andThen (built (w.addEdge g e)) fun w g => w.addLinks rest g := by
  rw [addLinks]
  cases link.edge g with
  | error e => rfl
  | ok e =>
    simp only [andThen]
    rcases built (w.addEdge g e) with ⟨w₂, err | g₁⟩ <;> rfl

theorem addPlans_congr (plans : List Plan) (hw : w.skeleton = w'.skeleton)
    (hg : g.skeleton = g'.skeleton) :
    skeletons skeleton Graph.skeleton (w.addPlans plans g) =
      skeletons skeleton Graph.skeleton (w'.addPlans plans g') := by
  induction plans generalizing w w' g g' with
  | nil => exact Prod.ext hw (congrArg Except.ok hg)
  | cons plan rest ih =>
    rw [addPlans_cons, addPlans_cons]
    refine andThen_congr (make_congr hw rfl) fun w₁ w₁' t t' hw ht => ?_
    exact andThen_congr (built_congr (addTransform_congr hw hg ht)) fun w₂ w₂' g₁ g₁' hw hg => ih hw hg

end Workshop

theorem Socket.transformIn_skeleton (g : Graph) (name : String) :
    transformIn g.skeleton name = (transformIn g name).map Transform.skeleton := by
  unfold transformIn
  rw [Graph.transform?_skeleton]
  cases g.transform? name <;> rfl

theorem Socket.endpoint_skeleton (g : Graph) (s : Socket) :
    s.endpoint g.skeleton = (s.endpoint g).map Endpoint.skeleton := by
  cases s with
  | whole t =>
    simp only [endpoint, transformIn_skeleton]
    cases transformIn g t <;> rfl
  | port t name =>
    simp only [endpoint, transformIn_skeleton]
    cases transformIn g t with
    | error e => rfl
    | ok t =>
      simp only [Except.map, bind, Except.bind, Transform.port_skeleton]
      cases t.port name <;> rfl
  | output t index =>
    simp only [endpoint, transformIn_skeleton]
    cases transformIn g t with
    | error e => rfl
    | ok t =>
      simp only [Except.map, bind, Except.bind, Transform.portAt_skeleton]
      cases t.portAt .output index <;> rfl

theorem Link.edge_skeleton (l : Link) (g : Graph) : l.edge g.skeleton = l.edge g := by
  unfold edge
  rw [Socket.endpoint_skeleton, Socket.endpoint_skeleton]
  cases l.source.endpoint g with
  | error e => rfl
  | ok a =>
    cases l.target.endpoint g with
    | error e => rfl
    | ok b =>
      simp only [Except.map, bind, Except.bind, connect_skeleton]

namespace Workshop
variable {w w' : Workshop} {g g' : Graph}

theorem addLinks_congr (links : List Link) (hw : w.skeleton = w'.skeleton)
    (hg : g.skeleton = g'.skeleton) :
    skeletons skeleton Graph.skeleton (w.addLinks links g) =
      skeletons skeleton Graph.skeleton (w'.addLinks links g') := by
  induction links generalizing w w' g g' with
  | nil => exact Prod.ext hw (congrArg Except.ok hg)
  | cons link rest ih =>
    -- the labels of the links belong to the design, so the edges are the same
    have hedge : link.edge g = link.edge g' := by rw [← link.edge_skeleton, hg, link.edge_skeleton]
    rw [addLinks_cons, addLinks_cons, hedge]
    have hfirst : skeletons skeleton Edge.skeleton (w, link.edge g') =
        skeletons skeleton Edge.skeleton (w', link.edge g') := Prod.ext hw rfl
    refine andThen_congr hfirst fun w₁ w₁' e e' hw he => ?_
    exact andThen_congr (built_congr (addEdge_congr hw hg he)) fun w₂ w₂' g₁ g₁' hw hg => ih hw hg

/-- **Building a design looks at the skeleton of the workshop only.** -/
theorem build_congr (d : Design) (hw : w.skeleton = w'.skeleton) :
    skeletons skeleton Graph.skeleton (d.build w) = skeletons skeleton Graph.skeleton (d.build w') := by
  have hbuild : ∀ w, d.build w = andThen (w.addPlans d.plans (Graph.empty d.name)) fun w g =>
      w.addLinks d.links g := by
    intro w
    unfold Design.build
    rcases w.addPlans d.plans (Graph.empty d.name) with ⟨w₁, e | g⟩ <;> rfl
  rw [hbuild, hbuild]
  exact andThen_congr (addPlans_congr d.plans hw rfl) fun w₁ w₁' g g' hw hg =>
    addLinks_congr d.links hw hg

end Workshop

end Dataflow
