import Dataflow.Proofs.Attempt
import Dataflow.Proofs.Graph.Construction
import Dataflow.Session.Run

/-!
# What a step can do to a session

`Session.perform` has a case for each of some forty steps, and most of them look things up and may
fail on the way.  What they can do to a session is much less.  `Session.Move` lists it: nothing but
counters and values changes, a variable loses its object, a variable is bound to something new
(`Session.Creates`), an open transform grows, or a graph does.  Every ordinary step is one of these
moves (`Session.perform_move`), and every other step breaks the rules in one of four ways
(`Session.perform_breach`).

So a property of sessions that every move keeps is kept by every run of ordinary steps
(`Session.run_induction`), and no proof about runs has to look at the steps again.
-/

namespace Dataflow

/-! ## What objects are made of -/

namespace Object

/-- The ports that belong to nothing yet. -/
def loosePorts : Object → List Port
  | .port p => [p]
  | _ => []

/-- The transforms, open or registered. -/
def transforms : Object → List Transform
  | .draft t => [t]
  | .handle t => [t]
  | .graph g => g.transforms
  | _ => []

/-- The edges, registered or not. -/
def edges : Object → List Edge
  | .edge e => [e]
  | .graph g => g.edges
  | _ => []

/-- All ports, loose or owned. -/
def ports (o : Object) : List Port := o.loosePorts ++ o.transforms.flatMap Transform.ports

theorem mem_ports_iff {o : Object} {p : Port} :
    p ∈ o.ports ↔ p ∈ o.loosePorts ∨ ∃ t ∈ o.transforms, p ∈ t.ports := by
  simp [ports]

theorem mem_ports_of_mem {o : Object} {t : Transform} {p : Port} (ht : t ∈ o.transforms)
    (hp : p ∈ t.ports) : p ∈ o.ports :=
  mem_ports_iff.mpr (Or.inr ⟨t, ht, hp⟩)

@[simp] theorem ports_port (p : Port) : (port p).ports = [p] := rfl

@[simp] theorem ports_draft (t : Transform) : (draft t).ports = t.ports := by
  simp [ports, loosePorts, transforms]

@[simp] theorem ports_handle (t : Transform) : (handle t).ports = t.ports := by
  simp [ports, loosePorts, transforms]

end Object

theorem orRefuse_eq_ok {α : Type} {x : Except Error α} {a : α} :
    orRefuse x = .ok a ↔ x = .ok a := by
  cases x <;> simp

namespace Session

/-! ## What variables hold -/

/-- The variable holds the object. -/
def Holds (s : Session) (x : String) (o : Object) : Prop := s.bindings.get? x = some o

/-- Some variable holds the transform, open, registered, or as a part of a graph. -/
def Knows (s : Session) (t : Transform) : Prop := ∃ x o, s.Holds x o ∧ t ∈ o.transforms

/-- Some variable holds the port, loose or as a part of a transform. -/
def HasPort (s : Session) (p : Port) : Prop := ∃ x o, s.Holds x o ∧ p ∈ o.ports

section Holds
variable {s : Session} {x y : String} {o o' : Object} {w : Workshop}

theorem Holds.unique (h : s.Holds x o) (h' : s.Holds x o') : o = o' :=
  Option.some.inj (h.symm.trans h')

/-- Different objects are in different variables. -/
theorem Holds.ne (h : s.Holds x o) (h' : s.Holds y o') (ho : o ≠ o') : x ≠ y := by
  rintro rfl
  exact ho (h.unique h')

theorem holds_bind_iff :
    (s.bind y o).Holds x o' ↔ (y = x ∧ o = o') ∨ (y ≠ x ∧ s.Holds x o') := by
  unfold Holds bind
  rw [Table.get?_insert]
  by_cases h : y = x
  · simp [h]
  · simp [h]

theorem holds_unbind_iff : (s.unbind y).Holds x o' ↔ y ≠ x ∧ s.Holds x o' := by
  unfold Holds unbind
  rw [Table.get?_erase]
  by_cases h : y = x
  · simp [h]
  · simp [h]

@[simp] theorem holds_withWorkshop_iff : (s.withWorkshop w).Holds x o ↔ s.Holds x o := Iff.rfl

theorem Knows.hasPort {t : Transform} (h : s.Knows t) {p : Port} (hp : p ∈ t.ports) :
    s.HasPort p := by
  obtain ⟨x, o, ho, ht⟩ := h
  exact ⟨x, o, ho, Object.mem_ports_of_mem ht hp⟩

end Holds

/-! ## Looking up

A lookup that succeeds has found an object of the right sort, or a part of one. -/

section Lookup
variable {s : Session} {x : String}

theorem lookUp_eq_ok {α : Type} {k : Object.Kind α} {a : α} :
    s.lookUp k x = .ok a ↔ s.Holds x (k.wrap a) := by
  unfold lookUp Holds
  cases hx : s.bindings.get? x with
  | none => simp
  | some o =>
    rw [Option.bind_some, Option.some.injEq, ← k.unwrap?_eq_some]
    cases k.unwrap? o <;> simp

/-- A variable that does not hold the right sort of object makes a step senseless; it never refuses
it. -/
theorem lookUp_eq_error {α : Type} {k : Object.Kind α} {f : Obstacle}
    (h : s.lookUp k x = .error f) : f = .senseless := by
  unfold lookUp at h
  split at h <;> cases h
  rfl

theorem transform_eq_ok {t : Transform} :
    s.transform x = .ok t ↔ s.Holds x (.draft t) ∨ s.Holds x (.handle t) := by
  have hdraft : s.lookUp .draft x = .ok t ↔ s.Holds x (.draft t) := lookUp_eq_ok
  have hhandle : s.lookUp .handle x = .ok t ↔ s.Holds x (.handle t) := lookUp_eq_ok
  unfold transform
  cases h : s.lookUp .draft x with
  | error f =>
    rw [h] at hdraft
    exact ⟨fun hx => Or.inr (hhandle.mp hx),
      fun hx => hx.elim (fun hx => nomatch hdraft.mpr hx) hhandle.mpr⟩
  | ok u =>
    have hu : s.Holds x (.draft u) := lookUp_eq_ok.mp h
    rw [h] at hdraft
    refine ⟨fun hx => Or.inl (hdraft.mp hx), fun hx => hx.elim hdraft.mpr fun hx => ?_⟩
    cases hu.unique hx

theorem knows_of_holds {t : Transform} (h : s.Holds x (.draft t) ∨ s.Holds x (.handle t)) :
    s.Knows t := by
  rcases h with h | h
  · exact ⟨x, _, h, List.mem_singleton_self t⟩
  · exact ⟨x, _, h, List.mem_singleton_self t⟩

theorem knows_of_transform {t : Transform} (h : s.transform x = .ok t) : s.Knows t :=
  knows_of_holds (transform_eq_ok.mp h)

/-- A reference leads to a port that a variable holds. -/
theorem hasPort_of_port {r : PortRef} {p : Port} (h : s.port r = .ok p) : s.HasPort p := by
  cases r with
  | loose x => exact ⟨x, _, lookUp_eq_ok.mp h, List.mem_singleton_self p⟩
  | positioned x d i =>
    obtain ⟨t, ht, h⟩ := bind_eq_ok.mp h
    exact (knows_of_transform ht).hasPort (Transform.mem_ports_of_portAt (orRefuse_eq_ok.mp h))
  | named x name =>
    obtain ⟨t, ht, h⟩ := bind_eq_ok.mp h
    exact (knows_of_transform ht).hasPort (Transform.mem_ports_of_port (orRefuse_eq_ok.mp h))

theorem hasPort_of_endpoint {r : EndpointRef} {a : Endpoint} (h : s.endpoint r = .ok a) {p : Port}
    (hp : p ∈ a.ports) : s.HasPort p := by
  cases r with
  | port r =>
    obtain ⟨q, hq, h⟩ := bind_eq_ok.mp h
    cases h
    rw [List.mem_singleton.mp hp]
    exact hasPort_of_port hq
  | whole x =>
    obtain ⟨t, ht, h⟩ := bind_eq_ok.mp h
    cases h
    exact (knows_of_transform ht).hasPort hp

end Lookup

/-! ## Moves -/

/-- **What a variable can be bound to anew**, with the workshop afterwards. -/
inductive Creates (s : Session) : Workshop → Object → Prop
  | port {name : String} {type : PortType} {d : Direction} {p : Port} {n : Nat}
      (h : Port.create name type d s.workshop.nextPort = (n, .ok p)) :
      Creates s { s.workshop with nextPort := n } (.port p)
  | constant {name : String} {v : Option Value} {c : Constant} {store : Store}
      (h : s.store.createConstant name v = (store, .ok c)) :
      Creates s { s.workshop with store := store } (.constant c)
  | draft {plan : Plan} {t : Transform} {w : Workshop} (h : s.workshop.make plan = (w, .ok t)) :
      Creates s w (.draft t)
  | edge {e : Edge} (h : e.Joins s.HasPort) : Creates s s.workshop (.edge e)
  | relabel {x : String} {e : Edge} (h : s.Holds x (.edge e)) (label : String) :
      Creates s s.workshop (.edge (e.named label))
  | graph (name : String) : Creates s s.workshop (.graph (.empty name))
  | design {d : Design} {g : Graph} {w : Workshop} (h : d.build s.workshop = (w, .ok g)) :
      Creates s w (.graph g)
  /-- A further handle to a registered transform. -/
  | handle {x : String} {g : Graph} {t : Transform} (hx : s.Holds x (.graph g))
      (ht : t ∈ g.transforms) : Creates s s.workshop (.handle t)

/-- **What an ordinary step can do to a session.** -/
inductive Move (s : Session) : Session → Prop
  /-- Only counters, the log and the values of constants change. -/
  | stay {w : Workshop} (h : s.workshop.Precedes w) : Move s (s.withWorkshop w)
  | discard {w : Workshop} (h : s.workshop.Precedes w) (x : String) :
      Move s ((s.withWorkshop w).unbind x)
  | create {w : Workshop} {o : Object} (h : s.Creates w o) (x : String) :
      Move s ((s.withWorkshop w).bind x o)
  | mark {x : String} {t : Transform} (hx : s.Holds x (.draft t)) (reads writes : Bool) :
      Move s (s.bind x (.draft (t.withMemory reads writes)))
  | addConstant {x y : String} {t t' : Transform} {c : Constant} (hx : s.Holds x (.draft t))
      (hy : s.Holds y (.constant c)) (h : t.addConstant c = (t', .ok ())) :
      Move s ((s.unbind y).bind x (.draft t'))
  | addPort {x y : String} {t t' : Transform} {p : Port} {d : Direction}
      (hx : s.Holds x (.draft t)) (hy : s.Holds y (.port p)) (h : t.addPortTo d p = (t', .ok ())) :
      Move s ((s.unbind y).bind x (.draft t'))
  /-- A transform is registered, and its variable becomes a handle. -/
  | register {x y : String} {g : Graph} {t : Transform} {w : Workshop}
      (hx : s.Holds x (.graph g)) (hy : s.Holds y (.draft t)) (hw : s.workshop.Precedes w)
      (h : g.slots.contains t.name = false) :
      Move s ((((s.unbind y).withWorkshop w).bind x (.graph (g.appendTransform t))).bind y
        (.handle t))
  | addEdge {x y : String} {g : Graph} {e : Edge} {w : Workshop}
      (hx : s.Holds x (.graph g)) (hy : s.Holds y (.edge e)) (hw : s.workshop.Precedes w)
      (h : g.ownerlessEnd? e = none) :
      Move s ((s.withWorkshop w).bind x (.graph (g.appendEdge e)))

/-- **What the steps that break the rules do.** -/
inductive Breach (s : Session) : Session → Prop
  | forgeEdge (x : String) (e : Edge) : Breach s (s.bind x (.edge e))
  | forceEdge {x : String} {g : Graph} (hx : s.Holds x (.graph g)) (e : Edge) :
      Breach s (s.bind x (.graph (g.appendEdge e)))
  | forceTransform {x y : String} {g : Graph} {t : Transform} (hx : s.Holds x (.graph g))
      (hy : s.Holds y (.draft t) ∨ s.Holds y (.handle t)) :
      Breach s ((s.bind x (.graph { g with transforms := g.transforms ++ [t] })).bind y (.handle t))
  | forceIndex {x : String} {g : Graph} (hx : s.Holds x (.graph g)) (index : ParentIndex) :
      Breach s (s.bind x (.graph { g with parents := index }))

end Session

/-- The step keeps the rules. -/
def Step.isOrdinary : Step → Bool
  | .forgeEdge _ _ => false
  | .forceEdge _ _ => false
  | .forceTransform _ _ => false
  | .forceIndex _ _ _ => false
  | _ => true

namespace Session

section Perform
variable {s : Session}

theorem Move.refl (s : Session) : s.Move s := Move.stay (Workshop.Precedes.refl s.workshop)

/-- Work that begins by looking something up does nothing when it is not there. -/
theorem Move.read_bind {α : Type} {r : Session → Except Obstacle α} {f : α → Work Reply}
    (h : ∀ a, r s = .ok a → s.Move (f a s).1) : s.Move ((Attempt.read r >>= f) s).1 :=
  Attempt.read_bind_elim (P := fun r => s.Move r.1) (fun _ _ => .refl s) h

/-- A refusal in the workshop leaves the workshop as it has become by then. -/
theorem inWorkshop_of_error {α : Type} {work : Workshop → Workshop × Except Error α} {w : Workshop}
    {e : Error} (h : work s.workshop = (w, .error e)) :
    Work.inWorkshop work s = (s.withWorkshop w, .error (.refused e)) := by
  simp only [Work.inWorkshop, h, orRefuse_error]

theorem inWorkshop_of_ok {α : Type} {work : Workshop → Workshop × Except Error α} {w : Workshop}
    {a : α} (h : work s.workshop = (w, .ok a)) :
    Work.inWorkshop work s = (s.withWorkshop w, .ok a) := by
  simp only [Work.inWorkshop, h, orRefuse_ok]

/-- Work that begins in the workshop ends there with a refusal, or goes on with what was made. -/
theorem inWorkshop_bind_elim {α : Type} {work : Workshop → Workshop × Except Error α}
    {f : α → Work Reply} {P : Session × Except Obstacle Reply → Prop}
    (herror : ∀ w e, work s.workshop = (w, .error e) → P (s.withWorkshop w, .error (.refused e)))
    (hok : ∀ w a, work s.workshop = (w, .ok a) → P (f a (s.withWorkshop w))) :
    P ((Work.inWorkshop work >>= f) s) := by
  rcases h : work s.workshop with ⟨w, e | a⟩
  · exact Attempt.bind_of_error (inWorkshop_of_error h) ▸ herror w e h
  · exact Attempt.bind_of_ok (inWorkshop_of_ok h) ▸ hok w a h

theorem Move.bindEdge {e : Edge} (h : s.Creates s.workshop (.edge e)) (x : String) :
    s.Move (Work.bindEdge x e s).1 := Move.create h x

/-- A transform that was found in a graph is bound as a handle, or not at all. -/
theorem Move.foundTransform {x : String} {g : Graph} {t : Transform} (hx : s.Holds x (.graph g))
    (ht : t ∈ g.transforms) (target : Option String) :
    s.Move (Work.foundTransform target t s).1 := by
  cases target with
  | none => exact Move.refl s
  | some y => exact Move.create (.handle hx ht) y

theorem Move.maybeTransform {x : String} {g : Graph} {r : Option Transform}
    (hx : s.Holds x (.graph g)) (hr : ∀ t, r = some t → t ∈ g.transforms)
    (target : Option String) : s.Move (Work.maybeTransform target r s).1 := by
  cases r with
  | none => exact Move.refl s
  | some t => exact Move.foundTransform hx (hr t rfl) target

/-! ### Work on two objects -/

/-- Work that begins by looking up two objects goes on with them when they are there. -/
theorem lookUp₂_of_holds {α β γ : Type} (k : Object.Kind α) (k' : Object.Kind β) {x y : String} {a : α}
    {b : β} (hx : s.Holds x (k.wrap a)) (hy : s.Holds y (k'.wrap b)) (f : α → β → Work γ) :
    (do let a ← Attempt.read (·.lookUp k x); let b ← Attempt.read (·.lookUp k' y); f a b : Work γ) s =
      f a b s :=
  (Attempt.read_bind_of_ok (s := s) (lookUp_eq_ok.mpr hx)).trans
    (Attempt.read_bind_of_ok (s := s) (lookUp_eq_ok.mpr hy))

/-- Work that begins by looking up two objects is senseless, or it finds both. -/
theorem lookUp₂_cases (s : Session) {α β γ : Type} (k : Object.Kind α) (k' : Object.Kind β)
    (x y : String) (f : α → β → Work γ) :
    (do let a ← Attempt.read (·.lookUp k x); let b ← Attempt.read (·.lookUp k' y); f a b : Work γ) s =
        (s, .error .senseless) ∨
      ∃ a b, s.Holds x (k.wrap a) ∧ s.Holds y (k'.wrap b) := by
  cases ha : s.lookUp k x with
  | error o =>
    obtain rfl := lookUp_eq_error ha
    exact Or.inl (Attempt.read_bind_of_error (s := s) ha)
  | ok a =>
    have hfirst := Attempt.read_bind_of_ok (s := s) (r := (·.lookUp k x)) ha
      (f := fun a => Attempt.read (·.lookUp k' y) >>= fun b => f a b)
    cases hb : s.lookUp k' y with
    | error o =>
      obtain rfl := lookUp_eq_error hb
      exact Or.inl (hfirst.trans (Attempt.read_bind_of_error (s := s) hb))
    | ok b => exact Or.inr ⟨a, b, lookUp_eq_ok.mp ha, lookUp_eq_ok.mp hb⟩

/-- What is bound to a variable that holds it already changes nothing. -/
theorem bind_of_holds {x : String} {o : Object} (h : s.Holds x o) : s.bind x o = s :=
  congrArg (Session.mk s.workshop) (Table.insert_of_get? h)

/-- What is offered leaves its variable, and the transform is what the operation has made of it. -/
theorem offer_of_holds {α : Type} {x y : String} {k : Object.Kind α} {t : Transform} {a : α}
    (hx : s.Holds x (.draft t)) (hy : s.Holds y (k.wrap a))
    (add : Transform → α → Transform × Except Error Unit) : Work.offer x y k add s =
      ((s.unbind y).bind x (.draft (add t a).1), (orRefuse (add t a).2).map fun _ => .nothing) := by
  refine (lookUp₂_of_holds .draft k hx hy _).trans ?_
  refine (Attempt.change_bind ..).trans ((Attempt.change_bind ..).trans ?_)
  cases hadd : (add t a).2 with
  | error e => exact Attempt.bind_of_error rfl
  | ok u => exact Attempt.bind_of_ok rfl

/-- **What offering an object to a transform does**: nothing if the variables do not hold such an
object and an open transform; otherwise the object leaves its variable, and the transform is what the
operation has made of it. -/
theorem offer_cases (s : Session) {α : Type} (x y : String) (k : Object.Kind α)
    (add : Transform → α → Transform × Except Error Unit) :
    Work.offer x y k add s = (s, .error .senseless) ∨
      ∃ t a, s.Holds x (.draft t) ∧ s.Holds y (k.wrap a) ∧ Work.offer x y k add s =
        ((s.unbind y).bind x (.draft (add t a).1), (orRefuse (add t a).2).map fun _ => .nothing) := by
  rcases lookUp₂_cases s .draft k x y _ with h | ⟨t, a, hx, hy⟩
  · exact Or.inl h
  · exact Or.inr ⟨t, a, hx, hy, offer_of_holds hx hy add⟩

section Register
variable {x y : String} {g : Graph} {t : Transform} {e : Edge} {side : EdgeEnd} {id : Ident}

/-- Once the graph and the transform are there, the transform leaves its variable, and the graph is
asked. -/
theorem addTransform_of_holds (hx : s.Holds x (.graph g)) (hy : s.Holds y (.draft t)) :
    Work.addTransform x y s = (do
      let _ ← Work.inGraph x g (·.addTransform · t)
      Attempt.change (·.bind y (.handle t))
      return .text t.name : Work Reply) (s.unbind y) :=
  lookUp₂_of_holds .graph .draft hx hy _

/-- Once the graph and the edge are there, the graph is asked. -/
theorem addEdge_of_holds (hx : s.Holds x (.graph g)) (hy : s.Holds y (.edge e)) :
    Work.addEdge x y s = (do
      let g ← Work.inGraph x g (·.addEdge · e)
      return .registered e (g.describe e) : Work Reply) s :=
  lookUp₂_of_holds .graph .edge hx hy _

/-- A transform whose name is taken leaves its variable, and the graph goes back into its own as it
was. -/
theorem addTransform_of_taken (hx : s.Holds x (.graph g)) (hy : s.Holds y (.draft t))
    (hname : g.slots.contains t.name = true) : s.perform (.addTransform x y) =
      ((s.withWorkshop (s.workshop.record (.nameTaken g.name t.name))).unbind y,
        .refused (.duplicateName t.name (.transforms g.name))) := by
  have hxy : y ≠ x := hy.ne hx nofun
  have hin : Work.inGraph x g (·.addTransform · t) (s.unbind y) =
      ((s.withWorkshop (s.workshop.record (.nameTaken g.name t.name))).unbind y,
        .error (.refused (.duplicateName t.name (.transforms g.name)))) := by
    simp only [Work.inGraph, Workshop.addTransform, Graph.addTransform_of_taken hname]
    exact congrArg (·, _) (bind_of_holds (holds_unbind_iff.mpr ⟨hxy, hx⟩))
  exact congrArg conclude ((addTransform_of_holds hx hy).trans (Attempt.bind_of_error hin))

/-- A transform of a new name becomes a handle. -/
theorem addTransform_of_new (hx : s.Holds x (.graph g)) (hy : s.Holds y (.draft t))
    (hname : g.slots.contains t.name = false) : s.perform (.addTransform x y) =
      ((((s.unbind y).withWorkshop (s.workshop.record
        (.transformRegistered g.name g.nextSlot t.signature))).bind x
          (.graph (g.appendTransform t))).bind y (.handle t), .done (.text t.name)) := by
  have hin : Work.inGraph x g (·.addTransform · t) (s.unbind y) =
      (((s.unbind y).withWorkshop (s.workshop.record
        (.transformRegistered g.name g.nextSlot t.signature))).bind x
          (.graph (g.appendTransform t)), .ok (g.appendTransform t)) := by
    simp only [Work.inGraph, Workshop.addTransform, Graph.addTransform_of_new hname]
    rfl
  exact congrArg conclude ((addTransform_of_holds hx hy).trans (Attempt.bind_of_ok hin))

/-- An edge with an end that has no owner changes nothing but the log. -/
theorem addEdge_of_ownerless (hx : s.Holds x (.graph g)) (hy : s.Holds y (.edge e))
    (hend : g.ownerlessEnd? e = some (side, id)) : s.perform (.addEdge x y) =
      (s.withWorkshop (s.workshop.record (.noOwner g.name side id)),
        .refused (.danglingReference side id g.name)) := by
  have hin : Work.inGraph x g (·.addEdge · e) s =
      (s.withWorkshop (s.workshop.record (.noOwner g.name side id)),
        .error (.refused (.danglingReference side id g.name))) := by
    simp only [Work.inGraph, Workshop.addEdge, Graph.addEdge_of_ownerless hend]
    exact congrArg (·, _) (bind_of_holds hx)
  exact congrArg conclude ((addEdge_of_holds hx hy).trans (Attempt.bind_of_error hin))

/-- An edge between owned ports comes into the graph. -/
theorem addEdge_of_owned (hx : s.Holds x (.graph g)) (hy : s.Holds y (.edge e))
    (hend : g.ownerlessEnd? e = none) : s.perform (.addEdge x y) =
      ((s.withWorkshop (s.workshop.record (.edgeRegistered g.name (g.describe e)))).bind x
        (.graph (g.appendEdge e)), .done (.registered e ((g.appendEdge e).describe e))) := by
  have hin : Work.inGraph x g (·.addEdge · e) s =
      ((s.withWorkshop (s.workshop.record (.edgeRegistered g.name (g.describe e)))).bind x
        (.graph (g.appendEdge e)), .ok (g.appendEdge e)) := by
    simp only [Work.inGraph, Workshop.addEdge, Graph.addEdge_of_owned hend]
    rfl
  exact congrArg conclude ((addEdge_of_holds hx hy).trans (Attempt.bind_of_ok hin))

end Register

/-- **What registering a transform does**: nothing if the variables do not hold a graph and an open
transform; otherwise it logs one event and takes the transform out of its variable, which becomes a
handle if the graph accepts. -/
theorem addTransform_cases (s : Session) (x y : String) :
    s.perform (.addTransform x y) = (s, .senseless) ∨
      ∃ g t, s.Holds x (.graph g) ∧ s.Holds y (.draft t) ∧
        ((g.slots.contains t.name = true ∧ s.perform (.addTransform x y) =
            ((s.withWorkshop (s.workshop.record (.nameTaken g.name t.name))).unbind y,
              .refused (.duplicateName t.name (.transforms g.name)))) ∨
          (g.slots.contains t.name = false ∧ s.perform (.addTransform x y) =
            ((((s.unbind y).withWorkshop (s.workshop.record
                (.transformRegistered g.name g.nextSlot t.signature))).bind x
                  (.graph (g.appendTransform t))).bind y (.handle t), .done (.text t.name)))) := by
  rcases lookUp₂_cases s .graph .draft x y _ with h | ⟨g, t, hx, hy⟩
  · exact Or.inl (congrArg conclude h)
  · refine Or.inr ⟨g, t, hx, hy, ?_⟩
    cases hname : g.slots.contains t.name with
    | true => exact Or.inl ⟨rfl, addTransform_of_taken hx hy hname⟩
    | false => exact Or.inr ⟨rfl, addTransform_of_new hx hy hname⟩

/-- **What registering an edge does**: nothing if the variables do not hold a graph and an edge;
otherwise it logs one event, and the graph has the edge if both ends have an owner. -/
theorem addEdge_cases (s : Session) (x y : String) :
    s.perform (.addEdge x y) = (s, .senseless) ∨
      ∃ g e, s.Holds x (.graph g) ∧ s.Holds y (.edge e) ∧
        ((∃ side id, g.ownerlessEnd? e = some (side, id) ∧ s.perform (.addEdge x y) =
            (s.withWorkshop (s.workshop.record (.noOwner g.name side id)),
              .refused (.danglingReference side id g.name))) ∨
          (g.ownerlessEnd? e = none ∧ s.perform (.addEdge x y) =
            ((s.withWorkshop (s.workshop.record (.edgeRegistered g.name (g.describe e)))).bind x
              (.graph (g.appendEdge e)), .done (.registered e ((g.appendEdge e).describe e))))) := by
  rcases lookUp₂_cases s .graph .edge x y _ with h | ⟨g, e, hx, hy⟩
  · exact Or.inl (congrArg conclude h)
  · refine Or.inr ⟨g, e, hx, hy, ?_⟩
    cases hend : g.ownerlessEnd? e with
    | some missing => exact Or.inl ⟨missing.1, missing.2, rfl, addEdge_of_ownerless hx hy hend⟩
    | none => exact Or.inr ⟨rfl, addEdge_of_owned hx hy hend⟩

/-- **What making a transform does**: what the making of its plan does, which is all that is left of it
when a part is refused or a value makes no sense. -/
theorem createTransform_cases (s : Session) (x : String) (spec : PlanSpec) :
    (∃ w e, s.workshop.make (s.plan spec) = (w, .error e) ∧
        s.perform (.createTransform x spec) = (s.withWorkshop w, .refused e)) ∨
      ∃ w t, s.workshop.make (s.plan spec) = (w, .ok t) ∧
        ((s.understands spec = true ∧ s.perform (.createTransform x spec) =
            ((s.withWorkshop w).bind x (.draft t), .done (.outline t.outline))) ∨
          (s.understands spec = false ∧ s.perform (.createTransform x spec) =
            (s.withWorkshop { s.workshop with nextPort := w.nextPort }, .senseless))) := by
  rcases hmake : s.workshop.make (s.plan spec) with ⟨w, e | t⟩
  · have hin : Work.inWorkshop (·.make (s.plan spec)) s = _ := inWorkshop_of_error hmake
    exact Or.inl ⟨w, e, rfl, congrArg conclude (Attempt.bind_of_error hin)⟩
  · have hin : Work.inWorkshop (·.make (s.plan spec)) s = _ := inWorkshop_of_ok hmake
    have hwork : Work.createTransform x spec s = _ :=
      (Attempt.read_bind_of_ok (s := s) rfl).trans (Attempt.bind_of_ok hin)
    refine Or.inr ⟨w, t, rfl, ?_⟩
    cases hspec : s.understands spec with
    | true =>
      rw [if_pos hspec] at hwork
      exact Or.inl ⟨rfl, congrArg conclude hwork⟩
    | false =>
      rw [if_neg (Bool.eq_false_iff.mp hspec)] at hwork
      exact Or.inr ⟨rfl, congrArg conclude hwork⟩

/-- A design of the name is built, and the graph is bound. -/
theorem perform_buildDesign {x name : String} {d : Design} {w : Workshop} {g : Graph}
    (hd : Design.find? name = some d) (hbuild : d.build s.workshop = (w, .ok g)) :
    s.perform (.buildDesign x name) =
      ((s.withWorkshop w).bind x (.graph g), .done (.graph g.view)) := by
  show conclude (Work.buildDesign x name s) = _
  unfold Work.buildDesign
  rw [hd]
  exact congrArg conclude (Attempt.bind_of_ok (inWorkshop_of_ok hbuild))

/-- Without a design of the name nothing is done. -/
theorem perform_buildDesign_of_none {x name : String} (hd : Design.find? name = none) :
    s.perform (.buildDesign x name) = (s, .done .nothing) := by
  show conclude (Work.buildDesign x name s) = _
  unfold Work.buildDesign
  rw [hd]
  rfl

/-! ### Moves of single steps -/

theorem precedes_record (s : Session) (event : Event) :
    s.workshop.Precedes (s.workshop.record event) := ⟨Nat.le_refl _, Nat.le_refl _⟩

theorem addTransform_move (s : Session) (x y : String) :
    s.Move (s.perform (.addTransform x y)).1 := by
  rcases s.addTransform_cases x y with h | ⟨g, t, hx, hy, ⟨-, h⟩ | ⟨hname, h⟩⟩
  · exact h ▸ Move.refl s
  · exact h ▸ Move.discard (s.precedes_record _) y
  · exact h ▸ Move.register hx hy (s.precedes_record _) hname

theorem addEdge_move (s : Session) (x y : String) : s.Move (s.perform (.addEdge x y)).1 := by
  rcases s.addEdge_cases x y with h | ⟨g, e, hx, hy, ⟨side, id, -, h⟩ | ⟨hend, h⟩⟩
  · exact h ▸ Move.refl s
  · exact h ▸ Move.stay (s.precedes_record _)
  · exact h ▸ Move.addEdge hx hy (s.precedes_record _) hend

/-- Offering an object to a transform: the object is gone, and the transform has it or not. -/
theorem offer_move {α : Type} {x y : String} {k : Object.Kind α}
    {add : Transform → α → Transform × Except Error Unit} (hk : ∀ a t, k.wrap a ≠ .draft t)
    (hrefused : ∀ t a t' e, add t a = (t', .error e) → t' = t)
    (hok : ∀ t a t', s.Holds x (.draft t) → s.Holds y (k.wrap a) → add t a = (t', .ok ()) →
      s.Move ((s.unbind y).bind x (.draft t'))) : s.Move (Work.offer x y k add s).1 := by
  rcases s.offer_cases x y k add with h | ⟨t, a, hx, hy, h⟩
  · exact h ▸ Move.refl s
  · rw [h]
    rcases hadd : add t a with ⟨t', e | u⟩
    · obtain rfl := hrefused t a t' e hadd
      have hback : (s.unbind y).Holds x (.draft t') :=
        holds_unbind_iff.mpr ⟨hy.ne hx (hk a t'), hx⟩
      show s.Move ((s.unbind y).bind x (.draft t'))
      rw [bind_of_holds hback]
      exact Move.discard (Workshop.Precedes.refl s.workshop) y
    · exact hok t a t' hx hy hadd

theorem addConstant_move (s : Session) (x y : String) :
    s.Move (s.perform (.addConstant x y)).1 :=
  offer_move (k := .constant) (fun _ _ => nofun) (fun _ _ _ _ => Transform.addConstant_of_error)
    fun _ _ _ hx hy h => Move.addConstant hx hy h

theorem addPort_move (s : Session) (x y : String) : s.Move (s.perform (.addPort x y)).1 :=
  offer_move (k := .port) (fun _ _ => nofun) (fun _ _ _ _ => Transform.addPortTo_of_error)
    fun _ _ _ hx hy h => Move.addPort hx hy h

theorem addPortTo_move (s : Session) (d : Direction) (x y : String) :
    s.Move (s.perform (.addPortTo d x y)).1 :=
  offer_move (k := .port) (fun _ _ => nofun) (fun _ _ _ _ => Transform.addPortTo_of_error)
    fun _ _ _ hx hy h => Move.addPort hx hy h

theorem createPort_move (s : Session) (x name : String) (type : PortType) (d : Direction) :
    s.Move (s.perform (.createPort x name type d)).1 := by
  refine inWorkshop_bind_elim (P := fun r => s.Move r.1) (fun w e h => ?_) fun w p h => ?_
  · obtain ⟨-, rfl⟩ := Workshop.createPort_eq_error.mp h
    exact Move.refl s
  · obtain ⟨n, hp, rfl⟩ := Workshop.createPort_eq_ok.mp h
    exact Move.create (.port hp) x

theorem createConstant_move (s : Session) (x name : String) (v : Option ValueSpec) :
    s.Move (s.perform (.createConstant x name v)).1 := by
  refine Move.read_bind fun v _ => ?_
  refine inWorkshop_bind_elim (P := fun r => s.Move r.1) (fun w e h => ?_) fun w c h => ?_
  · obtain ⟨-, rfl⟩ := Workshop.createConstant_eq_error.mp h
    exact Move.refl s
  · obtain ⟨store, hc, rfl⟩ := Workshop.createConstant_eq_ok.mp h
    exact Move.create (.constant hc) x

theorem withStore_move (s : Session) (store : Store) : s.Move (s.withStore store) :=
  Move.stay ⟨Nat.le_refl _, Nat.le_refl _⟩

theorem setConstant_move (s : Session) (r : ConstantRef) (v : ValueSpec) :
    s.Move (s.perform (.setConstant r v)).1 := by
  refine Move.read_bind fun v _ => Move.read_bind fun c _ => ?_
  exact withStore_move s _

theorem copyValue_move (s : Session) (giver receiver : ConstantRef) :
    s.Move (s.perform (.copyValue giver receiver)).1 := by
  refine Move.read_bind fun c _ => Move.read_bind fun v _ => Move.read_bind fun d _ => ?_
  exact withStore_move s _

theorem resolveConstant_move (s : Session) (r : ConstantRef) (records : List Profile) :
    s.Move (s.perform (.resolveConstant r records)).1 := by
  refine Move.read_bind fun c _ => ?_
  refine inWorkshop_bind_elim (P := fun r => s.Move r.1) (fun w e h => ?_) fun w text h => ?_
  · obtain rfl := congrArg Prod.fst h
    exact withStore_move s _
  · obtain rfl := congrArg Prod.fst h
    exact withStore_move s _

theorem createTransform_move (s : Session) (x : String) (spec : PlanSpec) :
    s.Move (s.perform (.createTransform x spec)).1 := by
  have hw := s.workshop.make_precedes (s.plan spec)
  rcases s.createTransform_cases x spec with ⟨w, e, hmake, h⟩ | ⟨w, t, hmake, ⟨-, h⟩ | ⟨-, h⟩⟩
  · -- a plan that fails halfway has used up identities all the same
    rw [hmake] at hw
    exact h ▸ Move.stay hw
  · exact h ▸ Move.create (.draft hmake) x
  · rw [hmake] at hw
    exact h ▸ Move.stay ⟨hw.nextPort, Nat.le_refl _⟩

theorem markMemory_move (s : Session) (x : String) (reads writes : Bool) :
    s.Move (s.perform (.markMemory x reads writes)).1 :=
  Move.read_bind fun _ ht => Move.mark (lookUp_eq_ok.mp ht) reads writes

theorem connect_move (s : Session) (x : String) (a b : EndpointRef) (label : Option String) :
    s.Move (s.perform (.connect x a b label)).1 := by
  refine Move.read_bind fun a ha => Move.read_bind fun b hb => Move.read_bind fun e he => ?_
  have hjoins : e.Joins s.HasPort := by
    refine (joins_of_connect (orRefuse_eq_ok.mp he)).mono fun p hp => ?_
    rcases hp with hp | hp
    · exact hasPort_of_endpoint ha hp
    · exact hasPort_of_endpoint hb hp
  cases label with
  | none => exact Move.bindEdge (.edge hjoins) x
  | some l => exact Move.bindEdge (.edge (e := e.named l) hjoins) x

theorem joinPorts_move (s : Session) (x : String) (a b : PortRef) :
    s.Move (s.perform (.joinPorts x a b)).1 := by
  refine Move.read_bind fun a ha => Move.read_bind fun b hb => Move.read_bind fun e he => ?_
  exact Move.bindEdge (.edge (Edge.joins_of_between (hasPort_of_port ha) (hasPort_of_port hb)
    (orRefuse_eq_ok.mp he))) x

theorem relabel_move (s : Session) (x edge label : String) :
    s.Move (s.perform (.relabel x edge label)).1 :=
  Move.read_bind fun _ he => Move.bindEdge (.relabel (lookUp_eq_ok.mp he) label) x

theorem buildDesign_move (s : Session) (x name : String) :
    s.Move (s.perform (.buildDesign x name)).1 := by
  show s.Move (Work.buildDesign x name s).1
  unfold Work.buildDesign
  cases Design.find? name with
  | none => exact Move.refl s
  | some d =>
    refine inWorkshop_bind_elim (P := fun r => s.Move r.1) (fun w e h => ?_) fun w g h => ?_
    · have hw := d.precedes_build s.workshop
      rw [h] at hw
      exact Move.stay hw
    · exact Move.create (.design h) x

theorem findTransform_move (s : Session) (x : String) {find : Graph → Option Transform}
    (hfind : ∀ g t, find g = some t → t ∈ g.transforms) (target : Option String) :
    s.Move (Work.findTransform x find target s).1 :=
  Move.read_bind fun g hg => Move.maybeTransform (lookUp_eq_ok.mp hg) (hfind g) target

theorem findOwner_move (s : Session) (x : String) (r : PortRef) (target : Option String) :
    s.Move (s.perform (.findOwner x r target)).1 := by
  refine Move.read_bind fun g hg => Move.read_bind fun p _ => Move.read_bind fun t ht => ?_
  refine Move.foundTransform (lookUp_eq_ok.mp hg) ?_ target
  have ht := orRefuse_eq_ok.mp ht
  unfold Graph.ownerOfPort at ht
  split at ht
  · rename_i u hu
    cases ht
    exact Graph.mem_transforms_of_owner? hu
  · cases ht

theorem findOwnerOfId_move (s : Session) (x : String) (id : Ident) (target : Option String) :
    s.Move (s.perform (.findOwnerOfId x id target)).1 := by
  refine Move.read_bind fun g hg => Move.read_bind fun t ht => ?_
  exact Move.foundTransform (lookUp_eq_ok.mp hg)
    (Graph.mem_transforms_of_owner? (Graph.ownerOfId_eq_ok_iff.mp (orRefuse_eq_ok.mp ht))) target

/-- **Every ordinary step is a move.** -/
theorem perform_move (s : Session) {st : Step} (h : st.isOrdinary = true) :
    s.Move (s.perform st).1 := by
  cases st with
  | createPort x name type d => exact createPort_move s x name type d
  | createConstant x name v => exact createConstant_move s x name v
  | setConstant r v => exact setConstant_move s r v
  | copyValue giver receiver => exact copyValue_move s giver receiver
  | resolveConstant r records => exact resolveConstant_move s r records
  | createTransform x spec => exact createTransform_move s x spec
  | markMemory x reads writes => exact markMemory_move s x reads writes
  | addConstant x y => exact addConstant_move s x y
  | addPort x y => exact addPort_move s x y
  | addPortTo d x y => exact addPortTo_move s d x y
  | connect x a b label => exact connect_move s x a b label
  | joinPorts x a b => exact joinPorts_move s x a b
  | relabel x e label => exact relabel_move s x e label
  | createGraph x name => exact Move.create (.graph _) x
  | buildDesign x name => exact buildDesign_move s x name
  | addTransform x y => exact addTransform_move s x y
  | addEdge x y => exact addEdge_move s x y
  | findTransform x name target =>
    exact findTransform_move s x (fun g t => Graph.mem_transforms_of_transform?) target
  | findTransformWithId x id target =>
    exact findTransform_move s x (fun g t => List.mem_of_getElem?) target
  | findOwner x r target => exact findOwner_move s x r target
  | findOwnerOfId x id target => exact findOwnerOfId_move s x id target
  | drop x => exact Move.discard (Workshop.Precedes.refl s.workshop) x
  | takeLog => exact Move.stay ⟨Nat.le_refl _, Nat.le_refl _⟩
  | forgeEdge | forceEdge | forceTransform | forceIndex => cases h
  -- all other steps only look
  | _ => exact Move.refl s

theorem Breach.workshop {s' : Session} (h : s.Breach s') : s'.workshop = s.workshop := by
  cases h <;> rfl

/-- Work that begins by looking something up breaks no rule when it is not there. -/
theorem breach_read_bind {α : Type} {r : Session → Except Obstacle α} {f : α → Work Reply}
    (h : ∀ a, r s = .ok a → s.Breach (f a s).1 ∨ (f a s).1 = s) :
    s.Breach ((Attempt.read r >>= f) s).1 ∨ ((Attempt.read r >>= f) s).1 = s :=
  Attempt.read_bind_elim (P := fun r => s.Breach r.1 ∨ r.1 = s) (fun _ _ => Or.inr rfl) h

/-- **Every other step breaks a rule, or does nothing.** -/
theorem perform_breach (s : Session) {st : Step} (h : st.isOrdinary = false) :
    s.Breach (s.perform st).1 ∨ (s.perform st).1 = s := by
  cases st with
  | forgeEdge x e => exact Or.inl (Breach.forgeEdge x e)
  | forceEdge x e =>
    refine breach_read_bind fun g hg => ?_
    exact Or.inl (Breach.forceEdge (lookUp_eq_ok.mp hg) e)
  | forceTransform x y =>
    refine breach_read_bind fun g hg => breach_read_bind fun t ht => ?_
    exact Or.inl (Breach.forceTransform (lookUp_eq_ok.mp hg) (transform_eq_ok.mp ht))
  | forceIndex x y slot =>
    refine breach_read_bind fun g hg => breach_read_bind fun t _ => ?_
    split
    · exact Or.inr rfl
    · exact Or.inl (Breach.forceIndex (lookUp_eq_ok.mp hg) _)
  | _ => cases h

end Perform

end Session

end Dataflow
