import Dataflow.Proofs.Graph.Growth
import Dataflow.Proofs.Session.Cells
import Dataflow.Proofs.Session.Refusal

/-!
# Constants as shared cells

What a step does to cells can be read off the step and the session before it (`Session.changes`): it
hands out cells for the constants that it makes, or it writes to the cell of one constant, set, given a
copied value, or set by a computation in the course of a resolution.  The list of all changes of a run
(`Session.changesAll`) is what the values of the constants have to agree with.

A constant can be reached in many ways (`ConstantPath`): in a variable, or by its name in a transform,
which is open, or a handle, or found in a graph in one way or another, or what a computation works on.
Whichever way it is, it is the same cell exactly if it is the same place, and its value is that of the
last write to it (`Session.constants_shared`).  This holds of every run, also of one that breaks the
rules of registration.
-/

namespace Dataflow

/-! ## Ways to a constant -/

/-- A way to a transform. -/
inductive TransformPath
  /-- A variable with the open transform or a handle to it. -/
  | held (x : String)
  /-- The transform of this name in the graph of a variable. -/
  | named (graph name : String)
  | withId (graph : String) (id : Ident)
  | ownerOf (graph : String) (port : PortRef)
  | ownerOfId (graph : String) (id : Ident)
  /-- The transform that the computation in a cell works on. -/
  | worksOn (c : Cell)

/-- A way to a constant. -/
inductive ConstantPath
  /-- A variable with a constant that belongs to no transform. -/
  | loose (x : String)
  /-- The constant of this name of a transform. -/
  | part (t : TransformPath) (name : String)

/-- What makes a constant the one that it is. -/
inductive Place
  | alone (x : String)
  /-- In the transform of this serial, under this name. -/
  | inside (serial : Nat) (name : String)
deriving DecidableEq

/-- The way that a reference stands for. -/
def ConstantRef.path : ConstantRef → ConstantPath
  | .loose x => .loose x
  | .named x name => .part (.held x) name

/-- The step gives a value to a constant that is there, or tries to. -/
def Step.writes : Step → Bool
  | .setConstant _ _ => true
  | .copyValue _ _ => true
  | .resolveConstant _ _ => true
  | _ => false

/-- The item has the constant, and this is its place. -/
inductive Item.At : Item → Place → Constant → Prop
  | loose (x : String) (c : Constant) : At (.loose x c) (.alone x) c
  | draft (x : String) {t : Transform} {name : String} {c : Constant}
      (h : t.constant name = .ok c) : At (.draft x t) (.inside t.serial name) c
  | fixed {t : Transform} {name : String} {c : Constant} (h : t.constant name = .ok c) :
      At (.fixed t) (.inside t.serial name) c

theorem Item.At.mem_cells {i : Item} {place : Place} {c : Constant} (h : i.At place c) :
    c.cell ∈ i.cells := by
  cases h with
  | loose x c => exact List.mem_singleton_self _
  | draft x h => exact Transform.mem_cells_of_mem (Transform.mem_constants_of_constant h).1
  | fixed h => exact Transform.mem_cells_of_mem (Transform.mem_constants_of_constant h).1

theorem Item.At.serial? {i : Item} {n : Nat} {name : String} {c : Constant}
    (h : i.At (.inside n name) c) : i.serial? = some n := by
  cases h <;> rfl

/-- At a place in an item there is one constant. -/
theorem Item.At.unique {i : Item} {n : Nat} {name : String} {c c' : Constant}
    (h : i.At (.inside n name) c) (h' : i.At (.inside n name) c') : c = c' := by
  cases h with
  | draft x hc =>
    cases h' with
    | draft x' hc' => exact Except.ok.inj (hc.symm.trans hc')
  | fixed hc =>
    cases h' with
    | fixed hc' => exact Except.ok.inj (hc.symm.trans hc')

/-- In one transform without shared cells, a cell has one name. -/
theorem Transform.name_eq_of_cell_eq {t : Transform} (ht : t.cells.Nodup) {name name' : String}
    {c c' : Constant} (h : t.constant name = .ok c) (h' : t.constant name' = .ok c')
    (heq : c.cell = c'.cell) : name = name' := by
  obtain ⟨hc, rfl⟩ := mem_constants_of_constant h
  obtain ⟨hc', rfl⟩ := mem_constants_of_constant h'
  rw [List.inj_on_of_nodup_map ht hc hc' heq]

namespace Session
open Attempt

/-- The transform that a way leads to. -/
def transformAt (s : Session) : TransformPath → Option Transform
  | .held x => (s.transform x).toOption
  | .named x name => (s.lookUp .graph x).toOption.bind fun g => g.transform? name
  | .withId x id => (s.lookUp .graph x).toOption.bind fun g => g.transformWithId? id
  | .ownerOf x r => (s.lookUp .graph x).toOption.bind fun g => (s.port r).toOption.bind fun p =>
    (g.ownerOfPort p).toOption
  | .ownerOfId x id => (s.lookUp .graph x).toOption.bind fun g => (g.ownerOfId id).toOption
  | .worksOn c => (s.store.valueAt? c).bind Value.owner?

/-- The constant that a way leads to. -/
def constantAt (s : Session) : ConstantPath → Option Constant
  | .loose x => (s.lookUp .constant x).toOption
  | .part t name => (s.transformAt t).bind fun t => (t.constant name).toOption

/-- The place that a way leads to. -/
def placeAt (s : Session) : ConstantPath → Option Place
  | .loose x => some (.alone x)
  | .part t name => (s.transformAt t).map fun t => .inside t.serial name

theorem toOption_eq_some {ε α : Type} {x : Except ε α} {a : α} :
    x.toOption = some a ↔ x = .ok a := by
  cases x <;> simp [Except.toOption]

section Paths
variable {s : Session}

/-- A transform that a way leads to is an item, open in a variable or fixed. -/
theorem has_of_transformAt {path : TransformPath} {t : Transform}
    (h : s.transformAt path = some t) : (∃ x, s.Has (.draft x t)) ∨ s.Has (.fixed t) := by
  have hgraph : ∀ {x : String} {f : Graph → Option Transform},
      (∀ g t, f g = some t → t ∈ g.transforms) →
        (s.lookUp .graph x).toOption.bind f = some t → s.Has (.fixed t) := by
    intro x f hf h
    obtain ⟨g, hg, h⟩ := Option.bind_eq_some_iff.mp h
    exact has_graph (lookUp_eq_ok.mp (toOption_eq_some.mp hg)) (hf g t h)
  cases path with
  | held x =>
    rcases transform_eq_ok.mp (toOption_eq_some.mp h) with hx | hx
    · exact Or.inl ⟨x, has_draft hx⟩
    · exact Or.inr (has_handle hx)
  | named x name => exact Or.inr (hgraph (fun g t => Graph.mem_transforms_of_transform?) h)
  | withId x id => exact Or.inr (hgraph (fun g t ht => List.mem_of_getElem? ht) h)
  | ownerOf x r =>
    refine Or.inr (hgraph (fun g t ht => ?_) h)
    obtain ⟨p, -, ht⟩ := Option.bind_eq_some_iff.mp ht
    exact Graph.mem_transforms_of_owner?
      (Graph.ownerOfPort_eq_ok_iff.mp (toOption_eq_some.mp ht))
  | ownerOfId x id =>
    exact Or.inr (hgraph (fun g t ht => Graph.mem_transforms_of_owner?
      (Graph.ownerOfId_eq_ok_iff.mp (toOption_eq_some.mp ht))) h)
  | worksOn c =>
    obtain ⟨v, hv, h⟩ := Option.bind_eq_some_iff.mp h
    exact Or.inr (has_mentioned ⟨c, v, hv, h⟩)

/-- **A constant that a way leads to is at a place in an item.** -/
theorem has_of_constantAt {path : ConstantPath} {c : Constant} (h : s.constantAt path = some c) :
    ∃ i place, s.Has i ∧ s.placeAt path = some place ∧ i.At place c := by
  cases path with
  | loose x =>
    have hx := lookUp_eq_ok.mp (toOption_eq_some.mp h)
    exact ⟨.loose x c, .alone x, has_constant hx, rfl, .loose x c⟩
  | part t name =>
    obtain ⟨t, ht, h⟩ := Option.bind_eq_some_iff.mp h
    have hplace : s.placeAt (.part _ name) = some (.inside t.serial name) :=
      Option.map_eq_some_iff.mpr ⟨t, ht, rfl⟩
    have hc := toOption_eq_some.mp h
    rcases has_of_transformAt ht with ⟨x, hx⟩ | hfixed
    · exact ⟨_, _, hx, hplace, .draft x hc⟩
    · exact ⟨_, _, hfixed, hplace, .fixed hc⟩

theorem constantAt_path {r : ConstantRef} {c : Constant} (h : s.constant r = .ok c) :
    s.constantAt r.path = some c := by
  cases r with
  | loose x => exact toOption_eq_some.mpr h
  | named x name =>
    obtain ⟨t, ht, h⟩ := bind_eq_ok.mp h
    exact Option.bind_eq_some_iff.mpr
      ⟨t, toOption_eq_some.mpr ht, toOption_eq_some.mpr (orRefuse_eq_ok.mp h)⟩

/-- Two loose constants in one variable are the same. -/
theorem eq_of_has_loose {x : String} {c c' : Constant} (h : s.Has (.loose x c))
    (h' : s.Has (.loose x c')) : c = c' := by
  have holds : ∀ {c}, s.Has (.loose x c) → s.Holds x (.constant c) := by
    rintro c (⟨y, o, ho, hi⟩ | ⟨t, heq, -⟩)
    · obtain rfl : y = x := var?_of_mem_items hi rfl
      cases o with
      | constant d =>
        cases List.mem_singleton.mp hi
        exact ho
      | draft | handle => cases List.mem_singleton.mp hi
      | graph g =>
        obtain ⟨t, -, heq⟩ := List.mem_map.mp hi
        cases heq
      | port | edge => cases hi
    · cases heq
  exact Object.constant.inj ((holds h).unique (holds h'))

section Places
variable {i i' : Item} {place place' : Place} {c c' : Constant} (hs : s.Separate) (hi : s.Has i)
  (hi' : s.Has i')
include hs hi hi'

/-- A cell is at one place. -/
theorem Separate.place_eq_of_cell_eq (hat : i.At place c) (hat' : i'.At place' c')
    (h : c.cell = c'.cell) : place = place' := by
  have hi'c : c.cell ∈ i'.cells := h ▸ hat'.mem_cells
  obtain rfl : i = i' := (hs.apart i i' hi hi').resolve_right fun hap =>
    hap.cells _ hat.mem_cells hi'c
  have hnodup := hs.nodup i hi
  cases hat with
  | loose x c =>
    cases hat' with
    | loose x' c' => rfl
  | draft x hc =>
    cases hat' with
    | draft x' hc' => rw [Transform.name_eq_of_cell_eq hnodup hc hc' h]
  | fixed hc =>
    cases hat' with
    | fixed hc' => rw [Transform.name_eq_of_cell_eq hnodup hc hc' h]

/-- At a place there is one constant. -/
theorem Separate.eq_of_place (hat : i.At place c) (hat' : i'.At place c') : c = c' := by
  cases place with
  | alone x =>
    cases hat
    cases hat'
    exact eq_of_has_loose hi hi'
  | inside n name =>
    -- one serial, one item
    obtain rfl : i = i' := (hs.apart i i' hi hi').resolve_right fun hap =>
      hap.serial n hat.serial? hat'.serial?
    exact hat.unique hat'

end Places

/-- **One cell is one place.** -/
theorem Separate.cell_eq_iff (hs : s.Separate) {path path' : ConstantPath} {c c' : Constant}
    (h : s.constantAt path = some c) (h' : s.constantAt path' = some c') :
    c.cell = c'.cell ↔ s.placeAt path = s.placeAt path' := by
  obtain ⟨i, place, hi, hplace, hat⟩ := has_of_constantAt h
  obtain ⟨i', place', hi', hplace', hat'⟩ := has_of_constantAt h'
  rw [hplace, hplace', Option.some.injEq]
  constructor
  · exact hs.place_eq_of_cell_eq hi hi' hat hat'
  · rintro rfl
    rw [hs.eq_of_place hi hi' hat hat']

end Paths

/-! ## What a step changes -/

/-- What a step does to cells. -/
def changes (s : Session) : Step → List Change
  | .createConstant _ name v =>
    match s.valueIfSome v, checkName name with
    | .ok v, .ok _ => Change.madeFrom s.store.next [v]
    | _, _ => []
  | .createTransform target spec =>
    match (s.perform (.createTransform target spec)).2 with
    | .done _ => Change.madeFrom s.store.next ((s.plan spec).constants.map (·.2))
    | _ => []
  | .buildDesign _ name =>
    match Design.find? name with
    | some d => Change.madeFrom s.store.next d.values
    | none => []
  | .setConstant r v =>
    match s.value v, s.constant r with
    | .ok v, .ok c => [.written c.cell v]
    | _, _ => []
  | .copyValue giver receiver =>
    match s.constant giver, s.constant receiver with
    | .ok c, .ok d =>
      match s.store.valueAt? c.cell with
      | some v => [.written d.cell v]
      | none => []
    | _, _ => []
  | .resolveConstant r records =>
    match s.constant r with
    | .ok c => s.store.rebindings c records
    | .error _ => []
  | _ => []

/-- What the steps of a run do to cells, in order. -/
def changesAll (s : Session) : List Step → List Change
  | [] => []
  | st :: rest => s.changes st ++ (s.perform st).1.changesAll rest

/-! ## Writing -/

/-- **The step writes to one constant**, at the end of some way, or it leaves the session alone. -/
def WritesOne (s : Session) (st : Step) (s' : Session) : Prop :=
  (s.changes st = [] ∧ s' = s) ∨
    ∃ path c v, s.constantAt path = some c ∧ s.changes st = [.written c.cell v] ∧
      s' = s.withStore (s.store.write c.cell v)

section Writes
variable {s s' : Session}

theorem WritesOne.becomes {st : Step} (h : s.WritesOne st s') (hs : s.Separate) :
    s.store.Becomes (s.changes st) s'.store := by
  rcases h with ⟨hchanges, rfl⟩ | ⟨path, c, v, hc, hchanges, rfl⟩
  · rw [hchanges]
    exact .nil _
  · obtain ⟨i, place, hi, -, hat⟩ := has_of_constantAt hc
    rw [hchanges]
    exact .written ((hs.below i hi).cells _ hat.mem_cells) (.nil _)

/-- A step that does not get beyond its lookups writes nothing. -/
theorem writesOne_read_bind {st : Step} {α : Type} {r : Session → Except Obstacle α}
    {f : α → Work Reply} (herror : ∀ e, r s = .error e → s.changes st = [])
    (hok : ∀ a, r s = .ok a → s.WritesOne st (f a s).1) :
    s.WritesOne st ((Attempt.read r >>= f) s).1 :=
  Attempt.read_bind_elim (P := fun done => s.WritesOne st done.1)
    (fun e he => Or.inl ⟨herror e he, rfl⟩) hok

theorem setConstant_writes (r : ConstantRef) (v : ValueSpec) :
    s.WritesOne (.setConstant r v) (s.perform (.setConstant r v)).1 := by
  refine writesOne_read_bind (fun f hw => ?_) fun w hw =>
    writesOne_read_bind (fun f hc => ?_) fun c hc => ?_
  · simp only [changes, hw]
  · simp only [changes, hw, hc]
  · exact Or.inr ⟨r.path, c, w, constantAt_path hc, by simp only [changes, hw, hc], rfl⟩

theorem orRefuse_eq_error {α : Type} {x : Except Error α} {f : Obstacle} :
    orRefuse x = .error f ↔ ∃ e, x = .error e ∧ f = .refused e := by
  cases x <;> simp [eq_comm]

theorem copyValue_writes (giver receiver : ConstantRef) :
    s.WritesOne (.copyValue giver receiver) (s.perform (.copyValue giver receiver)).1 := by
  refine writesOne_read_bind (fun f hc => ?_) fun c hc =>
    writesOne_read_bind (fun f hv => ?_) fun v hv =>
      writesOne_read_bind (fun f hd => ?_) fun d hd => ?_
  · simp only [changes, hc]
  · obtain ⟨e, hv, -⟩ := orRefuse_eq_error.mp hv
    cases hd : s.constant receiver with
    | ok d => simp only [changes, hc, hd, Store.value_eq_error hv]
    | error f => simp only [changes, hc, hd]
  · simp only [changes, hc, hd]
  · refine Or.inr ⟨receiver.path, d, v, constantAt_path hd, ?_, rfl⟩
    simp only [changes, hc, hd, Store.value_eq_ok.mp (orRefuse_eq_ok.mp hv)]

/-- The store after a step that resolves is the one that the resolution leaves, also when it refuses. -/
theorem fst_inWorkshop_resolve (c : Constant) (records : List Profile) {f : String → Work Reply}
    (hf : ∀ text s, (f text s).1 = s) :
    ((Work.inWorkshop (·.resolve c records) >>= f) s).1 =
      s.withStore (s.store.resolve c records).2 := by
  refine inWorkshop_bind_elim (P := fun done => done.1 = s.withStore (s.store.resolve c records).2)
    (fun w e h => ?_) fun w text h => ?_
  · obtain rfl := congrArg Prod.fst h
    rfl
  · obtain rfl := congrArg Prod.fst h
    exact hf text _

theorem resolveConstant_writes (hs : s.Separate) (r : ConstantRef) (records : List Profile) :
    s.WritesOne (.resolveConstant r records) (s.perform (.resolveConstant r records)).1 := by
  have hbound : ∀ t, s.store.Mentions t → ∀ c ∈ t.cells, c.index < s.store.next := fun t ht =>
    (hs.below _ (has_mentioned ht)).cells
  refine writesOne_read_bind (fun f hc => ?_) fun c hc => ?_
  · simp only [changes, hc]
  · have hbecomes := Store.resolve_becomes c records hbound
    have hchanges : s.changes (.resolveConstant r records) = s.store.rebindings c records := by
      simp only [changes, hc]
    rw [fst_inWorkshop_resolve c records fun _ _ => rfl]
    unfold WritesOne
    rw [hchanges]
    rcases s.store.rebindingsWithin_cases (s.store.chainLimit records) c records with
      hnil | ⟨cell, v, owner, name, d, text, hv, howner, hd, heq⟩
    · have hnil : s.store.rebindings c records = [] := hnil
      rw [hnil] at hbecomes ⊢
      rw [hbecomes.eq_of_nil]
      exact Or.inl ⟨rfl, rfl⟩
    · have heq : s.store.rebindings c records = [.written d.cell (.literal text)] := heq
      rw [heq] at hbecomes ⊢
      rw [hbecomes.eq_of_written]
      -- the constant that is set belongs to the transform that the computation works on
      refine Or.inr ⟨.part (.worksOn cell) name, d, .literal text, ?_, rfl, rfl⟩
      exact Option.bind_eq_some_iff.mpr ⟨owner, Option.bind_eq_some_iff.mpr ⟨v, hv, howner⟩,
        toOption_eq_some.mpr hd⟩

theorem Separate.writesOne (hs : s.Separate) {st : Step} (h : st.writes = true) :
    s.WritesOne st (s.perform st).1 := by
  cases st with
  | setConstant r v => exact setConstant_writes r v
  | copyValue giver receiver => exact copyValue_writes giver receiver
  | resolveConstant r records => exact resolveConstant_writes hs r records
  | _ => cases h

end Writes

/-! ## What happens to the store -/

section Perform
variable {s : Session}

/-! Most work leaves the values of the constants alone, from whatever session it begins. -/

theorem keepsStore_inWorkshop {α : Type} {work : Workshop → Workshop × Except Error α}
    (h : ∀ w, (work w).1.store = w.store) :
    (Work.inWorkshop work).Keeps Session.store := fun s => h s.workshop

theorem keepsStore_inGraph {x : String} {g : Graph}
    {work : Workshop → Graph → (Workshop × Graph) × Except Error Unit}
    (h : ∀ w, (work w g).1.1.store = w.store) :
    (Work.inGraph x g work).Keeps Session.store := fun s => h s.workshop

theorem keepsStore_foundTransform (target : Option String) (t : Transform) :
    (Work.foundTransform target t).Keeps Session.store := fun _ => by
  cases target <;> rfl

theorem keepsStore_maybeTransform (target : Option String) (t : Option Transform) :
    (Work.maybeTransform target t).Keeps Session.store := by
  cases t with
  | none => exact keeps_pure _
  | some t => exact keepsStore_foundTransform target t

theorem keepsStore_findTransform (x : String) (find : Graph → Option Transform)
    (target : Option String) : (Work.findTransform x find target).Keeps Session.store :=
  (keeps_read _).bind fun _ => keepsStore_maybeTransform target _

theorem keepsStore_offer {α : Type} (x y : String) (k : Object.Kind α)
    (add : Transform → α → Transform × Except Error Unit) :
    (Work.offer x y k add).Keeps Session.store :=
  (keeps_read _).bind fun _ => (keeps_read _).bind fun _ => .bind (fun _ => rfl) fun _ =>
    .bind (fun _ => rfl) fun _ => (keeps_read _).bind fun _ => keeps_pure _

theorem createConstant_becomes (x name : String) (v : Option ValueSpec) :
    s.store.Becomes (s.changes (.createConstant x name v))
      (s.perform (.createConstant x name v)).1.store := by
  let P := fun done : Session × Except Obstacle Reply =>
    s.store.Becomes (s.changes (.createConstant x name v)) done.1.store
  refine read_bind_elim (P := P) (fun f hv => ?_) fun v hv => ?_
  · simp only [P, changes, hv]
    exact .nil _
  · refine inWorkshop_bind_elim (P := P) (fun w e h => ?_) fun w c h => ?_
    · obtain ⟨hname, rfl⟩ := Workshop.createConstant_eq_error.mp h
      simp only [P, changes, hv, hname]
      exact .nil _
    · obtain ⟨store, hc, rfl⟩ := Workshop.createConstant_eq_ok.mp h
      simp only [P, changes, hv, (Store.createConstant_eq_ok.mp hc).1]
      exact .createConstant hc

theorem createTransform_becomes (x : String) (spec : PlanSpec) :
    s.store.Becomes (s.changes (.createTransform x spec))
      (s.perform (.createTransform x spec)).1.store := by
  rcases s.createTransform_cases x spec with ⟨w, e, hmake, h⟩ | ⟨w, t, hmake, ⟨-, h⟩ | ⟨-, h⟩⟩
  · simp only [changes, h]
    rw [Workshop.make_eq_error hmake]
    exact .nil _
  · simp only [changes, h]
    exact (Workshop.make_fills hmake).store
  · simp only [changes, h]
    exact .nil _

theorem buildDesign_becomes (x name : String) :
    s.store.Becomes (s.changes (.buildDesign x name)) (s.perform (.buildDesign x name)).1.store := by
  cases hd : Design.find? name with
  | none =>
    simp only [changes, hd, perform_buildDesign_of_none hd]
    exact .nil _
  | some d =>
    obtain ⟨w, g, hbuild⟩ := Design.find?_build_ok hd s.workshop
    simp only [changes, hd, perform_buildDesign hd hbuild]
    exact (Design.build_items hbuild).2

theorem perform_becomes (hs : s.Separate) (st : Step) :
    s.store.Becomes (s.changes st) (s.perform st).1.store := by
  have keeps : ∀ work : Work Reply, work.Keeps Session.store → s.store.Becomes [] (work s).1.store :=
    fun work h => h s ▸ .nil _
  cases st with
  | createConstant x name v => exact createConstant_becomes x name v
  | setConstant r v => exact (setConstant_writes r v).becomes hs
  | copyValue giver receiver => exact (copyValue_writes giver receiver).becomes hs
  | resolveConstant r records => exact (resolveConstant_writes hs r records).becomes hs
  | createTransform x spec => exact createTransform_becomes x spec
  | buildDesign x name => exact buildDesign_becomes x name
  | createPort x name type d =>
    exact keeps _ ((keepsStore_inWorkshop fun _ => rfl).bind fun _ => fun _ => rfl)
  | markMemory x reads writes => exact keeps _ ((keeps_read _).bind fun _ => fun _ => rfl)
  | addConstant x y => exact keeps _ (keepsStore_offer x y .constant _)
  | addPort x y => exact keeps _ (keepsStore_offer x y .port _)
  | addPortTo d x y => exact keeps _ (keepsStore_offer x y .port _)
  | connect x a b label =>
    exact keeps _ ((keeps_read _).bind fun _ => (keeps_read _).bind fun _ => (keeps_read _).bind
      fun _ => fun _ => rfl)
  | joinPorts x a b =>
    exact keeps _ ((keeps_read _).bind fun _ => (keeps_read _).bind fun _ => (keeps_read _).bind
      fun _ => fun _ => rfl)
  | relabel x e label => exact keeps _ ((keeps_read _).bind fun _ => fun _ => rfl)
  | addTransform x y =>
    exact keeps _ ((keeps_read _).bind fun _ => (keeps_read _).bind fun _ => .bind (fun _ => rfl)
      fun _ => .bind (keepsStore_inGraph fun _ => rfl) fun _ => fun _ => rfl)
  | addEdge x y =>
    exact keeps _ ((keeps_read _).bind fun _ => (keeps_read _).bind fun _ =>
      (keepsStore_inGraph fun _ => rfl).bind fun _ => fun _ => rfl)
  | findTransform x name target => exact keeps _ (keepsStore_findTransform x _ target)
  | findTransformWithId x id target => exact keeps _ (keepsStore_findTransform x _ target)
  | findOwner x r target =>
    exact keeps _ ((keeps_read _).bind fun _ => (keeps_read _).bind fun _ => (keeps_read _).bind
      fun _ => keepsStore_foundTransform target _)
  | findOwnerOfId x id target =>
    exact keeps _ ((keeps_read _).bind fun _ => (keeps_read _).bind
      fun _ => keepsStore_foundTransform target _)
  | createGraph | drop | takeLog | forgeEdge => exact .nil _
  | forceEdge x e => exact keeps _ ((keeps_read _).bind fun _ => fun _ => rfl)
  | forceTransform x y =>
    exact keeps _ ((keeps_read _).bind fun _ => (keeps_read _).bind fun _ => fun _ => rfl)
  | forceIndex x y slot =>
    refine keeps _ ((keeps_read _).bind fun _ => (keeps_read _).bind fun _ => ?_)
    split
    · exact keeps_fail _
    · exact fun _ => rfl
  -- all other steps only look
  | _ => exact .nil _

/-! ## What comes in with a change -/

/-- A value works on a transform that a variable is a handle to. -/
theorem has_of_value {spec : ValueSpec} {v : Value} {t : Transform} (h : s.value spec = .ok v)
    (ht : v.owner? = some t) : s.Has (.fixed t) := by
  have hhandle : ∀ x, s.lookUp .handle x = .ok t → s.Has (.fixed t) := by
    intro x hx
    exact has_handle (lookUp_eq_ok.mp hx)
  cases spec with
  | unknown => cases h
  | literal text =>
    cases h
    cases ht
  | measure m =>
    cases h
    cases ht
  | rebind owner constant text =>
    obtain ⟨u, hu, h⟩ := bind_eq_ok.mp h
    cases h
    cases ht
    exact hhandle owner hu
  | chain owner constant skip =>
    obtain ⟨u, hu, h⟩ := bind_eq_ok.mp h
    cases h
    cases ht
    exact hhandle owner hu

theorem has_of_valueIfSome {spec : Option ValueSpec} {v : Value} {t : Transform}
    (h : s.valueIfSome spec = .ok (some v)) (ht : v.owner? = some t) : s.Has (.fixed t) := by
  cases spec with
  | none => cases h
  | some spec =>
    obtain ⟨w, hw, h⟩ := bind_eq_ok.mp h
    cases h
    exact has_of_value hw ht

/-- The values of a plan are those that its specification means. -/
theorem has_of_mem_plannedConstants {specs : List (String × Option ValueSpec)} {v : Value}
    {t : Transform} (h : some v ∈ (s.plannedConstants specs).map (·.2)) (ht : v.owner? = some t) :
    s.Has (.fixed t) := by
  induction specs with
  | nil => cases h
  | cons spec rest ih =>
    obtain ⟨name, spec⟩ := spec
    rw [plannedConstants] at h
    split at h
    · rename_i w hw
      rcases List.mem_cons.mp h with heq | h
      · have heq : some v = w := heq
        exact has_of_valueIfSome (heq ▸ hw) ht
      · exact ih h
    · cases h

/-- A computation sets a constant to a literal, which works on nothing. -/
theorem owner?_of_mem_rebindings {store : Store} {c : Constant} {records : List Profile}
    {change : Change} (h : change ∈ store.rebindings c records) {v : Value}
    (hv : change.value? = some v) : v.owner? = none := by
  rcases store.rebindingsWithin_cases (store.chainLimit records) c records with
    hnil | ⟨_, _, _, _, d, text, -, -, -, heq⟩
  · rw [Store.rebindings, hnil] at h
    cases h
  · rw [Store.rebindings, heq] at h
    rw [List.mem_singleton.mp h] at hv
    obtain rfl : Value.literal text = v := Option.some.inj hv
    rfl

/-- **A value that comes in with a change works on a transform that the session has.** -/
theorem has_of_mem_changes {st : Step} {change : Change} (h : change ∈ s.changes st) {v : Value}
    (hv : change.value? = some v) {t : Transform} (ht : v.owner? = some t) :
    s.Has (.fixed t) := by
  cases st with
  | createConstant x name spec =>
    simp only [changes] at h
    split at h
    · rename_i w u hw hname
      have hw' := List.mem_singleton.mp (Change.value?_of_mem_madeFrom h)
      exact has_of_valueIfSome (hv ▸ hw' ▸ hw) ht
    · cases h
  | createTransform x spec =>
    simp only [changes] at h
    split at h
    · exact has_of_mem_plannedConstants (hv ▸ Change.value?_of_mem_madeFrom h) ht
    · cases h
  | buildDesign x name =>
    simp only [changes] at h
    split at h
    · rename_i d hd
      have hnone := Design.owner?_of_mem_values hd (hv ▸ Change.value?_of_mem_madeFrom h)
      rw [hnone] at ht
      cases ht
    · cases h
  | setConstant r spec =>
    simp only [changes] at h
    split at h
    · rename_i w c hw hc
      rw [List.mem_singleton.mp h] at hv
      obtain rfl : w = v := Option.some.inj hv
      exact has_of_value hw ht
    · cases h
  | copyValue giver receiver =>
    simp only [changes] at h
    split at h
    · split at h
      · rename_i c d hc hd w hw
        rw [List.mem_singleton.mp h] at hv
        obtain rfl : w = v := Option.some.inj hv
        exact has_mentioned ⟨_, w, hw, ht⟩
      · cases h
    · cases h
  | resolveConstant r records =>
    simp only [changes] at h
    split at h
    · rw [owner?_of_mem_rebindings h hv] at ht
      cases ht
    · cases h
  | _ => cases h

/-! ## Runs -/

/-- The workshop after a step goes on from the one before. -/
theorem perform_feeds (hs : s.Separate) (st : Step) : s.Feeds (s.perform st).1.workshop := by
  have hstore := perform_becomes hs st
  refine ⟨hstore.next_le, (perform_precedes s st).nextSerial, fun t ht => ?_⟩
  rcases hstore.mentions ht with ht | ⟨change, hmem, v, hv, hown⟩
  · exact has_mentioned ht
  · exact has_of_mem_changes hmem hv hown

/-- **Every step keeps items separate.** -/
theorem Separate.perform (hs : s.Separate) (st : Step) : (s.perform st).1.Separate := by
  have hw := perform_feeds hs st
  by_cases hst : st.isOrdinary = true
  · exact hs.move (perform_move s hst) hw
  · rcases perform_breach s (Bool.eq_false_iff.mpr hst) with hbreach | hsame
    · exact hs.breach hbreach hw
    · rw [hsame]
      exact hs

theorem Separate.run (hs : s.Separate) (steps : List Step) : (s.run steps).1.Separate :=
  run_invariant (fun _ st _ hs => hs.perform st) hs

/-- **The store after a run is what its changes have made of it.** -/
theorem run_becomes (hs : s.Separate) (steps : List Step) :
    s.store.Becomes (s.changesAll steps) (s.run steps).1.store := by
  induction steps generalizing s with
  | nil => exact .nil _
  | cons st rest ih =>
    rw [run_cons_fst]
    exact (perform_becomes hs st).append (ih (hs.perform st))

end Perform

/-- **Constants are cells that everybody shares**, and the last write counts. -/
structure SharesCells (s : Session) (changes : List Change) : Prop where
  /-- Whatever way leads to a constant, its value is that of the last write to it. -/
  latest : ∀ path c, s.constantAt path = some c →
    Change.Life changes c.cell (s.store.valueAt? c.cell)
  /-- Two ways lead to one cell exactly if they lead to one place. -/
  same : ∀ path path' c c', s.constantAt path = some c → s.constantAt path' = some c' →
    (c.cell = c'.cell ↔ s.placeAt path = s.placeAt path')
  /-- A step that writes does nothing, or it writes to one place, which other places do not show and
  which leaves everything but the values as it was. -/
  writes : ∀ st : Step, st.writes = true → (s.changes st = [] ∧ (s.perform st).1 = s) ∨
    ∃ path c v, s.constantAt path = some c ∧ s.changes st = [.written c.cell v] ∧
      (s.perform st).1 = s.withStore (s.store.write c.cell v) ∧
      ∀ path' c', s.constantAt path' = some c' → (s.perform st).1.store.valueAt? c'.cell =
        if s.placeAt path = s.placeAt path' then some v else s.store.valueAt? c'.cell

/-- **Constants behave as shared cells in which the last write counts**, in every run of steps. -/
theorem constants_shared (n : Nat) (steps : List Step) :
    ((start n).run steps).1.SharesCells ((start n).changesAll steps) := by
  have hs := (separate_start n).run steps
  have hstore := run_becomes (separate_start n) steps
  refine ⟨fun path c h => ?_, fun path path' c c' h h' => hs.cell_eq_iff h h', fun st hst => ?_⟩
  · obtain ⟨i, place, hi, -, hat⟩ := has_of_constantAt h
    exact hstore.life ((hs.below i hi).cells _ hat.mem_cells)
  · refine (hs.writesOne hst).imp id ?_
    rintro ⟨path, c, v, hc, hchanges, hperform⟩
    refine ⟨path, c, v, hc, hchanges, hperform, fun path' c' hc' => ?_⟩
    rw [hperform]
    show (Store.write _ c.cell v).valueAt? c'.cell = _
    rw [Store.valueAt?_write]
    simp only [hs.cell_eq_iff hc hc']

/-- A buffer whose depth, when it is resolved, sets its width, and a constant that has taken over the
width before. -/
def rebound : List Step :=
  [.createTransform "buffer"
    { name := "buffer", readsMemory := false, writesMemory := false, inputs := [], outputs := []
      constants := [("depth", none)] },
   .createConstant "width" "width" (some (.literal "8")),
   .addConstant "buffer" "width",
   .createGraph "graph" none,
   .addTransform "graph" "buffer",
   .createConstant "copy" "copy" none,
   .copyValue (.named "buffer" "width") (.loose "copy"),
   .setConstant (.named "buffer" "depth") (.rebind "buffer" "width" "32"),
   .resolveConstant (.named "buffer" "depth") [⟨1, 1, 1, 1, 1, 1⟩]]

/-- The width that is found in the graph is the one that was set last, and the copy is not. -/
theorem constants_shared_rebound :
    ((start 0).run rebound).1.constantAt (.part (.named "graph" "buffer") "width") =
        some ⟨"width", ⟨1⟩⟩ ∧
      ((start 0).run rebound).1.constantAt (.loose "copy") = some ⟨"copy", ⟨2⟩⟩ ∧
      Change.Life ((start 0).changesAll rebound) ⟨1⟩ (some (.literal "32")) ∧
      Change.Life ((start 0).changesAll rebound) ⟨2⟩ (some (.literal "8")) := by
  have hshared := constants_shared 0 rebound
  exact ⟨rfl, rfl, hshared.latest (.part (.named "graph" "buffer") "width") _ rfl,
    hshared.latest (.loose "copy") _ rfl⟩

end Session

end Dataflow
