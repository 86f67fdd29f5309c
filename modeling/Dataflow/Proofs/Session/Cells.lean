import Dataflow.Proofs.Graph.Construction
import Dataflow.Proofs.Session.Move
import Dataflow.Proofs.Store.Changes

/-!
# Which cells belong to what

A cell belongs to a constant, and the constant is loose in a variable or is a part of a transform.  As
long as the transform is open it is in one variable.  Once it is registered there is no telling how many
handles lead to it: variables, graphs, and values of constants that work on it.  `Item` is what all of
these come to: a loose constant, an open transform, or a fixed one.

In every session that steps lead to, the items are **separate** (`Session.Separate`).  Two of them are
either the same or have neither a cell nor a serial in common, so a serial stands for one list of
constants, and a cell for one constant.  Every move keeps this (`Session.Separate.move`), and breaking
the rules of registration does not break it (`Session.Separate.breach`).
-/

namespace Dataflow

/-! ## Items -/

/-- What has cells. -/
inductive Item
  /-- A constant that belongs to nothing yet, in its variable. -/
  | loose (x : String) (c : Constant)
  /-- An open transform, in its variable. -/
  | draft (x : String) (t : Transform)
  /-- A transform that does not change any more, wherever it is. -/
  | fixed (t : Transform)

namespace Item

/-- The cells of the item. -/
def cells : Item → List Cell
  | loose _ c => [c.cell]
  | draft _ t => t.cells
  | fixed t => t.cells

/-- The serial of the item, if it is a transform. -/
def serial? : Item → Option Nat
  | loose _ _ => none
  | draft _ t => some t.serial
  | fixed t => some t.serial

/-- The variable without which the item is gone. -/
def var? : Item → Option String
  | loose x _ => some x
  | draft x _ => some x
  | fixed _ => none

/-- **Nothing in common**: neither a cell nor the serial. -/
structure Apart (i j : Item) : Prop where
  cells : ∀ c ∈ i.cells, c ∉ j.cells
  serial : ∀ n, i.serial? = some n → j.serial? ≠ some n

/-- The numbers of the item have been handed out. -/
structure Below (i : Item) (w : Workshop) : Prop where
  cells : ∀ c ∈ i.cells, c.index < w.store.next
  serial : ∀ n, i.serial? = some n → n < w.nextSerial

/-- The numbers of the item had not been handed out at this moment. -/
structure From (i : Item) (w : Workshop) : Prop where
  cells : ∀ c ∈ i.cells, w.store.next ≤ c.index
  serial : ∀ n, i.serial? = some n → w.nextSerial ≤ n

section Apart
variable {i j : Item} {w w' : Workshop}

theorem Apart.symm (h : i.Apart j) : j.Apart i :=
  ⟨fun c hj hi => h.cells c hi hj, fun n hj hi => h.serial n hi hj⟩

theorem Below.mono (h : i.Below w) (hnext : w.store.next ≤ w'.store.next)
    (hserial : w.nextSerial ≤ w'.nextSerial) : i.Below w' where
  cells c hc := Nat.lt_of_lt_of_le (h.cells c hc) hnext
  serial n hn := Nat.lt_of_lt_of_le (h.serial n hn) hserial

theorem From.mono (h : i.From w') (hnext : w.store.next ≤ w'.store.next)
    (hserial : w.nextSerial ≤ w'.nextSerial) : i.From w where
  cells c hc := Nat.le_trans hnext (h.cells c hc)
  serial n hn := Nat.le_trans hserial (h.serial n hn)

/-- What is new has nothing in common with what is there. -/
theorem From.apart (h : i.From w) (h' : j.Below w) : i.Apart j := by
  constructor
  · intro c hi hj
    have hlo := h.cells c hi
    have hhi := h'.cells c hj
    omega
  · intro n hi hj
    have hlo := h.serial n hi
    have hhi := h'.serial n hj
    omega

end Apart

end Item

/-- The items that an object has when it is in this variable. -/
def Object.items (x : String) : Object → List Item
  | .constant c => [.loose x c]
  | .draft t => [.draft x t]
  | .handle t => [.fixed t]
  | .graph g => g.transforms.map Item.fixed
  | _ => []

/-! ## Items that are made -/

namespace Workshop

/-- A transform that has been made is a new item. -/
theorem make_item {w w' : Workshop} {plan : Plan} {t : Transform} (h : w.make plan = (w', .ok t)) :
    (Item.fixed t).From w ∧ (Item.fixed t).Below w' ∧ t.cells.Nodup := by
  have hmade := make_makes h
  have hfills := make_fills h
  have hserial := hmade.serial
  have hnext := hmade.nextSerial
  have hcell : ∀ c ∈ t.cells, w.store.next ≤ c.index ∧ c.index < w'.store.next := by
    intro c hc
    rw [hfills.cells] at hc
    obtain ⟨n, hn, rfl⟩ := List.mem_map.mp hc
    rw [List.mem_range'_1] at hn
    rw [hfills.next]
    exact hn
  refine ⟨⟨fun c hc => (hcell c hc).1, fun n hn => ?_⟩,
    ⟨fun c hc => (hcell c hc).2, fun n hn => ?_⟩, ?_⟩
  · have hn : t.serial = n := Option.some.inj hn
    omega
  · have hn : t.serial = n := Option.some.inj hn
    omega
  · rw [hfills.cells]
    exact List.Nodup.map (fun a b hab => Cell.mk.inj hab) List.nodup_range'

end Workshop

namespace Graph

/-- **The transforms of a graph, as items that were made between two moments.** -/
structure ItemsBetween (g : Graph) (w w' : Workshop) : Prop where
  new : ∀ t ∈ g.transforms, (Item.fixed t).From w
  below : ∀ t ∈ g.transforms, (Item.fixed t).Below w'
  nodup : ∀ t ∈ g.transforms, t.cells.Nodup
  apart : ∀ t ∈ g.transforms, ∀ u ∈ g.transforms, t = u ∨ (Item.fixed t).Apart (.fixed u)

theorem itemsBetween_empty (name : String) (w w' : Workshop) :
    (empty name).ItemsBetween w w' where
  new := by simp [empty]
  below := by simp [empty]
  nodup := by simp [empty]
  apart := by simp [empty]

/-- A transform that has just been made comes in as a stranger. -/
theorem ItemsBetween.appendTransform {g : Graph} {w₀ w w' : Workshop} {t : Transform} {plan : Plan}
    (hg : g.ItemsBetween w₀ w) (h : w.make plan = (w', .ok t))
    (hnext : w₀.store.next ≤ w.store.next) (hserial : w₀.nextSerial ≤ w.nextSerial) :
    (g.appendTransform t).ItemsBetween w₀ w' := by
  obtain ⟨hfrom, hbelow, hnodup⟩ := Workshop.make_item h
  have hstore := (Workshop.make_fills h).store.next_le
  have hserials := (Workshop.make_makes h).precedes.nextSerial
  have hold : ∀ u ∈ g.transforms, (Item.fixed t).Apart (.fixed u) := fun u hu =>
    hfrom.apart (hg.below u hu)
  refine ⟨?_, ?_, ?_, ?_⟩
  · exact List.forall_mem_append.mpr
      ⟨hg.new, List.forall_mem_singleton.mpr (hfrom.mono hnext hserial)⟩
  · exact List.forall_mem_append.mpr ⟨fun u hu => (hg.below u hu).mono hstore hserials,
      List.forall_mem_singleton.mpr hbelow⟩
  · exact List.forall_mem_append.mpr ⟨hg.nodup, List.forall_mem_singleton.mpr hnodup⟩
  · intro u hu v hv
    rcases List.mem_append.mp hu with hug | hut
    · rcases List.mem_append.mp hv with hvg | hvt
      · exact hg.apart u hug v hvg
      · rw [List.mem_singleton.mp hvt]
        exact Or.inr (hold u hug).symm
    · rw [List.mem_singleton.mp hut]
      rcases List.mem_append.mp hv with hvg | hvt
      · exact Or.inr (hold v hvg)
      · exact Or.inl (List.mem_singleton.mp hvt).symm

end Graph

namespace Workshop

/-- Planned transforms are made and registered one after another: each fills the next cells. -/
theorem addPlans_items {plans : List Plan} {w₀ w w' : Workshop} {g g' : Graph}
    (hg : g.ItemsBetween w₀ w) (hnext : w₀.store.next ≤ w.store.next)
    (hserial : w₀.nextSerial ≤ w.nextSerial) (h : w.addPlans plans g = (w', .ok g')) :
    g'.ItemsBetween w₀ w' ∧ w.store.Becomes
      (Change.madeFrom w.store.next (plans.flatMap fun plan => plan.constants.map (·.2)))
      w'.store := by
  induction plans generalizing w g with
  | nil =>
    cases h
    exact ⟨hg, .nil _⟩
  | cons plan rest ih =>
    rcases addPlans_cons_cases plan rest w g with ⟨w', e, heq, -⟩ | ⟨w₁, t, event, hmake, -, heq⟩
    · rw [heq] at h
      cases h
    · rw [heq] at h
      have hfills := make_fills hmake
      have hmade := (make_makes hmake).precedes
      have hg₁ := hg.appendTransform hmake hnext hserial
      obtain ⟨hg', hstore⟩ := ih (w := w₁.record event)
        ⟨hg₁.new, fun t ht => ⟨(hg₁.below t ht).cells, (hg₁.below t ht).serial⟩, hg₁.nodup,
          hg₁.apart⟩
        (Nat.le_trans hnext hfills.store.next_le) (Nat.le_trans hserial hmade.nextSerial) h
      refine ⟨hg', ?_⟩
      rw [List.flatMap_cons, Change.madeFrom_append, ← hfills.next]
      exact hfills.store.append hstore

end Workshop

namespace Design

/-- The initial values of the constants of a design, in the order in which they are made. -/
def values (d : Design) : List (Option Value) :=
  d.plans.flatMap fun plan => plan.constants.map (·.2)

theorem build_items {d : Design} {w w' : Workshop} {g : Graph} (h : d.build w = (w', .ok g)) :
    g.ItemsBetween w w' ∧ w.store.Becomes (Change.madeFrom w.store.next d.values) w'.store := by
  obtain ⟨w₁, g₁, hplans, hlinks⟩ := build_eq_ok h
  obtain ⟨hg₁, hstore⟩ := Workshop.addPlans_items (Graph.itemsBetween_empty d.name w w)
    (Nat.le_refl _) (Nat.le_refl _) hplans
  obtain ⟨hstore', hserial'⟩ := Workshop.addLinks_store hlinks
  have hts := (Workshop.addLinks_spec hlinks).1
  refine ⟨⟨hts ▸ hg₁.new, ?_, hts ▸ hg₁.nodup, hts ▸ hg₁.apart⟩, hstore' ▸ hstore⟩
  intro t ht
  rw [hts] at ht
  exact (hg₁.below t ht).mono (Nat.le_of_eq (by rw [hstore']))
    (Nat.le_of_eq hserial'.symm)

/-- The built-in designs are about no transform that is there already. -/
theorem owner?_of_mem_values {name : String} {d : Design} (h : find? name = some d) {v : Value}
    (hv : some v ∈ d.values) : v.owner? = none := by
  have hall : ∀ d ∈ all, ∀ v ∈ d.values, v.bind Value.owner? = none := by decide
  exact hall d (List.mem_of_find?_eq_some h) _ hv

end Design

namespace Session

/-! ## The items of a session -/

/-- The item is in a variable, or the value of a constant leads to it. -/
def Has (s : Session) (i : Item) : Prop :=
  (∃ x o, s.Holds x o ∧ i ∈ o.items x) ∨ ∃ t, i = .fixed t ∧ s.store.Mentions t

/-- **Separate items.**  Their numbers have been handed out, no item has a cell twice, and two items
are the same or have nothing in common. -/
structure Separate (s : Session) : Prop where
  below : ∀ i, s.Has i → i.Below s.workshop
  nodup : ∀ i, s.Has i → i.cells.Nodup
  apart : ∀ i j, s.Has i → s.Has j → i = j ∨ i.Apart j

/-- The workshop has gone on from that of the session, and its values work on transforms that the
session has. -/
structure Feeds (s : Session) (w : Workshop) : Prop where
  next : s.store.next ≤ w.store.next
  serial : s.workshop.nextSerial ≤ w.nextSerial
  mentions : ∀ t, w.store.Mentions t → s.Has (.fixed t)

section Has
variable {s : Session} {x : String} {o : Object} {i : Item}

theorem has_of_holds (h : s.Holds x o) (hi : i ∈ o.items x) : s.Has i := Or.inl ⟨x, o, h, hi⟩

theorem has_constant {c : Constant} (h : s.Holds x (.constant c)) : s.Has (.loose x c) :=
  has_of_holds h (List.mem_singleton_self _)

theorem has_draft {t : Transform} (h : s.Holds x (.draft t)) : s.Has (.draft x t) :=
  has_of_holds h (List.mem_singleton_self _)

theorem has_handle {t : Transform} (h : s.Holds x (.handle t)) : s.Has (.fixed t) :=
  has_of_holds h (List.mem_singleton_self _)

theorem has_graph {g : Graph} (h : s.Holds x (.graph g)) {t : Transform} (ht : t ∈ g.transforms) :
    s.Has (.fixed t) := has_of_holds h (List.mem_map.mpr ⟨t, ht, rfl⟩)

theorem has_mentioned {t : Transform} (h : s.store.Mentions t) : s.Has (.fixed t) :=
  Or.inr ⟨t, rfl, h⟩

/-- An item that hangs on one variable is in it. -/
theorem var?_of_mem_items {y : String} (hi : i ∈ o.items y) (hx : i.var? = some x) : y = x := by
  cases o with
  | constant c =>
    rw [List.mem_singleton.mp hi] at hx
    exact Option.some.inj hx
  | draft t =>
    rw [List.mem_singleton.mp hi] at hx
    exact Option.some.inj hx
  | handle t =>
    rw [List.mem_singleton.mp hi] at hx
    cases hx
  | graph g =>
    obtain ⟨t, -, rfl⟩ := List.mem_map.mp hi
    cases hx
  | port | edge => cases hi

theorem has_bind (h : (s.bind x o).Has i) : i ∈ o.items x ∨ (s.Has i ∧ i.var? ≠ some x) := by
  rcases h with ⟨y, o', ho, hi⟩ | ⟨t, rfl, ht⟩
  · rcases holds_bind_iff.mp ho with ⟨rfl, rfl⟩ | ⟨hne, ho⟩
    · exact Or.inl hi
    · exact Or.inr ⟨has_of_holds ho hi, fun hx => hne (var?_of_mem_items hi hx).symm⟩
  · exact Or.inr ⟨has_mentioned ht, fun hx => nomatch hx⟩

theorem has_unbind (h : (s.unbind x).Has i) : s.Has i ∧ i.var? ≠ some x := by
  rcases h with ⟨y, o, ho, hi⟩ | ⟨t, rfl, ht⟩
  · obtain ⟨hne, ho⟩ := holds_unbind_iff.mp ho
    exact ⟨has_of_holds ho hi, fun hx => hne (var?_of_mem_items hi hx).symm⟩
  · exact ⟨has_mentioned ht, fun hx => nomatch hx⟩

theorem Feeds.has {w : Workshop} (hw : s.Feeds w) (h : (s.withWorkshop w).Has i) : s.Has i := by
  rcases h with ⟨y, o, ho, hi⟩ | ⟨t, rfl, ht⟩
  · exact has_of_holds ho hi
  · exact hw.mentions t ht

theorem Feeds.has_bind {w : Workshop} (hw : s.Feeds w) (h : ((s.withWorkshop w).bind x o).Has i) :
    i ∈ o.items x ∨ s.Has i :=
  (Session.has_bind h).imp_right fun hi => hw.has hi.1

section Graphs
variable {g g' : Graph} {t : Transform} (hx : s.Holds x (.graph g))
include hx

/-- A graph with the same transforms has the same items. -/
theorem has_rebind_graph (h : (s.bind x (.graph g')).Has i) (hg : g'.transforms = g.transforms) :
    s.Has i := by
  rcases has_bind h with hi | ⟨hi, -⟩
  · obtain ⟨u, hu, rfl⟩ := List.mem_map.mp hi
    exact has_graph hx (hg ▸ hu)
  · exact hi

/-- A transform that comes into a graph, and whose variable becomes a handle, is fixed. -/
theorem has_append_graph {y : String} (h : ((s.bind x (.graph g')).bind y (.handle t)).Has i)
    (hg : g'.transforms = g.transforms ++ [t]) :
    i = .fixed t ∨ (s.Has i ∧ i.var? ≠ some y) := by
  rcases has_bind h with hi | ⟨hi, hvar⟩
  · exact Or.inl (List.mem_singleton.mp hi)
  · rcases has_bind hi with hi | ⟨hi, -⟩
    · obtain ⟨u, hu, rfl⟩ := List.mem_map.mp hi
      rw [hg] at hu
      rcases List.mem_append.mp hu with hold | hnew
      · exact Or.inr ⟨has_graph hx hold, hvar⟩
      · exact Or.inl (congrArg Item.fixed (List.mem_singleton.mp hnew))
    · exact Or.inr ⟨hi, hvar⟩

end Graphs

end Has

/-! ## Staying separate -/

namespace Separate
variable {s s' : Session} (hs : s.Separate)
include hs

/-- Items that come in have to be new to those that stay, and separate among themselves. -/
theorem extend (new : Item → Prop) (hw : s.Feeds s'.workshop)
    (hitems : ∀ i, s'.Has i → new i ∨ (s.Has i ∧ ∀ j, new j → j.Apart i))
    (hbelow : ∀ i, new i → i.Below s'.workshop) (hnodup : ∀ i, new i → i.cells.Nodup)
    (hnew : ∀ i j, new i → new j → i = j ∨ i.Apart j) : s'.Separate where
  below i hi := by
    rcases hitems i hi with hn | ⟨ho, -⟩
    · exact hbelow i hn
    · exact (hs.below i ho).mono hw.next hw.serial
  nodup i hi := by
    rcases hitems i hi with hn | ⟨ho, -⟩
    · exact hnodup i hn
    · exact hs.nodup i ho
  apart i j hi hj := by
    rcases hitems i hi with hni | ⟨hoi, hapi⟩
    · rcases hitems j hj with hnj | ⟨-, hapj⟩
      · exact hnew i j hni hnj
      · exact Or.inr (hapj i hni)
    · rcases hitems j hj with hnj | ⟨hoj, -⟩
      · exact Or.inr (hapi j hnj).symm
      · exact hs.apart i j hoi hoj

/-- Nothing comes in. -/
theorem subset (hw : s.Feeds s'.workshop) (hitems : ∀ i, s'.Has i → s.Has i) : s'.Separate :=
  hs.extend (fun _ => False) hw (fun i hi => Or.inr ⟨hitems i hi, fun _ h => h.elim⟩)
    (fun _ h => h.elim) (fun _ h => h.elim) fun _ _ h => h.elim

/-- **What comes in has just been made.** -/
theorem extend_new (new : Item → Prop) (hw : s.Feeds s'.workshop)
    (hitems : ∀ i, s'.Has i → new i ∨ s.Has i) (hfrom : ∀ i, new i → i.From s.workshop)
    (hbelow : ∀ i, new i → i.Below s'.workshop) (hnodup : ∀ i, new i → i.cells.Nodup)
    (hnew : ∀ i j, new i → new j → i = j ∨ i.Apart j) : s'.Separate := by
  refine hs.extend new hw (fun i hi => ?_) hbelow hnodup hnew
  exact (hitems i hi).imp id fun ho =>
    ⟨ho, fun j hj => (hfrom j hj).apart (hs.below i ho)⟩

/-- **What comes in is made of parts**, and the parts go. -/
theorem rebuild (k : Item) (parts : List Item) (hparts : ∀ p ∈ parts, s.Has p)
    (hw : s.Feeds s'.workshop) (hitems : ∀ i, s'.Has i → i = k ∨ (s.Has i ∧ i ∉ parts))
    (hcells : ∀ c ∈ k.cells, ∃ p ∈ parts, c ∈ p.cells)
    (hserial : ∀ n, k.serial? = some n → ∃ p ∈ parts, p.serial? = some n)
    (hnodup : k.cells.Nodup) : s'.Separate := by
  refine hs.extend (· = k) hw (fun i hi => ?_) ?_ ?_ ?_
  · refine (hitems i hi).imp id fun ⟨ho, hnot⟩ => ⟨ho, ?_⟩
    rintro j rfl
    -- an item that stays is none of the parts, so it is apart from each of them
    have hap : ∀ p ∈ parts, p.Apart i := by
      intro p hp
      rcases hs.apart p i (hparts p hp) ho with rfl | h
      · exact absurd hp hnot
      · exact h
    constructor
    · intro c hc
      obtain ⟨p, hp, hcp⟩ := hcells c hc
      exact (hap p hp).cells c hcp
    · intro n hn
      obtain ⟨p, hp, hnp⟩ := hserial n hn
      exact (hap p hp).serial n hnp
  · rintro i rfl
    have hbelow : ∀ p ∈ parts, p.Below s'.workshop := fun p hp =>
      (hs.below p (hparts p hp)).mono hw.next hw.serial
    constructor
    · intro c hc
      obtain ⟨p, hp, hcp⟩ := hcells c hc
      exact (hbelow p hp).cells c hcp
    · intro n hn
      obtain ⟨p, hp, hnp⟩ := hserial n hn
      exact (hbelow p hp).serial n hnp
  · rintro i rfl
    exact hnodup
  · rintro i j rfl rfl
    exact Or.inl rfl

section Creating
variable {w : Workshop} {o : Object} {x : String} (hw : s.Feeds w)
include hw

/-- An object without items in a variable. -/
theorem create_none (ho : o.items x = []) : ((s.withWorkshop w).bind x o).Separate := by
  refine hs.subset hw fun i hi => (hw.has_bind hi).resolve_left ?_
  rw [ho]
  exact List.not_mem_nil

/-- An object with a new item in a variable. -/
theorem create_sole {k : Item} (ho : o.items x = [k]) (hfrom : k.From s.workshop)
    (hbelow : k.Below w) (hnodup : k.cells.Nodup) : ((s.withWorkshop w).bind x o).Separate := by
  refine hs.extend_new (· = k) hw (fun i hi => ?_) ?_ ?_ ?_ ?_
  · exact (hw.has_bind hi).imp_left fun h => List.mem_singleton.mp (ho ▸ h)
  · rintro i rfl
    exact hfrom
  · rintro i rfl
    exact hbelow
  · rintro i rfl
    exact hnodup
  · rintro i j rfl rfl
    exact Or.inl rfl

/-- A graph in a variable, all of whose transforms are new. -/
theorem create_graph {g : Graph} (hg : g.ItemsBetween s.workshop w) :
    ((s.withWorkshop w).bind x (.graph g)).Separate := by
  refine hs.extend_new (fun i => ∃ t ∈ g.transforms, i = .fixed t) hw (fun i hi => ?_) ?_ ?_ ?_ ?_
  · refine (hw.has_bind hi).imp_left fun h => ?_
    obtain ⟨t, ht, rfl⟩ := List.mem_map.mp h
    exact ⟨t, ht, rfl⟩
  · rintro i ⟨t, ht, rfl⟩
    exact hg.new t ht
  · rintro i ⟨t, ht, rfl⟩
    exact hg.below t ht
  · rintro i ⟨t, ht, rfl⟩
    exact hg.nodup t ht
  · rintro i j ⟨t, ht, rfl⟩ ⟨u, hu, rfl⟩
    exact (hg.apart t ht u hu).imp_left (congrArg Item.fixed)

/-- A new object in a variable. -/
theorem create (h : s.Creates w o) (x : String) : ((s.withWorkshop w).bind x o).Separate := by
  cases h with
  | port | edge | relabel => exact hs.create_none hw rfl
  | graph name => exact hs.create_none hw rfl
  | @constant name v c store h =>
    obtain ⟨-, rfl, rfl⟩ := Store.createConstant_eq_ok.mp h
    refine hs.create_sole hw rfl ⟨?_, nofun⟩ ⟨?_, nofun⟩ (List.nodup_singleton _)
    · intro d hd
      rw [List.mem_singleton.mp hd]
      exact Nat.le_refl _
    · intro d hd
      rw [List.mem_singleton.mp hd]
      show s.store.next < (s.store.allocate v).2.next
      rw [Store.next_allocate]
      exact Nat.lt_succ_self _
  | @draft plan t w h =>
    obtain ⟨hfrom, hbelow, hnodup⟩ := Workshop.make_item h
    exact hs.create_sole hw rfl (k := .draft x t) ⟨hfrom.cells, hfrom.serial⟩
      ⟨hbelow.cells, hbelow.serial⟩ hnodup
  | design h => exact hs.create_graph hw (Design.build_items h).1
  | @handle y g t hy ht =>
    refine hs.subset hw fun i hi => ?_
    rcases hw.has_bind hi with hi | ho
    · rw [List.mem_singleton.mp hi]
      exact has_graph hy ht
    · exact ho

end Creating

/-- An open transform with the same cells takes the place of another one. -/
theorem regrow {x : String} {t : Transform} (t' : Transform) (hx : s.Holds x (.draft t))
    (hcells : t'.cells = t.cells) (hserial : t'.serial = t.serial) (hw : s.Feeds s'.workshop)
    (hitems : ∀ i, s'.Has i → i = .draft x t' ∨ (s.Has i ∧ i.var? ≠ some x)) : s'.Separate := by
  refine hs.rebuild (.draft x t') [.draft x t] (List.forall_mem_singleton.mpr (has_draft hx)) hw
    (fun i hi => ?_) ?_ ?_ ?_
  · refine (hitems i hi).imp id fun ⟨ho, hvar⟩ => ⟨ho, fun hmem => hvar ?_⟩
    rw [List.mem_singleton.mp hmem]
    rfl
  · intro c hc
    have hc : c ∈ t'.cells := hc
    rw [hcells] at hc
    exact ⟨_, List.mem_singleton_self _, hc⟩
  · intro n hn
    have hn : some t'.serial = some n := hn
    rw [hserial] at hn
    exact ⟨_, List.mem_singleton_self _, hn⟩
  · show t'.cells.Nodup
    rw [hcells]
    exact hs.nodup _ (has_draft hx)

/-- An open transform becomes fixed, and its variable does not hold it any more. -/
theorem fix {y : String} {t : Transform} (hy : s.Holds y (.draft t)) (hw : s.Feeds s'.workshop)
    (hitems : ∀ i, s'.Has i → i = .fixed t ∨ (s.Has i ∧ i.var? ≠ some y)) : s'.Separate := by
  refine hs.rebuild (.fixed t) [.draft y t] (List.forall_mem_singleton.mpr (has_draft hy)) hw
    (fun i hi => ?_) ?_ ?_ (hs.nodup (.draft y t) (has_draft hy))
  · refine (hitems i hi).imp id fun ⟨ho, hvar⟩ => ⟨ho, fun hmem => hvar ?_⟩
    rw [List.mem_singleton.mp hmem]
    rfl
  · intro c hc
    exact ⟨_, List.mem_singleton_self _, hc⟩
  · intro n hn
    exact ⟨_, List.mem_singleton_self _, hn⟩

/-- A loose constant becomes a part of an open transform. -/
theorem addConstant {x y : String} {t t' : Transform} {c : Constant} (hx : s.Holds x (.draft t))
    (hy : s.Holds y (.constant c)) (h : t.addConstant c = (t', .ok ())) (hw : s.Feeds s.workshop) :
    ((s.unbind y).bind x (.draft t')).Separate := by
  obtain ⟨-, rfl⟩ := Transform.addConstant_eq_ok.mp h
  have hcells : ∀ d, d ∈ Item.cells (.draft x { t with constants := t.constants ++ [c] }) ↔
      d ∈ t.cells ∨ d = c.cell := by
    intro d
    show d ∈ (t.constants ++ [c]).map (·.cell) ↔ _
    rw [List.map_append, List.mem_append, List.map_singleton, List.mem_singleton]
    rfl
  have hap : (Item.draft x t).Apart (.loose y c) :=
    (hs.apart _ _ (has_draft hx) (has_constant hy)).resolve_left nofun
  refine hs.rebuild (.draft x { t with constants := t.constants ++ [c] })
    [.draft x t, .loose y c] ?_ hw (fun i hi => ?_) ?_ ?_ ?_
  · exact List.forall_mem_cons.mpr
      ⟨has_draft hx, List.forall_mem_singleton.mpr (has_constant hy)⟩
  · rcases has_bind hi with hi | ⟨hi, hvarx⟩
    · exact Or.inl (List.mem_singleton.mp hi)
    · obtain ⟨ho, hvary⟩ := has_unbind hi
      refine Or.inr ⟨ho, fun hmem => ?_⟩
      rcases List.mem_cons.mp hmem with rfl | hmem
      · exact hvarx rfl
      · rw [List.mem_singleton.mp hmem] at hvary
        exact hvary rfl
  · intro d hd
    rcases (hcells d).mp hd with hd | rfl
    · exact ⟨.draft x t, List.mem_cons_self .., hd⟩
    · exact ⟨.loose y c, by simp, List.mem_singleton_self _⟩
  · intro n hn
    exact ⟨.draft x t, List.mem_cons_self .., hn⟩
  · show ((t.constants ++ [c]).map (·.cell)).Nodup
    rw [List.map_append]
    refine List.nodup_append.mpr ⟨hs.nodup _ (has_draft hx), List.nodup_singleton _, ?_⟩
    intro d hd d' hd' heq
    rw [List.map_singleton, List.mem_singleton] at hd'
    subst heq hd'
    exact hap.cells _ hd (List.mem_singleton_self _)

/-- **Every move keeps items separate**, when the workshop goes on from that of the session. -/
theorem move (h : s.Move s') (hw : s.Feeds s'.workshop) : s'.Separate := by
  cases h with
  | stay h => exact hs.subset hw fun i hi => hw.has hi
  | discard h x => exact hs.subset hw fun i hi => hw.has (has_unbind hi).1
  | create h x => exact hs.create hw h x
  | @mark x t hx reads writes =>
    exact hs.regrow (t.withMemory reads writes) hx rfl rfl hw fun i hi =>
      (has_bind hi).imp List.mem_singleton.mp id
  | addConstant hx hy h => exact hs.addConstant hx hy h hw
  | @addPort x y t t' p d hx hy h =>
    obtain ⟨-, -, rfl⟩ := Transform.addPortTo_eq_ok.mp h
    refine hs.regrow (t.appendPort p d) hx ?_ ?_ hw fun i hi => ?_
    · rw [Transform.cells, Transform.constants_appendPort]
      rfl
    · cases d <;> rfl
    · rcases has_bind hi with hi | ⟨hi, hvar⟩
      · exact Or.inl (List.mem_singleton.mp hi)
      · exact Or.inr ⟨(has_unbind hi).1, hvar⟩
  | @register x y g t w hx hy hw' h =>
    have hx' : ((s.withWorkshop w).unbind y).Holds x (.graph g) :=
      holds_unbind_iff.mpr ⟨hy.ne hx (fun h => by cases h), hx⟩
    exact hs.fix hy hw fun i hi =>
      (has_append_graph hx' hi rfl).imp_right fun hold => ⟨hw.has (has_unbind hold.1).1, hold.2⟩
  | @addEdge x y g e w hx hy hw' h =>
    have hx' : (s.withWorkshop w).Holds x (.graph g) := hx
    exact hs.subset hw fun i hi => hw.has (has_rebind_graph hx' hi rfl)

/-- **Broken rules keep items separate**: what is put into a graph unchecked is fixed from then
on. -/
theorem breach (h : s.Breach s') (hw : s.Feeds s'.workshop) : s'.Separate := by
  cases h with
  | forgeEdge x e =>
    refine hs.subset hw fun i hi => ?_
    rcases has_bind hi with hi | ⟨hi, -⟩
    · cases hi
    · exact hi
  | forceEdge hx => exact hs.subset hw fun i hi => has_rebind_graph hx hi rfl
  | forceIndex hx => exact hs.subset hw fun i hi => has_rebind_graph hx hi rfl
  | @forceTransform x y g t hx hy =>
    rcases hy with hy | hy
    · exact hs.fix hy hw fun i hi => has_append_graph hx hi rfl
    · refine hs.subset hw fun i hi => ?_
      rcases has_append_graph hx hi rfl with rfl | ⟨ho, -⟩
      · exact has_handle hy
      · exact ho

end Separate

theorem separate_start (n : Nat) : (start n).Separate := by
  have hnone : ∀ i, ¬ (start n).Has i := by
    rintro i (⟨x, o, ho, -⟩ | ⟨t, -, c, v, hv, -⟩)
    · cases ho
    · cases hv
  exact ⟨fun i hi => absurd hi (hnone i), fun i hi => absurd hi (hnone i),
    fun i _ hi => absurd hi (hnone i)⟩

end Session

end Dataflow
