import Dataflow.Proofs.Session.Ordinary

/-!
# Offers to an open transform

A transform is built by offering constants and ports to it, one after another.  Each of its three
lists takes what comes under a new name and refuses what comes under a name that it has; a port that
is offered to the list of the other direction is refused whatever its name.

So the fate of an item does not depend on how the offers to the three lists are mixed.  Of all the
items that are rightly offered to a list, the first of each name is kept, behind what was there
before (`Transform.FilledBy.takeAll`, `Transform.FilledBy.accepted`).  A session that offers what
its variables hold follows this to the letter (`Session.offers_keepFirsts`).
-/

namespace Dataflow

/-! ## The first of each name -/

section Firsts
variable {α : Type} (name : α → String)

/-- The items whose name is neither taken nor the name of an earlier item, in order. -/
def firsts (taken : List String) : List α → List α
  | [] => []
  | a :: rest =>
    if name a ∈ taken then firsts taken rest else a :: firsts (taken ++ [name a]) rest

/-- The names of the first part are taken when it is the turn of the second. -/
theorem firsts_append (taken : List String) (l l' : List α) :
    firsts name taken (l ++ l') =
      firsts name taken l ++ firsts name (taken ++ (firsts name taken l).map name) l' := by
  induction l generalizing taken with
  | nil => simp [firsts]
  | cons a rest ih =>
    rw [List.cons_append, firsts, firsts]
    split
    · exact ih taken
    · rw [ih, List.map_cons, List.cons_append, List.append_assoc, List.singleton_append]

end Firsts

example : firsts id ["a"] ["b", "a", "b", "c"] = ["b", "c"] := by decide

/-! ## Offers -/

/-- An item that is offered to an open transform. -/
inductive Offer
  | constant (c : Constant)
  /-- A port, for the list of its direction. -/
  | port (p : Port)
  /-- A port, for the list of the given direction. -/
  | portTo (d : Direction) (p : Port)

namespace Offer

/-- The constant, if the offer is one. -/
def constant? : Offer → Option Constant
  | constant c => some c
  | _ => none

/-- The port, if it is rightly offered to the list of this direction. -/
def port? (d : Direction) : Offer → Option Port
  | constant _ => none
  | port p => if p.direction = d then some p else none
  | portTo e p => if e = d ∧ p.direction = d then some p else none

/-- The item, as a variable holds it. -/
def object : Offer → Object
  | constant c => .constant c
  | port p => .port p
  | portTo _ p => .port p

/-- The step that offers what the variable `y` holds to the transform in the variable `x`. -/
def step (x y : String) : Offer → Step
  | constant _ => .addConstant x y
  | port _ => .addPort x y
  | portTo d _ => .addPortTo d x y

end Offer

namespace Transform

/-- The transform after an offer, and its answer. -/
def offer (t : Transform) : Offer → Transform × Except Error Unit
  | .constant c => t.addConstant c
  | .port p => t.addPort p
  | .portTo d p => t.addPortTo d p

/-- The transform after an offer, whatever the answer. -/
def take (t : Transform) (o : Offer) : Transform := (t.offer o).1

/-- The transform after offers one after another. -/
def takeAll (t : Transform) : List Offer → Transform
  | [] => t
  | o :: rest => (t.take o).takeAll rest

/-- The answers to offers one after another. -/
def answers (t : Transform) : List Offer → List (Except Error Unit)
  | [] => []
  | o :: rest => (t.offer o).2 :: (t.take o).answers rest

/-- The offers that are accepted, in order. -/
def accepted (t : Transform) : List Offer → List Offer
  | [] => []
  | o :: rest =>
    if (t.offer o).2.isOk then o :: (t.take o).accepted rest else (t.take o).accepted rest

section Single
variable {t : Transform} {d : Direction} {p : Port} {c : Constant}

theorem addConstant_of_new (h : c.name ∉ t.constants.map (·.name)) :
    t.addConstant c = ({ t with constants := t.constants ++ [c] }, .ok ()) :=
  addConstant_eq_ok.mpr ⟨h, rfl⟩

theorem addConstant_of_taken (h : c.name ∈ t.constants.map (·.name)) :
    t.addConstant c = (t, .error (.duplicateName c.name (.constants t.name))) := by
  obtain ⟨b, hb, hname⟩ := List.mem_map.mp h
  exact if_pos (List.any_eq_true.mpr ⟨b, hb, decide_eq_true hname⟩)

theorem addPortTo_of_misdirected (h : p.direction ≠ d) :
    t.addPortTo d p = (t, .error (.invalidName p.name (.misdirected d))) := if_pos h

theorem addPortTo_of_new (hd : p.direction = d) (h : p.name ∉ (t.portsOf d).map (·.name)) :
    t.addPortTo d p = (t.appendPort p d, .ok ()) :=
  addPortTo_eq_ok.mpr ⟨hd, h, rfl⟩

theorem addPortTo_of_taken (hd : p.direction = d) (h : p.name ∈ (t.portsOf d).map (·.name)) :
    t.addPortTo d p = (t, .error (.duplicateName p.name (.ports d t.name))) := by
  obtain ⟨q, hq, hname⟩ := List.mem_map.mp h
  unfold addPortTo
  rw [if_neg (not_not.mpr hd)]
  exact if_pos (List.any_eq_true.mpr ⟨q, hq, decide_eq_true hname⟩)

end Single

/-! ## What one offer does -/

section Take
variable {t t' : Transform} {o : Offer} {e : Error}

theorem take_of_ok (h : t.offer o = (t', .ok ())) : t.take o = t' := congrArg Prod.fst h

/-- **A refusal leaves the transform as it was.** -/
theorem take_of_error (h : (t.offer o).2 = .error e) : t.take o = t := by
  cases o with
  | constant c => exact addConstant_of_error (Prod.ext rfl h)
  | port p => exact addPortTo_of_error (Prod.ext rfl h)
  | portTo d p => exact addPortTo_of_error (Prod.ext rfl h)

theorem accepted_cons (t : Transform) (o : Offer) (rest : List Offer) :
    t.accepted (o :: rest) = t.accepted [o] ++ (t.take o).accepted rest := by
  rw [accepted, accepted]
  split <;> rfl

theorem accepted_of_ok (h : t.offer o = (t', .ok ())) : t.accepted [o] = [o] := by
  rw [accepted, h]
  rfl

theorem accepted_of_error (h : (t.offer o).2 = .error e) : t.accepted [o] = [] := by
  rw [accepted, h]
  rfl

end Take

/-! ## Lists and what is offered to them -/

section FilledBy
variable {α : Type} {items : Transform → List α} {item? : Offer → Option α} {name : α → String}

/-- **One of the lists of a transform, beside what is rightly offered to it.**  An accepted offer
adds its item, if it has one for this list, at the end and under a new name; a refused offer has
none, or one under a taken name. -/
def FilledBy (items : Transform → List α) (item? : Offer → Option α) (name : α → String) : Prop :=
  ∀ (t : Transform) (o : Offer),
    (∃ t', t.offer o = (t', .ok ()) ∧ items t' = items t ++ (item? o).toList ∧
      ∀ a, item? o = some a → name a ∉ (items t).map name) ∨
    ∃ e, (t.offer o).2 = .error e ∧ ∀ a, item? o = some a → name a ∈ (items t).map name

/-- A single item is the first of its name exactly if the name is new. -/
theorem firsts_toList (name : α → String) (taken : List String) (item : Option α) :
    ((∀ a, item = some a → name a ∉ taken) → firsts name taken item.toList = item.toList) ∧
      ((∀ a, item = some a → name a ∈ taken) → firsts name taken item.toList = []) := by
  cases item with
  | none => exact ⟨fun _ => rfl, fun _ => rfl⟩
  | some a => exact ⟨fun h => if_neg (h a rfl), fun h => if_pos (h a rfl)⟩

variable (h : FilledBy items item? name)
include h

theorem FilledBy.take (t : Transform) (o : Offer) :
    items (t.take o) = items t ++ (t.accepted [o]).filterMap item? ∧
      (t.accepted [o]).filterMap item? = firsts name ((items t).map name) (item? o).toList := by
  have single : [o].filterMap item? = (item? o).toList := by
    rw [List.filterMap_eq_flatMap_toList, List.flatMap_singleton]
  rcases h t o with ⟨t', hok, hitems, hnew⟩ | ⟨e, herror, htaken⟩
  · rw [take_of_ok hok, accepted_of_ok hok, single, (firsts_toList name _ _).1 hnew]
    exact ⟨hitems, rfl⟩
  · rw [take_of_error herror, accepted_of_error herror, (firsts_toList name _ _).2 htaken]
    exact ⟨(List.append_nil _).symm, rfl⟩

/-- **The list is what it was, and then what was accepted**, in the order of the offers. -/
theorem FilledBy.takeAll (t : Transform) (offers : List Offer) :
    items (t.takeAll offers) = items t ++ (t.accepted offers).filterMap item? := by
  induction offers generalizing t with
  | nil => exact (List.append_nil _).symm
  | cons o rest ih =>
    rw [Transform.takeAll, ih, (h.take t o).1, accepted_cons t o rest, List.filterMap_append,
      List.append_assoc]

/-- **What is accepted is the first item of each new name.** -/
theorem FilledBy.accepted (t : Transform) (offers : List Offer) :
    (t.accepted offers).filterMap item? =
      firsts name ((items t).map name) (offers.filterMap item?) := by
  induction offers generalizing t with
  | nil => rfl
  | cons o rest ih =>
    obtain ⟨htake, hfirst⟩ := h.take t o
    have hcons : (o :: rest).filterMap item? = (item? o).toList ++ rest.filterMap item? := by
      simp only [List.filterMap_eq_flatMap_toList, List.flatMap_cons]
    rw [accepted_cons t o rest, List.filterMap_append, ih, htake, List.map_append, hcons,
      firsts_append, ← hfirst]

end FilledBy

/-- **The constants** are filled by the constants that are offered. -/
theorem filledBy_constants : FilledBy (·.constants) Offer.constant? (·.name) := by
  intro t o
  -- a port leaves the constants alone, whether it is accepted or not
  have port : ∀ d p, t.addPortTo d p = t.offer o → o.constant? = none →
      (∃ t', t.offer o = (t', .ok ()) ∧ t'.constants = t.constants ++ o.constant?.toList ∧
        ∀ c, o.constant? = some c → c.name ∉ t.constants.map (·.name)) ∨
      ∃ e, (t.offer o).2 = .error e ∧
        ∀ c, o.constant? = some c → c.name ∈ t.constants.map (·.name) := by
    intro d p ho hnone
    rw [← ho, hnone]
    rcases hadd : t.addPortTo d p with ⟨t', e | u⟩
    · exact Or.inr ⟨e, rfl, fun _ h => nomatch h⟩
    · obtain ⟨-, -, rfl⟩ := addPortTo_eq_ok.mp hadd
      refine Or.inl ⟨_, rfl, ?_, fun _ h => nomatch h⟩
      rw [constants_appendPort]
      exact (List.append_nil _).symm
  cases o with
  | constant c =>
    by_cases hname : c.name ∈ t.constants.map (·.name)
    · refine Or.inr ⟨_, congrArg Prod.snd (addConstant_of_taken hname), fun b h => ?_⟩
      cases h
      exact hname
    · refine Or.inl ⟨_, addConstant_of_new hname, rfl, fun b h => ?_⟩
      cases h
      exact hname
  | port p => exact port p.direction p rfl rfl
  | portTo d p => exact port d p rfl rfl

/-- **The ports of a direction** are filled by the ports that are rightly offered to their list. -/
theorem filledBy_portsOf (e : Direction) :
    FilledBy (·.portsOf e) (Offer.port? e) (·.name) := by
  intro t o
  have port : ∀ d p, t.addPortTo d p = t.offer o →
      (o.port? e = if d = e ∧ p.direction = e then some p else none) →
      (∃ t', t.offer o = (t', .ok ()) ∧ t'.portsOf e = t.portsOf e ++ (o.port? e).toList ∧
        ∀ q, o.port? e = some q → q.name ∉ (t.portsOf e).map (·.name)) ∨
      ∃ f, (t.offer o).2 = .error f ∧
        ∀ q, o.port? e = some q → q.name ∈ (t.portsOf e).map (·.name) := by
    intro d p ho hport
    rw [← ho, hport]
    by_cases hd : p.direction = d
    · by_cases hname : p.name ∈ (t.portsOf d).map (·.name)
      · refine Or.inr ⟨_, congrArg Prod.snd (addPortTo_of_taken hd hname), fun q h => ?_⟩
        obtain ⟨⟨rfl, -⟩, hq⟩ := Option.ite_none_right_eq_some.mp h
        cases hq
        exact hname
      · refine Or.inl ⟨_, addPortTo_of_new hd hname, ?_, fun q h => ?_⟩
        · rw [portsOf_appendPort]
          by_cases he : e = d
          · simp [he, hd]
          · simp [he, Ne.symm he]
        · obtain ⟨⟨rfl, -⟩, hq⟩ := Option.ite_none_right_eq_some.mp h
          cases hq
          exact hname
    · -- such a port is rightly offered to no list
      refine Or.inr ⟨_, congrArg Prod.snd (addPortTo_of_misdirected hd), fun q h => ?_⟩
      obtain ⟨⟨rfl, hp⟩, -⟩ := Option.ite_none_right_eq_some.mp h
      exact absurd hp hd
  cases o with
  | constant c =>
    rcases hadd : t.addConstant c with ⟨t', f | u⟩
    · exact Or.inr ⟨f, congrArg Prod.snd hadd, fun _ h => nomatch h⟩
    · obtain ⟨-, rfl⟩ := addConstant_eq_ok.mp hadd
      refine Or.inl ⟨_, hadd, ?_, fun _ h => nomatch h⟩
      cases e <;> exact (List.append_nil _).symm
  | port p => exact port p.direction p rfl (by simp [Offer.port?])
  | portTo d p => exact port d p rfl rfl

/-! ## What is left of a sequence of offers -/

/-- **How an open transform answers an offer**, as its lists stand, and what it is afterwards.  A port
for the list of the other direction is refused before its name is looked at. -/
inductive Answers (t : Transform) : Offer → Transform × Except Error Unit → Prop
  | constantTaken {c : Constant} (h : c.name ∈ t.constants.map (·.name)) :
      Answers t (.constant c) (t, .error (.duplicateName c.name (.constants t.name)))
  | constantNew {c : Constant} (h : c.name ∉ t.constants.map (·.name)) :
      Answers t (.constant c) ({ t with constants := t.constants ++ [c] }, .ok ())
  | misdirected {d : Direction} {p : Port} (h : p.direction ≠ d) :
      Answers t (.portTo d p) (t, .error (.invalidName p.name (.misdirected d)))
  | portTaken {p : Port} (h : p.name ∈ (t.portsOf p.direction).map (·.name)) :
      Answers t (.portTo p.direction p)
        (t, .error (.duplicateName p.name (.ports p.direction t.name)))
  | portNew {p : Port} (h : p.name ∉ (t.portsOf p.direction).map (·.name)) :
      Answers t (.portTo p.direction p) (t.appendPort p p.direction, .ok ())
  /-- A port that is offered for no particular list is offered to the one of its direction. -/
  | port {p : Port} {answer : Transform × Except Error Unit}
      (h : Answers t (.portTo p.direction p) answer) : Answers t (.port p) answer

theorem answers_portTo (t : Transform) (d : Direction) (p : Port) :
    t.Answers (.portTo d p) (t.addPortTo d p) := by
  by_cases hd : p.direction = d
  · subst hd
    by_cases hname : p.name ∈ (t.portsOf p.direction).map (·.name)
    · rw [addPortTo_of_taken rfl hname]
      exact .portTaken hname
    · rw [addPortTo_of_new rfl hname]
      exact .portNew hname
  · rw [addPortTo_of_misdirected hd]
    exact .misdirected hd

theorem answers_offer (t : Transform) (o : Offer) : t.Answers o (t.offer o) := by
  cases o with
  | port p => exact .port (answers_portTo t p.direction p)
  | portTo d p => exact answers_portTo t d p
  | constant c =>
    show t.Answers (.constant c) (t.addConstant c)
    by_cases hname : c.name ∈ t.constants.map (·.name)
    · rw [addConstant_of_taken hname]
      exact .constantTaken hname
    · rw [addConstant_of_new hname]
      exact .constantNew hname

/-- **Of what is offered to a transform, the first item of each name is kept, in order.** -/
structure KeepsFirsts (t : Transform) (offers : List Offer) : Prop where
  /-- Each offer is answered as the lists stand when its turn comes. -/
  answers : ∀ before o, before ++ [o] <+: offers →
    (t.takeAll before).Answers o ((t.takeAll before).offer o)
  /-- A refusal leaves everything as it was. -/
  refused : ∀ before o e, before ++ [o] <+: offers → ((t.takeAll before).offer o).2 = .error e →
    t.takeAll (before ++ [o]) = t.takeAll before
  sublist : (t.accepted offers).Sublist offers
  constants : (t.takeAll offers).constants =
    t.constants ++ (t.accepted offers).filterMap Offer.constant?
  /-- Of the constants that are offered, the first of each new name is accepted. -/
  constants_first : (t.accepted offers).filterMap Offer.constant? =
    firsts (·.name) (t.constants.map (·.name)) (offers.filterMap Offer.constant?)
  ports : ∀ d, (t.takeAll offers).portsOf d =
    t.portsOf d ++ (t.accepted offers).filterMap (Offer.port? d)
  /-- The names of the other direction play no part. -/
  ports_first : ∀ d, (t.accepted offers).filterMap (Offer.port? d) =
    firsts (·.name) ((t.portsOf d).map (·.name)) (offers.filterMap (Offer.port? d))
  inOrder : t.InOrder → (t.takeAll offers).InOrder

theorem takeAll_append (t : Transform) (before after : List Offer) :
    t.takeAll (before ++ after) = (t.takeAll before).takeAll after := by
  induction before generalizing t with
  | nil => rfl
  | cons o rest ih => exact ih (t.take o)

theorem accepted_sublist (t : Transform) (offers : List Offer) :
    (t.accepted offers).Sublist offers := by
  induction offers generalizing t with
  | nil => exact List.Sublist.slnil
  | cons o rest ih =>
    rw [accepted]
    split
    · exact (ih (t.take o)).cons_cons o
    · exact (ih (t.take o)).cons o

theorem InOrder.take {t : Transform} (ht : t.InOrder) (o : Offer) : (t.take o).InOrder := by
  rcases h : t.offer o with ⟨t', e | u⟩
  · rw [take_of_error (congrArg Prod.snd h)]
    exact ht
  · rw [take_of_ok h]
    cases o with
    | constant c => exact ht.addConstant h
    | port p => exact ht.addPortTo h
    | portTo d p => exact ht.addPortTo h

theorem InOrder.takeAll {t : Transform} (ht : t.InOrder) (offers : List Offer) :
    (t.takeAll offers).InOrder := by
  induction offers generalizing t with
  | nil => exact ht
  | cons o rest ih => exact ih (ht.take o)

theorem keepsFirsts (t : Transform) (offers : List Offer) : t.KeepsFirsts offers where
  answers before o _ := answers_offer (t.takeAll before) o
  refused before o e _ h := by
    rw [takeAll_append]
    exact take_of_error h
  sublist := t.accepted_sublist offers
  constants := filledBy_constants.takeAll t offers
  constants_first := filledBy_constants.accepted t offers
  ports d := (filledBy_portsOf d).takeAll t offers
  ports_first d := (filledBy_portsOf d).accepted t offers
  inOrder ht := ht.takeAll offers

end Transform

/-! ## Offers in a session -/

namespace Session

/-- The variables hold the items that are offered, each its own. -/
structure Offered (s : Session) (vars : List String) (offers : List Offer) : Prop where
  holds : List.Forall₂ (fun y o => s.Holds y o.object) vars offers
  distinct : vars.Nodup

/-- The steps that offer what the variables hold to the transform in `x`, one after another. -/
def offerSteps (x : String) (vars : List String) (offers : List Offer) : List Step :=
  List.zipWith (fun y o => o.step x y) vars offers

/-- The end of a step that made an offer. -/
def offerOutcome : Except Error Unit → Outcome
  | .ok _ => .done .nothing
  | .error e => .refused e

section Offers
variable {s : Session} {x y : String} {t : Transform} {o : Offer}

/-- A step that offers an item takes it out of its variable, and the transform answers. -/
theorem perform_offer (hx : s.Holds x (.draft t)) (hy : s.Holds y o.object) :
    s.perform (o.step x y) =
      ((s.unbind y).bind x (.draft (t.take o)), offerOutcome (t.offer o).2) := by
  have hend : ∀ r : Except Error Unit,
      Outcome.of ((orRefuse r).map fun _ => .nothing) = offerOutcome r := by
    intro r
    cases r <;> rfl
  rw [← hend]
  cases o with
  | constant c => exact congrArg conclude (offer_of_holds (k := .constant) hx hy _)
  | port p => exact congrArg conclude (offer_of_holds (k := .port) hx hy _)
  | portTo d p => exact congrArg conclude (offer_of_holds (k := .port) hx hy _)

/-- **One offer**: the transform is as `take` says, also when it refuses, and no variable but the
one of the item has changed besides. -/
theorem perform_offer_spec (hx : s.Holds x (.draft t)) (hy : s.Holds y o.object) :
    (s.perform (o.step x y)).1.Holds x (.draft (t.take o)) ∧
      (s.perform (o.step x y)).2 = offerOutcome (t.offer o).2 ∧
      ∀ z o', z ≠ x → z ≠ y → s.Holds z o' → (s.perform (o.step x y)).1.Holds z o' := by
  rw [perform_offer hx hy]
  refine ⟨holds_bind_iff.mpr (Or.inl ⟨rfl, rfl⟩), rfl, fun z o' hzx hzy hz => ?_⟩
  exact holds_bind_iff.mpr (Or.inr ⟨hzx.symm, holds_unbind_iff.mpr ⟨hzy.symm, hz⟩⟩)

/-- **Offers one after another**: the session goes along with `takeAll` and gives its answers. -/
theorem run_offers {vars : List String} {offers : List Offer} (hx : s.Holds x (.draft t))
    (h : s.Offered vars offers) :
    (s.run (offerSteps x vars offers)).1.Holds x (.draft (t.takeAll offers)) ∧
      (s.run (offerSteps x vars offers)).2.map (·.outcome) =
        (t.answers offers).map offerOutcome := by
  obtain ⟨hholds, hdistinct⟩ := h
  induction offers generalizing s t vars with
  | nil =>
    cases hholds
    exact ⟨hx, rfl⟩
  | cons o rest ih =>
    obtain ⟨y, vars, hy, hrest, rfl⟩ := List.forall₂_cons_right_iff.mp hholds
    obtain ⟨hnew, hdistinct⟩ := List.nodup_cons.mp hdistinct
    obtain ⟨hx', houtcome, hframe⟩ := perform_offer_spec hx hy
    -- the other variables are not touched: none of them is `y`, and none holds a transform
    have hrest' : List.Forall₂ (fun z o' => (s.perform (o.step x y)).1.Holds z o'.object)
        vars rest := by
      obtain ⟨hlength, hpairs⟩ := List.forall₂_iff_zip.mp hrest
      refine List.forall₂_iff_zip.mpr ⟨hlength, fun {z o'} hmem => ?_⟩
      have hz := hpairs hmem
      have hzx : z ≠ x := hz.ne hx (by cases o' <;> nofun)
      have hzy : z ≠ y := fun h => hnew (h ▸ (List.of_mem_zip hmem).1)
      exact hframe z o'.object hzx hzy hz
    obtain ⟨hlast, houtcomes⟩ := ih hx' hrest' hdistinct
    exact ⟨hlast, congrArg₂ List.cons houtcome houtcomes⟩

end Offers

/-- **Building a transform keeps the first item of each name, in order**, whatever is offered to it
and in whatever order, and a session that offers what its variables hold does just this. -/
theorem offers_keepFirsts (t : Transform) (offers : List Offer) :
    t.KeepsFirsts offers ∧ ∀ (s : Session) (x : String) (vars : List String),
      s.Holds x (.draft t) → s.Offered vars offers →
        (s.run (offerSteps x vars offers)).1.Holds x (.draft (t.takeAll offers)) ∧
          (s.run (offerSteps x vars offers)).2.map (·.outcome) =
            (t.answers offers).map offerOutcome :=
  ⟨t.keepsFirsts offers, fun _ _ _ hx h => run_offers hx h⟩

/-- A run that makes a transform with an input, and four items that bear the name of the input. -/
def namesakes : List Step :=
  [.createTransform "mixer" ⟨"mix", false, false, [("rows", ⟨"Table"⟩)], [], []⟩,
   .createPort "out" "rows" ⟨"Table"⟩ .output,
   .createPort "in" "rows" ⟨"Table"⟩ .input,
   .createPort "late" "rows" ⟨"Table"⟩ .output,
   .createConstant "setting" "rows" none]

/-- The transform of that run. -/
def mixer : Transform :=
  ⟨0, "mix", [], [⟨Ident.ofCounter 0, "rows", ⟨"Table"⟩, .input⟩], [], false, false⟩

/-- The four items, as they are offered: to the list of outputs, to the list of inputs, by mistake
to the list of inputs too, and to the constants. -/
def namesakeOffers : List Offer :=
  [.portTo .output ⟨Ident.ofCounter 1, "rows", ⟨"Table"⟩, .output⟩,
   .port ⟨Ident.ofCounter 2, "rows", ⟨"Table"⟩, .input⟩,
   .portTo .input ⟨Ident.ofCounter 3, "rows", ⟨"Table"⟩, .output⟩,
   .constant ⟨"rows", ⟨0⟩⟩]

theorem offers_keepFirsts_namesakes : ∃ s : Session, s = ((start 0).run namesakes).1 ∧
    (mixer.takeAll namesakeOffers).InOrder ∧
    (mixer.takeAll namesakeOffers).inputs.length = 1 ∧
    (mixer.takeAll namesakeOffers).outputs.length = 1 ∧
    (mixer.takeAll namesakeOffers).constants.length = 1 ∧
    (s.run (offerSteps "mixer" ["out", "in", "late", "setting"] namesakeOffers)).1.Holds "mixer"
      (.draft (mixer.takeAll namesakeOffers)) ∧
    (s.run (offerSteps "mixer" ["out", "in", "late", "setting"] namesakeOffers)).2.map (·.outcome) =
      [.done .nothing, .refused (.duplicateName "rows" (.ports .input "mix")),
        .refused (.invalidName "rows" (.misdirected .input)), .done .nothing] := by
  have hmixer : mixer.InOrder :=
    ⟨List.nodup_nil, fun d => by cases d <;> decide, fun d => by cases d <;> decide⟩
  have hoffered : Offered ((start 0).run namesakes).1 ["out", "in", "late", "setting"]
      namesakeOffers :=
    ⟨.cons rfl (.cons rfl (.cons rfl (.cons rfl .nil))), by decide⟩
  obtain ⟨hkeeps, hrun⟩ := offers_keepFirsts mixer namesakeOffers
  obtain ⟨hlast, houtcomes⟩ := hrun ((start 0).run namesakes).1 "mixer" _ rfl hoffered
  exact ⟨_, rfl, hkeeps.inOrder hmixer, rfl, rfl, rfl, hlast, houtcomes⟩

end Session

end Dataflow
