import Dataflow.Proofs.Session.Graphs

/-!
# What a refused step leaves behind

A step that is refused has looked things up, checked them, and found one that is not as it should
be.  Nearly always this comes before the first change, and the session stays as it was, bindings,
counters, values and log included.  `Session.AfterRefusal` lists the exceptions: a part that was
offered to a transform is gone, the identities of the ports that a plan had made are used up, and a
refused registration is in the log.  There are no others, in any session whatsoever
(`Session.refused_atomic`).

Two steps work through values or structures of their own on the way to an answer.  A resolution that
ends with a refusal has not written to the store (`Store.snd_resolve_of_error`), and a design is
never refused.
-/

namespace Dataflow

/-! ## Resolutions -/

namespace Store
variable {s : Store} {c : Constant} {records : List Profile}

/-- A refusal comes before the computation starts, and a chain turns the refusal of what it reaches
into a text, so an answer that is a refusal comes with the store as it was. -/
theorem resolveWithin_of_error {steps : Nat} {e : Error} {s' : Store}
    (h : s.resolveWithin steps c records = some (.error e, s')) : s' = s := by
  unfold resolveWithin at h
  split at h
  · cases h
    rfl
  · cases h
  · split at h
    · cases h
      rfl
    · split at h
      · cases h
      · cases h
      · split at h
        · cases h
        · split at h
          · cases h
          · obtain ⟨r, -, hr⟩ := Option.map_eq_some_iff.mp h
            cases hr

theorem snd_resolve_of_error {e : Error} (h : (s.resolve c records).1 = .error e) :
    (s.resolve c records).2 = s := by
  unfold resolve at h ⊢
  cases hr : s.resolveWithin (s.chainLimit records) c records with
  | none => rfl
  | some r =>
    obtain ⟨answer, s'⟩ := r
    rw [hr] at h
    obtain rfl : answer = .error e := h
    exact resolveWithin_of_error hr

end Store

/-! ## Steps -/

namespace Session
open Attempt

/-- **What a refused step leaves behind**: the session afterwards, for each sort of step. -/
def AfterRefusal (s : Session) : Step → Session → Prop
  | .addConstant _ x, s' => (∃ c, s.Holds x (.constant c)) ∧ s' = s.unbind x
  | .addPort _ x, s' => (∃ p, s.Holds x (.port p)) ∧ s' = s.unbind x
  | .addPortTo _ _ x, s' => (∃ p, s.Holds x (.port p)) ∧ s' = s.unbind x
  | .createTransform _ spec, s' => s' = s.withWorkshop
      { s.workshop with nextPort := s.workshop.nextPort + (s.plan spec).portsMade }
  | .addTransform _ x, s' => (∃ t, s.Holds x (.draft t)) ∧ ∃ event : Event, event.level = .warn ∧
      s' = (s.withWorkshop (s.workshop.record event)).unbind x
  | .addEdge _ _, s' => ∃ event : Event, event.level = .warn ∧
      s' = s.withWorkshop (s.workshop.record event)
  | .resolveConstant r records, s' => s' = s ∧
      ∀ c, s.constant r = .ok c → (s.store.resolve c records).2 = s.store
  | .buildDesign _ _, _ => False
  | _, s' => s' = s

section Refused
variable {s : Session} {e : Error}

theorem of_eq_refused {r : Except Obstacle Reply} :
    Outcome.of r = .refused e ↔ r = .error (.refused e) := by
  rcases r with (_ | e') | reply <;> simp [Outcome.of]

/-! ### Work that leaves no trace when it fails -/

/-- Work in the workshop leaves no trace when it leaves none in the workshop. -/
theorem traceless_inWorkshop {α : Type} {work : Workshop → Workshop × Except Error α}
    (h : ∀ w e, work s.workshop = (w, .error e) → w = s.workshop) :
    (Work.inWorkshop work).Traceless s := by
  intro f hf
  rcases hwork : work s.workshop with ⟨w, e | a⟩
  · have hsame : s.withWorkshop w = s := congrArg s.withWorkshop (h w e hwork)
    rw [inWorkshop_of_error hwork, hsame]
  · rw [inWorkshop_of_ok hwork] at hf
    cases hf

theorem certain_showConstant (c : Constant) : (Work.showConstant c).Certain := fun _ => ⟨_, rfl⟩

theorem certain_bindEdge (x : String) (edge : Edge) : (Work.bindEdge x edge).Certain :=
  (certain_change _).bind fun _ => certain_pure _

theorem certain_bindGraph (x : String) (g : Graph) : (Work.bindGraph x g).Certain :=
  (certain_change _).bind fun _ => certain_pure _

theorem certain_replaceGraph (x : String) (g : Graph) : (Work.replaceGraph x g).Certain :=
  (certain_change _).bind fun _ => certain_pure _

theorem certain_foundTransform (target : Option String) (t : Transform) :
    (Work.foundTransform target t).Certain :=
  (certain_change _).bind fun _ => certain_pure _

theorem certain_maybeTransform (target : Option String) (t : Option Transform) :
    (Work.maybeTransform target t).Certain := by
  cases t with
  | none => exact certain_pure _
  | some t => exact certain_foundTransform target t

theorem traceless_resolve (c : Constant) (records : List Profile) :
    (Work.inWorkshop (·.resolve c records)).Traceless s := by
  refine traceless_inWorkshop fun w e h => ?_
  have hstore := Store.snd_resolve_of_error (congrArg Prod.snd h)
  obtain rfl := congrArg Prod.fst h
  show { s.workshop with store := (s.workshop.store.resolve c records).2 } = s.workshop
  rw [hstore]

theorem traceless_buildDesign (x name : String) : (Work.buildDesign x name).Traceless s := by
  unfold Work.buildDesign
  cases hd : Design.find? name with
  | none => exact (certain_pure _).traceless s
  | some d =>
    refine (traceless_inWorkshop fun w e h => ?_).bind fun g => certain_bindGraph x g
    -- a built-in design is never refused
    obtain ⟨w', g, hok⟩ := Design.find?_build_ok hd s.workshop
    cases hok.symm.trans h

end Refused

end Session

/-- The step writes something in front of its last check: it takes an object out of a variable, uses up
identities or leaves an event in the log. -/
def Step.writesEarly : Step → Bool
  | addConstant _ _ => true
  | addPort _ _ => true
  | addPortTo _ _ _ => true
  | createTransform _ _ => true
  | addTransform _ _ => true
  | addEdge _ _ => true
  | _ => false

namespace Session
open Attempt

section Refused
variable {s : Session} {e : Error}

/-- **All other steps write nothing before their last check.** -/
theorem traceless_carryOut (s : Session) {st : Step} (h : st.writesEarly = false) :
    (carryOut st).Traceless s := by
  cases st with
  | createPort x name type d =>
    exact (traceless_inWorkshop fun _ _ h => (Workshop.createPort_eq_error.mp h).2.symm).bind fun p =>
      (certain_change _).bind fun _ => certain_pure _
  | createConstant x name v =>
    exact .read_bind fun v _ =>
      (traceless_inWorkshop fun _ _ h => (Workshop.createConstant_eq_error.mp h).2.symm).bind fun c =>
        (certain_change _).bind fun _ => certain_showConstant c
  | setConstant r v =>
    exact .read_bind fun v _ => .read_bind fun c _ =>
      (Certain.bind (certain_change _) fun _ => certain_pure _).traceless s
  | copyValue giver receiver =>
    exact .read_bind fun c _ => .read_bind fun v _ => .read_bind fun d _ =>
      (Certain.bind (certain_change _) fun _ => certain_showConstant d).traceless s
  | resolveConstant r records =>
    exact .read_bind fun c _ => (traceless_resolve c records).bind fun _ => certain_pure _
  | markMemory x reads writes =>
    exact .read_bind fun t _ =>
      (Certain.bind (certain_change _) fun _ => certain_pure _).traceless s
  | connect x a b label =>
    exact .read_bind fun a _ => .read_bind fun b _ => .read_bind fun e _ =>
      (certain_bindEdge x _).traceless s
  | joinPorts x a b =>
    exact .read_bind fun a _ => .read_bind fun b _ => .read_bind fun e _ =>
      (certain_bindEdge x e).traceless s
  | relabel x edge label => exact .read_bind fun e _ => (certain_bindEdge x _).traceless s
  | createGraph x name => exact (certain_bindGraph x _).traceless s
  | buildDesign x name => exact traceless_buildDesign x name
  | findTransform x name target =>
    exact .read_bind fun g _ => (certain_maybeTransform target _).traceless s
  | findTransformWithId x id target =>
    exact .read_bind fun g _ => (certain_maybeTransform target _).traceless s
  | findOwner x r target =>
    exact .read_bind fun g _ => .read_bind fun p _ => .read_bind fun t _ =>
      (certain_foundTransform target t).traceless s
  | findOwnerOfId x id target =>
    exact .read_bind fun g _ => .read_bind fun t _ => (certain_foundTransform target t).traceless s
  | drop x => exact fun _ hx => nomatch hx
  | takeLog => exact fun _ hx => nomatch hx
  | forgeEdge x edge => exact (certain_bindEdge x edge).traceless s
  | forceEdge x edge => exact .read_bind fun g _ => (certain_replaceGraph x _).traceless s
  | forceTransform x y =>
    exact .read_bind fun g _ => .read_bind fun t _ =>
      ((certain_replaceGraph x _).bind fun _ =>
        (certain_change _).bind fun _ => certain_pure _).traceless s
  | forceIndex x y slot =>
    refine .read_bind fun g _ => .read_bind fun t _ => ?_
    split
    · exact traceless_fail _ s
    · exact (certain_replaceGraph x _).traceless s
  | addConstant | addPort | addPortTo | createTransform | addTransform | addEdge => cases h
  -- all other steps only look
  | _ => exact traceless_read _ s

theorem fst_perform_of_refused {st : Step} (hst : st.writesEarly = false)
    (h : (s.perform st).2 = .refused e) : (s.perform st).1 = s :=
  traceless_carryOut s hst _ (of_eq_refused.mp h)

/-! ### Steps that write something first -/

/-- A part that is offered to a transform is gone when the transform refuses it, and the transform is as
it was. -/
theorem offer_refused {α : Type} {x y : String} {k : Object.Kind α}
    {add : Transform → α → Transform × Except Error Unit} (hk : ∀ a t, k.wrap a ≠ .draft t)
    (hadd : ∀ t a t' e, add t a = (t', .error e) → t' = t)
    (h : (Work.offer x y k add s).2 = .error (.refused e)) :
    (∃ a, s.Holds y (k.wrap a)) ∧ (Work.offer x y k add s).1 = s.unbind y := by
  rcases s.offer_cases x y k add with heq | ⟨t, a, hx, hy, heq⟩
  · rw [heq] at h
    cases h
  · rw [heq] at h ⊢
    rcases hr : add t a with ⟨t', e' | u⟩
    · obtain rfl := hadd t a t' e' hr
      exact ⟨⟨a, hy⟩, bind_of_holds (holds_unbind_iff.mpr ⟨hy.ne hx (hk a t'), hx⟩)⟩
    · rw [hr] at h
      cases h

theorem createTransform_refused {x : String} {spec : PlanSpec}
    (h : (s.perform (.createTransform x spec)).2 = .refused e) :
    s.AfterRefusal (.createTransform x spec) (s.perform (.createTransform x spec)).1 := by
  rcases s.createTransform_cases x spec with ⟨w, e', hmake, heq⟩ | ⟨w, t, -, ⟨-, heq⟩ | ⟨-, heq⟩⟩
  · rw [heq]
    exact congrArg s.withWorkshop (Workshop.make_eq_error hmake)
  · rw [heq] at h
    cases h
  · rw [heq] at h
    cases h

/-- A resolution that is refused has not touched the store. -/
theorem resolveConstant_refused {r : ConstantRef} {records : List Profile}
    (h : (s.perform (.resolveConstant r records)).2 = .refused e) :
    s.AfterRefusal (.resolveConstant r records) (s.perform (.resolveConstant r records)).1 := by
  have hs := fst_perform_of_refused rfl h
  refine ⟨hs, fun c hc => ?_⟩
  cases hanswer : (s.store.resolve c records).1 with
  | error e' => exact Store.snd_resolve_of_error hanswer
  | ok text =>
    -- the constant is there and has a text, so nothing would have refused
    have hin : Work.inWorkshop (·.resolve c records) s = _ :=
      inWorkshop_of_ok (Prod.ext rfl hanswer)
    have hwork : Work.resolveConstant r records s = _ :=
      (read_bind_of_ok (s := s) hc).trans (bind_of_ok hin)
    cases (congrArg Prod.snd hwork).symm.trans (of_eq_refused.mp h)

theorem buildDesign_not_refused (x name : String) :
    (s.perform (.buildDesign x name)).2 ≠ .refused e := by
  cases hd : Design.find? name with
  | none =>
    rw [perform_buildDesign_of_none hd]
    exact nofun
  | some d =>
    obtain ⟨w, g, hbuild⟩ := Design.find?_build_ok hd s.workshop
    rw [perform_buildDesign hd hbuild]
    exact nofun

theorem addTransform_refused {x y : String}
    (h : (s.perform (.addTransform x y)).2 = .refused e) :
    s.AfterRefusal (.addTransform x y) (s.perform (.addTransform x y)).1 := by
  rcases addTransform_cases s x y with
    heq | ⟨g, t, -, ht, ⟨-, heq⟩ | ⟨-, heq⟩⟩
  · rw [heq] at h
    cases h
  · rw [heq]
    exact ⟨⟨t, ht⟩, _, rfl, rfl⟩
  · rw [heq] at h
    cases h

theorem addEdge_refused {x y : String} (h : (s.perform (.addEdge x y)).2 = .refused e) :
    s.AfterRefusal (.addEdge x y) (s.perform (.addEdge x y)).1 := by
  rcases addEdge_cases s x y with
    heq | ⟨g, edge, -, -, ⟨side, id, -, heq⟩ | ⟨-, heq⟩⟩
  · rw [heq] at h
    cases h
  · rw [heq]
    exact ⟨_, rfl, rfl⟩
  · rw [heq] at h
    cases h

end Refused

/-- **A refused step changes nothing but what `AfterRefusal` says**, in every session, also in one
that no run of steps leads to. -/
theorem refused_atomic (s : Session) (st : Step) {e : Error}
    (h : (s.step st).2.outcome = .refused e) : s.AfterRefusal st (s.step st).1 := by
  have h : (s.perform st).2 = .refused e := h
  show s.AfterRefusal st (s.perform st).1
  cases st with
  | createTransform x spec => exact createTransform_refused h
  | addConstant x y =>
    exact offer_refused (k := .constant) (fun _ _ => nofun)
      (fun _ _ _ _ => Transform.addConstant_of_error) (of_eq_refused.mp h)
  | addPort x y =>
    exact offer_refused (k := .port) (fun _ _ => nofun)
      (fun _ _ _ _ => Transform.addPortTo_of_error) (of_eq_refused.mp h)
  | addPortTo d x y =>
    exact offer_refused (k := .port) (fun _ _ => nofun)
      (fun _ _ _ _ => Transform.addPortTo_of_error) (of_eq_refused.mp h)
  | resolveConstant r records => exact resolveConstant_refused h
  | buildDesign x name => exact absurd h (buildDesign_not_refused x name)
  | addTransform x y => exact addTransform_refused h
  | addEdge x y => exact addEdge_refused h
  | _ => exact fst_perform_of_refused rfl h

/-- A plan whose second output is refused for its name, after three ports have been made. -/
def twiceNamed : PlanSpec where
  name := "split"
  readsMemory := false
  writesMemory := false
  inputs := [("in", ⟨"u64"⟩)]
  outputs := [("out", ⟨"u64"⟩), ("out", ⟨"u64"⟩), ("rest", ⟨"u64"⟩)]
  constants := []

/-- The refused plan has used up three identities, and nothing else has changed. -/
theorem refused_atomic_twiceNamed :
    ((start 7).step (.createTransform "x" twiceNamed)).2.outcome =
        .refused (.duplicateName "out" (.ports .output "split")) ∧
      ((start 7).step (.createTransform "x" twiceNamed)).1 =
        (start 7).withWorkshop { (start 7).workshop with nextPort := 10 } := by
  have h : ((start 7).step (.createTransform "x" twiceNamed)).2.outcome =
      .refused (.duplicateName "out" (.ports .output "split")) := rfl
  exact ⟨h, refused_atomic (start 7) (.createTransform "x" twiceNamed) h⟩

end Session

end Dataflow
