import Dataflow.Proofs.Graph.Joining
import Dataflow.Proofs.Transform.Traits

/-!
# What a connection stands for

`connect` has four cases, one for each pair of sorts of sides.  For transforms that were built by
the operations on transforms they are one: each side stands for its only port that faces a
direction, which is given by both sides (`Endpoint.facings`), and the two ports are joined
(`connect_eq`).  A port stands for itself.

From this follows what the answer can be (`Endpoint.Connects`).  There is an edge exactly if both
ports are there and their directions differ.  There are two refusals: a side is ambiguous, and then
the first such side is named, or two ports have the same direction.  The latter cannot come from a
transform, because its ports are in the list of their direction (`Transform.Built.inOrder`).
-/

namespace Dataflow

/-! ## Transforms built by the operations on transforms -/

/-- **A transform that was built**: made without parts, and then changed by the operations of an
open transform.  Adding a port without naming a list is adding it to the list of its direction. -/
inductive Transform.Built : Transform → Prop
  | create {serial : Nat} {name : String} {t : Transform}
      (h : Transform.create serial name = .ok t) : Built t
  | withMemory {t : Transform} (ht : Built t) (reads writes : Bool) :
      Built (t.withMemory reads writes)
  | addConstant {t t' : Transform} {c : Constant} (ht : Built t)
      (h : t.addConstant c = (t', .ok ())) : Built t'
  | addPortTo {t t' : Transform} {d : Direction} {p : Port} (ht : Built t)
      (h : t.addPortTo d p = (t', .ok ())) : Built t'

namespace Transform

/-- **A transform that was built is in order.** -/
theorem Built.inOrder {t : Transform} (h : t.Built) : t.InOrder := by
  induction h with
  | create h => exact inOrder_of_create h
  | withMemory _ reads writes ih => exact ih.withMemory reads writes
  | addConstant _ h ih => exact ih.addConstant h
  | addPortTo _ h ih => exact ih.addPortTo h

end Transform

/-- Whatever is made is built, and it is built further by growing. -/
theorem Trait.universal_built : (ofTransform Transform.Built).Universal where
  withMemory reads writes ht := ht.withMemory reads writes
  addConstant ht _ h := ht.addConstant h
  addPortTo ht _ h := ht.addPortTo h
  create h := .create h
  createPort _ := trivial
  createConstant _ := trivial

/-- **Making a planned transform builds it.** -/
theorem Workshop.built_of_make {w w' : Workshop} {plan : Plan} {t : Transform}
    (h : w.make plan = (w', .ok t)) : t.Built :=
  Trait.universal_built.make h

/-! ## The two sides -/

namespace Endpoint

/-- A side that is a transform was built. -/
def Built : Endpoint → Prop
  | .port _ => True
  | .transform t => t.Built

/-- The ports of this direction that a side can stand for.  A port stands for itself. -/
def facing : Endpoint → Direction → List Port
  | .port p, _ => [p]
  | .transform t, d => t.portsOf d

/-- The directions that the ports of two sides have: a port has its own, beside a port a transform
has the opposite one, and of two transforms the first is the producer. -/
def facings : Endpoint → Endpoint → Direction × Direction
  | .port p, .port q => (p.direction, q.direction)
  | .transform _, .port q => (q.direction.opposite, q.direction)
  | .port p, .transform _ => (p.direction, p.direction.opposite)
  | .transform _, .transform _ => (.output, .input)

/-- The port that a side stands for. -/
def standIn : Endpoint → Direction → Except Error Port
  | .port p, _ => .ok p
  | .transform t, d => t.solePort d

/-- The side is a transform of this name with `n` ports of the direction, and `n` is not one. -/
def Ambiguous (a : Endpoint) (d : Direction) (name : String) (n : Nat) : Prop :=
  ∃ t, a = .transform t ∧ t.name = name ∧ (t.portsOf d).length = n ∧ n ≠ 1

section StandIn
variable {a b : Endpoint} {d : Direction} {p : Port} {e : Error}

theorem standIn_eq_ok : a.standIn d = .ok p ↔ a.facing d = [p] := by
  cases a with
  | port q =>
    show (Except.ok q : Except Error Port) = .ok p ↔ [q] = [p]
    rw [Except.ok.injEq, List.singleton_inj]
  | transform t =>
    show t.solePort d = .ok p ↔ t.portsOf d = [p]
    unfold Transform.solePort
    split
    · rename_i q hq
      rw [hq, Except.ok.injEq, List.singleton_inj]
    · rename_i hmany
      exact ⟨fun h => (nomatch h), fun h => absurd h (hmany p)⟩

theorem standIn_eq_error :
    a.standIn d = .error e ↔ ∃ name n, a.Ambiguous d name n ∧ e = .ambiguousPort name d n := by
  cases a with
  | port q =>
    refine ⟨fun h => (nomatch h), ?_⟩
    rintro ⟨_, _, ⟨t, ht, -⟩, -⟩
    cases ht
  | transform t =>
    show t.solePort d = .error e ↔ _
    unfold Transform.solePort
    split
    · rename_i q hq
      refine ⟨fun h => (nomatch h), ?_⟩
      rintro ⟨_, n, ⟨u, hu, -, hlength, hn⟩, -⟩
      cases hu
      rw [hq] at hlength
      exact absurd hlength.symm hn
    · rename_i hmany
      have hn : (t.portsOf d).length ≠ 1 := fun h =>
        (List.length_eq_one_iff.mp h).elim fun q hq => hmany q hq
      constructor
      · intro h
        cases h
        exact ⟨t.name, _, ⟨t, rfl, rfl, rfl, hn⟩, rfl⟩
      · rintro ⟨_, _, ⟨u, hu, rfl, rfl, -⟩, rfl⟩
        cases hu
        rfl

/-- **The ports that the sides stand for have the directions that they face.** -/
theorem direction_of_facing (ha : a.Built) (hb : b.Built) :
    (∀ p ∈ a.facing (a.facings b).1, p.direction = (a.facings b).1) ∧
      ∀ q ∈ b.facing (a.facings b).2, q.direction = (a.facings b).2 := by
  have port : ∀ p : Port, ∀ q ∈ [p], q.direction = p.direction := fun p q hq => by
    rw [List.mem_singleton.mp hq]
  cases a with
  | port p =>
    cases b with
    | port q => exact ⟨port p, port q⟩
    | transform u => exact ⟨port p, (Transform.Built.inOrder hb).direction _⟩
  | transform t =>
    cases b with
    | port q => exact ⟨(Transform.Built.inOrder ha).direction _, port q⟩
    | transform u =>
      exact ⟨(Transform.Built.inOrder ha).direction .output,
        (Transform.Built.inOrder hb).direction .input⟩

/-- Two sides that face the same direction are two ports. -/
theorem ports_of_facings_eq (h : (a.facings b).1 = (a.facings b).2) :
    ∃ p q, a = .port p ∧ b = .port q ∧ p.direction = q.direction := by
  have opposite : ∀ d : Direction, d ≠ d.opposite := fun d => by cases d <;> decide
  cases a with
  | port p =>
    cases b with
    | port q => exact ⟨p, q, rfl, rfl, h⟩
    | transform u => exact absurd h (opposite _)
  | transform t =>
    cases b with
    | port q => exact absurd h.symm (opposite _)
    | transform u => cases h

end StandIn

end Endpoint

/-! ## Joining two ports -/

namespace Edge
variable {p q : Port} {e : Edge} {err : Error}

/-- The edge runs between the two ports, from the output to the input, and has no label. -/
def Runs (e : Edge) (p q : Port) : Prop :=
  (p.direction = .output ∧ q.direction = .input ∧ e = ⟨p.id, q.id, none⟩) ∨
    (p.direction = .input ∧ q.direction = .output ∧ e = ⟨q.id, p.id, none⟩)

theorem between_eq_ok : between p q = .ok e ↔ e.Runs p q := by
  unfold between Runs
  cases p.direction <;> cases q.direction <;> simp [eq_comm]

theorem between_eq_error : between p q = .error err ↔
    p.direction = q.direction ∧
      err = .directionMismatch (p.direction, p.name) (q.direction, q.name) := by
  unfold between
  cases p.direction <;> cases q.direction <;> simp [eq_comm]

/-- Two ports of different directions can be given in either order. -/
theorem between_comm (h : p.direction ≠ q.direction) : between p q = between q p := by
  unfold between
  cases hp : p.direction <;> cases hq : q.direction <;> simp_all

end Edge

/-! ## The four cases in one -/

section Connect
variable {a b : Endpoint}

/-- **A connection joins the ports that its sides stand for**, of which that of the first side is
looked for first. -/
theorem connect_eq (ha : a.Built) (hb : b.Built) : connect a b =
    a.standIn (a.facings b).1 >>= fun p => b.standIn (a.facings b).2 >>= fun q =>
      Edge.between p q := by
  cases a with
  | transform t => cases b <;> rfl
  | port p =>
    cases b with
    | port q => rfl
    | transform u =>
      -- here the port of the transform comes first
      show (u.solePort p.direction.opposite >>= fun q => Edge.between q p) =
        u.solePort p.direction.opposite >>= fun q => Edge.between p q
      cases hq : u.solePort p.direction.opposite with
      | error err => rfl
      | ok q =>
        have hmem : q ∈ u.portsOf p.direction.opposite := by
          rw [show u.portsOf _ = [q] from Endpoint.standIn_eq_ok (a := .transform u).mp hq]
          exact List.mem_singleton_self q
        have hdirection := (Transform.Built.inOrder hb).direction _ q hmem
        exact Edge.between_comm (Direction.ne_iff_eq_opposite.mpr (by rw [hdirection]; simp))

/-- **There is an edge** exactly if both ports are there and it runs between them. -/
theorem connect_eq_ok (ha : a.Built) (hb : b.Built) {e : Edge} : connect a b = .ok e ↔
    ∃ p q, a.facing (a.facings b).1 = [p] ∧ b.facing (a.facings b).2 = [q] ∧ e.Runs p q := by
  simp only [connect_eq ha hb, bind_eq_ok, Endpoint.standIn_eq_ok, Edge.between_eq_ok]
  exact ⟨fun ⟨p, hp, q, hq, h⟩ => ⟨p, q, hp, hq, h⟩, fun ⟨p, q, hp, hq, h⟩ => ⟨p, hp, q, hq, h⟩⟩

/-- **The refusals**: the first side is ambiguous, or it is not and the second one is, or both sides
are ports and of one direction. -/
theorem connect_eq_error (ha : a.Built) (hb : b.Built) {err : Error} :
    connect a b = .error err ↔
      (∃ name n, a.Ambiguous (a.facings b).1 name n ∧
        err = .ambiguousPort name (a.facings b).1 n) ∨
      (∃ p, a.facing (a.facings b).1 = [p] ∧ ∃ name n, b.Ambiguous (a.facings b).2 name n ∧
        err = .ambiguousPort name (a.facings b).2 n) ∨
      ∃ p q, a = .port p ∧ b = .port q ∧ p.direction = q.direction ∧
        err = .directionMismatch (p.direction, p.name) (q.direction, q.name) := by
  simp only [connect_eq ha hb, bind_eq_error, Endpoint.standIn_eq_error, Endpoint.standIn_eq_ok,
    Edge.between_eq_error]
  constructor
  · rintro (hambiguous | ⟨p, hp, hambiguous | ⟨q, hq, hdirection, rfl⟩⟩)
    · exact Or.inl hambiguous
    · exact Or.inr (Or.inl ⟨p, hp, hambiguous⟩)
    · -- two ports that are there have the directions that the sides face
      obtain ⟨hpd, hqd⟩ := Endpoint.direction_of_facing ha hb
      have hpd := hpd p (hp ▸ List.mem_singleton_self p)
      have hqd := hqd q (hq ▸ List.mem_singleton_self q)
      obtain ⟨p', q', rfl, rfl, h⟩ :=
        Endpoint.ports_of_facings_eq ((hpd.symm.trans hdirection).trans hqd)
      obtain rfl := List.singleton_inj.mp hp
      obtain rfl := List.singleton_inj.mp hq
      exact Or.inr (Or.inr ⟨p', q', rfl, rfl, h, rfl⟩)
  · rintro (hambiguous | ⟨p, hp, hambiguous⟩ | ⟨p, q, rfl, rfl, hdirection, rfl⟩)
    · exact Or.inl hambiguous
    · exact Or.inr ⟨p, hp, Or.inl hambiguous⟩
    · exact Or.inr ⟨p, rfl, Or.inr ⟨q, rfl, hdirection, rfl⟩⟩

/-- A side is ambiguous exactly if it has not exactly one port to stand for it. -/
theorem Endpoint.exists_ambiguous_iff {d : Direction} :
    (∃ name n, a.Ambiguous d name n) ↔ (a.facing d).length ≠ 1 := by
  cases a with
  | port p =>
    refine ⟨?_, fun h => absurd rfl h⟩
    rintro ⟨_, _, t, ht, -⟩
    cases ht
  | transform t =>
    constructor
    · rintro ⟨_, _, u, hu, rfl, rfl, hn⟩
      cases hu
      exact hn
    · exact fun h => ⟨t.name, _, t, rfl, rfl, rfl, h⟩

/-- **The first ambiguous side is named**, with the direction and the number of its ports. -/
theorem connect_ambiguous_iff (ha : a.Built) (hb : b.Built) {name : String} {d : Direction}
    {n : Nat} : connect a b = .error (.ambiguousPort name d n) ↔
      (d = (a.facings b).1 ∧ a.Ambiguous d name n) ∨
        ((a.facing (a.facings b).1).length = 1 ∧ d = (a.facings b).2 ∧ b.Ambiguous d name n) := by
  rw [connect_eq_error ha hb, List.length_eq_one_iff]
  constructor
  · rintro (⟨_, _, h, heq⟩ | ⟨p, hp, _, _, h, heq⟩ | ⟨_, _, _, _, _, heq⟩)
    · cases heq
      exact Or.inl ⟨rfl, h⟩
    · cases heq
      exact Or.inr ⟨⟨p, hp⟩, rfl, h⟩
    · cases heq
  · rintro (⟨rfl, h⟩ | ⟨⟨p, hp⟩, rfl, h⟩)
    · exact Or.inl ⟨name, n, h, rfl⟩
    · exact Or.inr (Or.inl ⟨p, hp, name, n, h, rfl⟩)

/-- A connection is ambiguous exactly if one of its sides is. -/
theorem connect_unclear_iff (ha : a.Built) (hb : b.Built) :
    (∃ name d n, connect a b = .error (.ambiguousPort name d n)) ↔
      (a.facing (a.facings b).1).length ≠ 1 ∨ (b.facing (a.facings b).2).length ≠ 1 := by
  simp only [connect_ambiguous_iff ha hb]
  constructor
  · rintro ⟨name, _, n, ⟨rfl, h⟩ | ⟨-, rfl, h⟩⟩
    · exact Or.inl (Endpoint.exists_ambiguous_iff.mp ⟨name, n, h⟩)
    · exact Or.inr (Endpoint.exists_ambiguous_iff.mp ⟨name, n, h⟩)
  · intro h
    by_cases hfirst : (a.facing (a.facings b).1).length = 1
    · obtain ⟨name, n, hsecond⟩ :=
        Endpoint.exists_ambiguous_iff.mpr (h.resolve_left (not_not.mpr hfirst))
      exact ⟨name, _, n, Or.inr ⟨hfirst, rfl, hsecond⟩⟩
    · obtain ⟨name, n, hfirst⟩ := Endpoint.exists_ambiguous_iff.mpr hfirst
      exact ⟨name, _, n, Or.inl ⟨rfl, hfirst⟩⟩

/-- Only two ports can have the wrong directions. -/
theorem connect_mismatch_iff (ha : a.Built) (hb : b.Built) {x y : Direction × String} :
    connect a b = .error (.directionMismatch x y) ↔
      ∃ p q, a = .port p ∧ b = .port q ∧ p.direction = q.direction ∧
        x = (p.direction, p.name) ∧ y = (q.direction, q.name) := by
  rw [connect_eq_error ha hb]
  constructor
  · rintro (⟨_, _, _, heq⟩ | ⟨_, _, _, _, _, heq⟩ | ⟨p, q, hp, hq, h, heq⟩)
    · cases heq
    · cases heq
    · cases heq
      exact ⟨p, q, hp, hq, h, rfl, rfl⟩
  · rintro ⟨p, q, hp, hq, h, rfl, rfl⟩
    exact Or.inr (Or.inr ⟨p, q, hp, hq, h, rfl⟩)

/-- There are no other refusals. -/
theorem connect_refusals (ha : a.Built) (hb : b.Built) {err : Error}
    (h : connect a b = .error err) :
    (∃ name d n, err = .ambiguousPort name d n) ∨ ∃ x y, err = .directionMismatch x y := by
  rcases (connect_eq_error ha hb).mp h with
    ⟨name, n, -, rfl⟩ | ⟨_, -, name, n, -, rfl⟩ | ⟨p, q, -, -, -, rfl⟩
  · exact Or.inl ⟨name, _, n, rfl⟩
  · exact Or.inl ⟨name, _, n, rfl⟩
  · exact Or.inr ⟨_, _, rfl⟩

end Connect

/-! ## The answers of a connection -/

/-- The cause as it reads when the sides of a connection are given the other way round. -/
def Error.exchanged : Error → Error
  | .directionMismatch x y => .directionMismatch y x
  | e => e

namespace Endpoint

/-- **What `connect` answers for two sides.** -/
structure Connects (a b : Endpoint) : Prop where
  /-- There is an edge exactly if the ports are there and have different directions. -/
  joined : (∃ e, connect a b = .ok e) ↔ ∃ p q, a.facing (a.facings b).1 = [p] ∧
    b.facing (a.facings b).2 = [q] ∧ p.direction ≠ q.direction
  /-- It runs from the output to the input and has no label. -/
  edge : ∀ e, connect a b = .ok e ↔ ∃ p q, a.facing (a.facings b).1 = [p] ∧
    b.facing (a.facings b).2 = [q] ∧ e.Runs p q
  /-- A side is ambiguous exactly if it has not exactly one port of the direction. -/
  unclear : (∃ name d n, connect a b = .error (.ambiguousPort name d n)) ↔
    (a.facing (a.facings b).1).length ≠ 1 ∨ (b.facing (a.facings b).2).length ≠ 1
  /-- The first ambiguous side is named, with the direction and the number of its ports. -/
  ambiguous : ∀ name d n, connect a b = .error (.ambiguousPort name d n) ↔
    (d = (a.facings b).1 ∧ a.Ambiguous d name n) ∨
      ((a.facing (a.facings b).1).length = 1 ∧ d = (a.facings b).2 ∧ b.Ambiguous d name n)
  mismatch : ∀ x y, connect a b = .error (.directionMismatch x y) ↔
    ∃ p q, a = .port p ∧ b = .port q ∧ p.direction = q.direction ∧
      x = (p.direction, p.name) ∧ y = (q.direction, q.name)
  /-- There are no other refusals. -/
  refusals : ∀ err, connect a b = .error err →
    (∃ name d n, err = .ambiguousPort name d n) ∨ ∃ x y, err = .directionMismatch x y
  /-- A port and a transform can be given in either order. -/
  swapMixed : ∀ t p, a = .transform t ∧ b = .port p ∨ a = .port p ∧ b = .transform t →
    connect b a = connect a b
  swapPorts : ∀ p q, a = .port p → b = .port q →
    connect b a = (connect a b).mapError Error.exchanged

end Endpoint

/-- Two ports given the other way round give the same edge or the exchanged refusal. -/
theorem Edge.between_swap (p q : Port) :
    Edge.between q p = (Edge.between p q).mapError Error.exchanged := by
  by_cases h : p.direction = q.direction
  · rw [between_eq_error.mpr ⟨h, rfl⟩, between_eq_error.mpr ⟨h.symm, rfl⟩]
    rfl
  · rw [between_comm (Ne.symm h)]
    cases hpq : between p q with
    | ok e => rfl
    | error err => exact absurd (between_eq_error.mp hpq).1 h

theorem Edge.exists_runs_iff {p q : Port} :
    (∃ e : Edge, e.Runs p q) ↔ p.direction ≠ q.direction := by
  unfold Runs
  cases p.direction <;> cases q.direction <;> simp

/-- **A connection of ports and of transforms that were built answers as its cases promise.** -/
theorem connects_of_built {a b : Endpoint} (ha : a.Built) (hb : b.Built) : a.Connects b where
  joined := by
    simp only [connect_eq_ok ha hb, ← Edge.exists_runs_iff]
    exact ⟨fun ⟨e, p, q, hp, hq, h⟩ => ⟨p, q, hp, hq, e, h⟩,
      fun ⟨p, q, hp, hq, e, h⟩ => ⟨e, p, q, hp, hq, h⟩⟩
  edge _ := connect_eq_ok ha hb
  unclear := connect_unclear_iff ha hb
  ambiguous _ _ _ := connect_ambiguous_iff ha hb
  mismatch _ _ := connect_mismatch_iff ha hb
  refusals _ := connect_refusals ha hb
  swapMixed t p h := by
    rcases h with ⟨rfl, rfl⟩ | ⟨rfl, rfl⟩ <;> rfl
  swapPorts p q hp hq := by
    subst hp hq
    exact Edge.between_swap p q

/-- A transform with one input and two outputs. -/
def splitter : Transform :=
  ⟨0, "split", [], [⟨Ident.ofCounter 0, "rows", ⟨"Table"⟩, .input⟩],
    [⟨Ident.ofCounter 1, "left", ⟨"Table"⟩, .output⟩,
      ⟨Ident.ofCounter 2, "right", ⟨"Table"⟩, .output⟩],
    false, false⟩

theorem built_splitter : splitter.Built := by
  have h : ∃ w, (Workshop.start 0).make ⟨"split", false, false, [("rows", ⟨"Table"⟩)],
      [("left", ⟨"Table"⟩), ("right", ⟨"Table"⟩)], []⟩ = (w, .ok splitter) := ⟨_, rfl⟩
  exact h.elim fun _ => Workshop.built_of_make

theorem connects_of_built_splitter :
    let tap : Port := ⟨Ident.ofCounter 3, "tap", ⟨"Table"⟩, .output⟩
    let sink : Port := ⟨Ident.ofCounter 4, "sink", ⟨"Table"⟩, .input⟩
    connect (.port tap) (.transform splitter) = .ok ⟨tap.id, Ident.ofCounter 0, none⟩ ∧
      connect (.transform splitter) (.port sink) = .error (.ambiguousPort "split" .output 2) ∧
      connect (.port sink) (.transform splitter) = connect (.transform splitter) (.port sink) ∧
      connect (.transform splitter) (.transform splitter) =
        .error (.ambiguousPort "split" .output 2) := by
  intro tap sink
  have htap := connects_of_built (a := .port tap) (b := .transform splitter) trivial built_splitter
  have hsink := connects_of_built (a := .transform splitter) (b := .port sink)
    built_splitter trivial
  have hself := connects_of_built (a := .transform splitter) (b := .transform splitter)
    built_splitter built_splitter
  refine ⟨(htap.edge _).mpr ⟨tap, _, rfl, rfl, Or.inl ⟨rfl, rfl, rfl⟩⟩,
    (hsink.ambiguous _ _ _).mpr (Or.inl ⟨rfl, splitter, rfl, rfl, rfl, by decide⟩),
    hsink.swapMixed splitter sink (Or.inl ⟨rfl, rfl⟩),
    (hself.ambiguous _ _ _).mpr (Or.inl ⟨rfl, splitter, rfl, rfl, rfl, by decide⟩)⟩

end Dataflow
