import Dataflow.Proofs.Graph.Registration

/-!
# Ways to a port

A port of a transform is reached by its side and position, by its name, by its identity, or as the
only port of its side.  Positions are the plainest of these ways: `Transform.portAt` says what is
where.  Everything else can be said in terms of it, and `Transform.LookupsAgree` does so.

The lookups by name scan for the first match.  That the first match is the only one is what a
transform in order (`Transform.InOrder`) guarantees for each side, but not for both together.  An
input hides the output of its name, and then the output has no way by name
(`Transform.LookupsAgree.shadowing`).
-/

namespace Dataflow

/-! ## Answers that may be missing -/

section Missing
variable {α : Type} {o : Option α} {a : α} {e e' : Error}

/-- What a lookup has found, or the cause that stands for nothing found. -/
def orMissing (o : Option α) (e : Error) : Except Error α :=
  match o with
  | some a => .ok a
  | none => .error e

theorem orMissing_eq_ok_iff : orMissing o e = .ok a ↔ o = some a := by
  cases o <;> simp [orMissing]

theorem orMissing_eq_error_iff : orMissing o e = .error e' ↔ o = none ∧ e' = e := by
  cases o <;> simp [orMissing, eq_comm]

end Missing

namespace Transform

/-! ## What is said of a transform by its positions -/

/-- Some port of this side has the name. -/
def HasName (t : Transform) (d : Direction) (name : String) : Prop :=
  ∃ k p, t.portAt d k = .ok p ∧ p.name = name

/-- The port is the only one of this side that has the name. -/
def OnlyNamed (t : Transform) (d : Direction) (name : String) (p : Port) : Prop :=
  ∃ k, t.portAt d k = .ok p ∧ p.name = name ∧
    ∀ j q, t.portAt d j = .ok q → q.name = name → j = k

/-- The constant is the only one that has the name. -/
def OnlyConstant (t : Transform) (name : String) (c : Constant) : Prop :=
  ∃ k : Nat, t.constants[k]? = some c ∧ c.name = name ∧
    ∀ (j : Nat) b, t.constants[j]? = some b → b.name = name → j = k

/-- **The lookups of a transform describe the same ports.** -/
structure LookupsAgree (t : Transform) : Prop where
  /-- Every port is at one position of one side, and its identity is at no other. -/
  place : ∀ p ∈ t.ports, ∃ k, t.portAt p.direction k = .ok p ∧
    ∀ d j q, t.portAt d j = .ok q → q.id = p.id → d = p.direction ∧ j = k
  /-- At the positions of a side are ports of this side. -/
  listed : ∀ d k p, t.portAt d k = .ok p → p ∈ t.ports ∧ p.direction = d
  inRange : ∀ d k, (∃ p, t.portAt d k = .ok p) ↔ k < (t.portsOf d).length
  outOfRange : ∀ d k e, t.portAt d k = .error e ↔
    (t.portsOf d).length ≤ k ∧ e = .indexOutOfRange d k (t.portsOf d).length
  port : ∀ name p, t.port name = .ok p ↔
    t.OnlyNamed .input name p ∨ (¬ t.HasName .input name ∧ t.OnlyNamed .output name p)
  portMissing : ∀ name e, t.port name = .error e ↔
    (∀ d, ¬ t.HasName d name) ∧ e = .notFound (.port t.name name)
  /-- An output is reached by its name exactly if no input has this name. -/
  shadowing : ∀ k p, t.portAt .output k = .ok p →
    (t.port p.name = .ok p ↔ ¬ t.HasName .input p.name)
  constant : ∀ name c, t.constant name = .ok c ↔ t.OnlyConstant name c
  constantMissing : ∀ name e, t.constant name = .error e ↔
    (∀ c ∈ t.constants, c.name ≠ name) ∧ e = .notFound (.constant t.name name)
  hasId : ∀ v, t.hasId v = true ↔ ∃ d k p, t.portAt d k = .ok p ∧ p.id = v
  withId : ∀ v p, t.portWithId? v = some p ↔ ∃ d k, t.portAt d k = .ok p ∧ p.id = v
  /-- The only port of a side is at position 0, and position 1 is out of range. -/
  solePort : ∀ d p, t.solePort d = .ok p ↔
    t.portAt d 0 = .ok p ∧ t.portAt d 1 = .error (.indexOutOfRange d 1 1)

section Lookups
variable {t : Transform} {d : Direction} {k : Nat} {p : Port} {name : String} {c : Constant}
  {e : Error}

/-! ## Positions -/

theorem portAt_eq (t : Transform) (d : Direction) (k : Nat) :
    t.portAt d k = orMissing (t.portsOf d)[k]? (.indexOutOfRange d k (t.portsOf d).length) := by
  unfold portAt
  cases (t.portsOf d)[k]? <;> rfl

theorem portAt_eq_ok_iff : t.portAt d k = .ok p ↔ (t.portsOf d)[k]? = some p := by
  rw [portAt_eq, orMissing_eq_ok_iff]

theorem portAt_eq_error_iff : t.portAt d k = .error e ↔
    (t.portsOf d).length ≤ k ∧ e = .indexOutOfRange d k (t.portsOf d).length := by
  rw [portAt_eq, orMissing_eq_error_iff, List.getElem?_eq_none_iff]

theorem exists_portAt_iff : (∃ k, t.portAt d k = .ok p) ↔ p ∈ t.portsOf d := by
  simp only [portAt_eq_ok_iff, List.mem_iff_getElem?]

theorem hasName_iff : t.HasName d name ↔ ∃ p ∈ t.portsOf d, p.name = name := by
  constructor
  · rintro ⟨k, p, hp, hname⟩
    exact ⟨p, exists_portAt_iff.mp ⟨k, hp⟩, hname⟩
  · rintro ⟨p, hp, hname⟩
    obtain ⟨k, hk⟩ := exists_portAt_iff.mpr hp
    exact ⟨k, p, hk, hname⟩

theorem mem_ports_iff_portAt : p ∈ t.ports ↔ ∃ d k, t.portAt d k = .ok p := by
  simp only [exists_portAt_iff]
  exact mem_ports_iff

/-- The side has only one port. -/
theorem solePort_eq_ok_iff : t.solePort d = .ok p ↔
    t.portAt d 0 = .ok p ∧ t.portAt d 1 = .error (.indexOutOfRange d 1 1) := by
  rw [portAt_eq_ok_iff, portAt_eq_error_iff]
  unfold Transform.solePort
  split
  · rename_i q hq
    simp [hq]
  · rename_i hmany
    refine ⟨nofun, ?_⟩
    rintro ⟨hfirst, hle, -⟩
    -- a list with a first element and no second one
    match hps : t.portsOf d with
    | [] =>
      rw [hps] at hfirst
      cases hfirst
    | [q] => exact absurd hps (hmany q)
    | q :: r :: rest =>
      rw [hps] at hle
      simp at hle

/-! ## Names -/

/-- In a list in order, a port that has the name is the only one that has it. -/
theorem InOrder.onlyNamed_iff (ht : t.InOrder) :
    t.OnlyNamed d name p ↔ p ∈ t.portsOf d ∧ p.name = name := by
  constructor
  · rintro ⟨k, hk, hname, -⟩
    exact ⟨exists_portAt_iff.mp ⟨k, hk⟩, hname⟩
  · rintro ⟨hp, hname⟩
    obtain ⟨k, hk⟩ := exists_portAt_iff.mpr hp
    refine ⟨k, hk, hname, fun j q hq hqname => ?_⟩
    exact place_eq_of_key_eq (ht.names d) (portAt_eq_ok_iff.mp hq) (portAt_eq_ok_iff.mp hk)
      (hqname.trans hname.symm)

theorem InOrder.onlyConstant_iff (ht : t.InOrder) :
    t.OnlyConstant name c ↔ c ∈ t.constants ∧ c.name = name := by
  constructor
  · rintro ⟨k, hk, hname, -⟩
    exact ⟨List.mem_of_getElem? hk, hname⟩
  · rintro ⟨hc, hname⟩
    obtain ⟨k, hk⟩ := List.getElem?_of_mem hc
    exact ⟨k, hk, hname, fun j b hb hbname =>
      place_eq_of_key_eq ht.constants hb hk (hbname.trans hname.symm)⟩

/-- The scan of a side finds what is alone in its name there. -/
theorem InOrder.find?_eq_some_iff (ht : t.InOrder) :
    (t.portsOf d).find? (·.name = name) = some p ↔ t.OnlyNamed d name p :=
  (find?_key_eq_some_iff (ht.names d)).trans ht.onlyNamed_iff.symm

theorem find?_eq_none_iff_not_hasName :
    (t.portsOf d).find? (·.name = name) = none ↔ ¬ t.HasName d name := by
  rw [hasName_iff]
  simp

theorem port_eq (t : Transform) (name : String) : t.port name =
    orMissing (t.ports.find? (·.name = name)) (.notFound (.port t.name name)) := by
  unfold port
  cases t.ports.find? (·.name = name) <;> rfl

theorem constant_eq (t : Transform) (name : String) : t.constant name =
    orMissing (t.constants.find? (·.name = name)) (.notFound (.constant t.name name)) := by
  unfold constant
  cases t.constants.find? (·.name = name) <;> rfl

theorem port_eq_ok_iff_find? : t.port name = .ok p ↔
    (t.portsOf .input).find? (·.name = name) = some p ∨
      ((t.portsOf .input).find? (·.name = name) = none ∧
        (t.portsOf .output).find? (·.name = name) = some p) := by
  rw [port_eq, orMissing_eq_ok_iff, ports_eq, List.find?_append, Option.or_eq_some_iff]

theorem port_eq_error_iff : t.port name = .error e ↔
    (∀ d, ¬ t.HasName d name) ∧ e = .notFound (.port t.name name) := by
  rw [port_eq, orMissing_eq_error_iff, ports_eq, List.find?_append, Option.or_eq_none_iff,
    find?_eq_none_iff_not_hasName, find?_eq_none_iff_not_hasName]
  refine and_congr_left fun _ => ⟨fun h d => ?_, fun h => ⟨h .input, h .output⟩⟩
  cases d with
  | input => exact h.1
  | output => exact h.2

theorem constant_eq_error_iff : t.constant name = .error e ↔
    (∀ c ∈ t.constants, c.name ≠ name) ∧ e = .notFound (.constant t.name name) := by
  simp [constant_eq, orMissing_eq_error_iff]

theorem InOrder.port_eq_ok_iff (ht : t.InOrder) : t.port name = .ok p ↔
    t.OnlyNamed .input name p ∨ (¬ t.HasName .input name ∧ t.OnlyNamed .output name p) := by
  rw [port_eq_ok_iff_find?, ht.find?_eq_some_iff, ht.find?_eq_some_iff,
    find?_eq_none_iff_not_hasName]

theorem InOrder.shadowing (ht : t.InOrder) (hp : t.portAt .output k = .ok p) :
    t.port p.name = .ok p ↔ ¬ t.HasName .input p.name := by
  have hmem : p ∈ t.portsOf .output := exists_portAt_iff.mp ⟨k, hp⟩
  rw [ht.port_eq_ok_iff]
  constructor
  · rintro (hin | ⟨hfree, -⟩)
    · -- an input has another direction, so it cannot be this port
      have hd := ht.direction .input p (ht.onlyNamed_iff.mp hin).1
      rw [ht.direction .output p hmem] at hd
      cases hd
    · exact hfree
  · exact fun hfree => Or.inr ⟨hfree, ht.onlyNamed_iff.mpr ⟨hmem, rfl⟩⟩

end Lookups

/-! ## All lookups together -/

/-- In a sound transform, an identity is at one position only. -/
theorem Sound.place {t : Transform} (ht : t.Sound) {p : Port} (hp : p ∈ t.ports) :
    ∃ k, t.portAt p.direction k = .ok p ∧
      ∀ d j q, t.portAt d j = .ok q → q.id = p.id → d = p.direction ∧ j = k := by
  obtain ⟨d, k, hk⟩ := mem_ports_iff_portAt.mp hp
  have hdirection : p.direction = d := ht.direction d p (exists_portAt_iff.mp ⟨k, hk⟩)
  subst hdirection
  refine ⟨k, hk, fun d j q hq hid => ?_⟩
  obtain rfl : q = p := ht.eq_of_id_eq (mem_ports_iff_portAt.mpr ⟨d, j, hq⟩) hp hid
  obtain rfl : q.direction = d := ht.direction d q (exists_portAt_iff.mp ⟨j, hq⟩)
  exact ⟨rfl, place_eq_of_key_eq (ht.names _) (portAt_eq_ok_iff.mp hq) (portAt_eq_ok_iff.mp hk) rfl⟩

/-- **The lookups of a sound transform agree.** -/
theorem Sound.lookupsAgree {t : Transform} (ht : t.Sound) : t.LookupsAgree where
  place _ := ht.place
  listed d k p hp :=
    ⟨mem_ports_iff_portAt.mpr ⟨d, k, hp⟩, ht.direction d p (exists_portAt_iff.mp ⟨k, hp⟩)⟩
  inRange d k := by
    simp only [portAt_eq_ok_iff, List.getElem?_eq_some_iff]
    exact ⟨fun ⟨_, h, _⟩ => h, fun h => ⟨_, h, rfl⟩⟩
  outOfRange _ _ _ := portAt_eq_error_iff
  port _ _ := ht.toInOrder.port_eq_ok_iff
  portMissing _ _ := port_eq_error_iff
  shadowing _ _ := ht.toInOrder.shadowing
  constant name c := by
    rw [constant_eq, orMissing_eq_ok_iff, find?_key_eq_some_iff ht.constants, ht.toInOrder.onlyConstant_iff]
  constantMissing _ _ := constant_eq_error_iff
  hasId v := by
    simp only [hasId_iff, mem_ports_iff_portAt]
    exact ⟨fun ⟨p, ⟨d, k, hp⟩, hv⟩ => ⟨d, k, p, hp, hv⟩, fun ⟨d, k, p, hp, hv⟩ => ⟨p, ⟨d, k, hp⟩, hv⟩⟩
  withId v p := by
    rw [portWithId?_eq_some_iff ht.ids, mem_ports_iff_portAt]
    exact ⟨fun ⟨⟨d, k, hp⟩, hv⟩ => ⟨d, k, hp, hv⟩, fun ⟨d, k, hp, hv⟩ => ⟨⟨d, k, hp⟩, hv⟩⟩
  solePort _ _ := solePort_eq_ok_iff

end Transform

end Dataflow
