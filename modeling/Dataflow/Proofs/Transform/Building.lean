import Dataflow.Graph.Validate
import Dataflow.Workshop

/-!
# What building a transform guarantees

A transform is built from an empty one by adding constants and ports, one at a time, and every
addition is checked.  Two things follow, however the building goes.

* The transform is **in order** (`Transform.InOrder`): constant names are unique, every port is in
  the list of its own direction, and port names are unique in each list.  This is exactly what
  `Transform.check` looks for (`Transform.check_eq_ok_iff`, in the module on validation).
* When it is made from a plan, its ports have the identities that the counter went through
  meanwhile, each once (`Workshop.Makes`).  Below the limit of the counter these identities are
  pairwise different and new.

A plan that is refused has used up the identities of the ports that were made before the refusal, and
this is all that it leaves behind (`Workshop.make_eq_error`).
-/

namespace Dataflow

/-! ## Answers that are there -/

section Answers
variable {ε α β : Type}

theorem bind_eq_ok {x : Except ε α} {f : α → Except ε β} {b : β} :
    x >>= f = .ok b ↔ ∃ a, x = .ok a ∧ f a = .ok b := by
  cases x <;> simp [bind, Except.bind]

theorem bind_eq_error {x : Except ε α} {f : α → Except ε β} {e : ε} :
    x >>= f = .error e ↔ x = .error e ∨ ∃ a, x = .ok a ∧ f a = .error e := by
  cases x <;> simp [bind, Except.bind]

@[simp] theorem pure_eq_ok {a b : α} : (pure a : Except ε α) = .ok b ↔ a = b := by
  simp [pure, Except.pure]

end Answers

namespace Transform

/-! ## Order -/

/-- **A transform in order**: names are unique in each list, and every port is in the list of its
direction. -/
structure InOrder (t : Transform) : Prop where
  constants : (t.constants.map (·.name)).Nodup
  direction : ∀ d, ∀ p ∈ t.portsOf d, p.direction = d
  names : ∀ d, ((t.portsOf d).map (·.name)).Nodup

theorem mem_ports_iff {t : Transform} {p : Port} : p ∈ t.ports ↔ ∃ d, p ∈ t.portsOf d := by
  rw [ports_eq, List.mem_append]
  constructor
  · rintro (h | h)
    · exact ⟨.input, h⟩
    · exact ⟨.output, h⟩
  · rintro ⟨d, h⟩
    cases d with
    | input => exact Or.inl h
    | output => exact Or.inr h

section Single
variable {t t' : Transform} {d : Direction} {p : Port} {c : Constant} {e : Error}

/-- What a successful addition of a constant does. -/
theorem addConstant_eq_ok : t.addConstant c = (t', .ok ()) ↔
    c.name ∉ t.constants.map (·.name) ∧ { t with constants := t.constants ++ [c] } = t' := by
  unfold addConstant
  split
  · rename_i h
    simp only [List.any_eq_true, decide_eq_true_eq] at h
    simpa using fun hn => absurd h (by simpa using hn)
  · rename_i h
    simp only [List.any_eq_true, decide_eq_true_eq, not_exists, not_and] at h
    simpa using fun _ => h

/-- **A refused constant leaves the transform as it was.** -/
theorem addConstant_of_error (h : t.addConstant c = (t', .error e)) : t' = t := by
  unfold addConstant at h
  split at h
  · cases h
    rfl
  · cases h

/-- What a successful addition of a port does. -/
theorem addPortTo_eq_ok : t.addPortTo d p = (t', .ok ()) ↔
    p.direction = d ∧ p.name ∉ (t.portsOf d).map (·.name) ∧ t.appendPort p d = t' := by
  unfold addPortTo
  split
  · rename_i h
    simp [h]
  · rename_i hd
    have hd : p.direction = d := Classical.not_not.mp hd
    split
    · rename_i h
      simp only [List.any_eq_true, decide_eq_true_eq] at h
      simpa [hd] using fun hn => absurd h (by simpa using hn)
    · rename_i h
      simp only [List.any_eq_true, decide_eq_true_eq, not_exists, not_and] at h
      simpa [hd] using fun _ => h

/-- **A refused port leaves the transform as it was.** -/
theorem addPortTo_of_error (h : t.addPortTo d p = (t', .error e)) : t' = t := by
  unfold addPortTo at h
  split at h
  · cases h
    rfl
  · split at h
    · cases h
      rfl
    · cases h

end Single

theorem create_eq_ok {serial : Nat} {name : String} {t : Transform} :
    create serial name = .ok t ↔
      checkName name = .ok () ∧ ⟨serial, name, [], [], [], false, false⟩ = t := by
  simp only [create, bind_eq_ok, pure_eq_ok]
  exact ⟨fun ⟨_, h⟩ => h, fun h => ⟨(), h⟩⟩

theorem inOrder_of_create {serial : Nat} {name : String} {t : Transform}
    (h : create serial name = .ok t) : t.InOrder := by
  obtain ⟨_, rfl⟩ := create_eq_ok.mp h
  refine ⟨List.nodup_nil, fun d p hp => ?_, fun d => ?_⟩
  · cases d <;> cases hp
  · cases d <;> exact List.nodup_nil

/-- Only the constants matter when the ports are the same. -/
theorem InOrder.of_portsOf_eq {t t' : Transform} (ht : t.InOrder)
    (hc : (t'.constants.map (·.name)).Nodup) (hp : ∀ d, t'.portsOf d = t.portsOf d) :
    t'.InOrder := by
  refine ⟨hc, fun d p h => ?_, fun d => ?_⟩
  · exact ht.direction d p (hp d ▸ h)
  · rw [hp d]
    exact ht.names d

theorem InOrder.withMemory {t : Transform} (h : t.InOrder) (reads writes : Bool) :
    (t.withMemory reads writes).InOrder :=
  h.of_portsOf_eq h.constants fun d => by cases d <;> rfl

theorem InOrder.addConstant {t t' : Transform} (ht : t.InOrder) {c : Constant}
    (h : t.addConstant c = (t', .ok ())) : t'.InOrder := by
  obtain ⟨hnew, rfl⟩ := addConstant_eq_ok.mp h
  refine ht.of_portsOf_eq ?_ fun d => by cases d <;> rfl
  rw [List.map_append]
  exact List.nodup_append.mpr ⟨ht.constants, by simp, by simpa using hnew⟩

theorem InOrder.addPortTo {t t' : Transform} (ht : t.InOrder) {d : Direction} {p : Port}
    (h : t.addPortTo d p = (t', .ok ())) : t'.InOrder := by
  obtain ⟨hdir, hnew, rfl⟩ := addPortTo_eq_ok.mp h
  refine ⟨by simpa using ht.constants, fun e q hq => ?_, fun e => ?_⟩
  · rw [portsOf_appendPort] at hq
    split at hq
    · rename_i he
      rcases List.mem_append.mp hq with hq | hq
      · exact ht.direction e q hq
      · rw [List.mem_singleton.mp hq, hdir, he]
    · exact ht.direction e q hq
  · rw [portsOf_appendPort]
    split
    · rename_i he
      subst e
      rw [List.map_append]
      exact List.nodup_append.mpr ⟨ht.names d, by simp, by simpa using hnew⟩
    · exact ht.names e

/-! ## Identities -/

theorem ports_appendPort_perm (t : Transform) (p : Port) (d : Direction) :
    (t.appendPort p d).ports.Perm (t.ports ++ [p]) := by
  cases d with
  | input =>
    rw [ports_eq, ports_eq, List.append_assoc]
    exact (List.append_assoc t.inputs [p] t.outputs).symm ▸ List.perm_append_comm.append_left _
  | output => simp [ports, appendPort]

/-- **Growing by new ports**: the transform is the same one, and its identities are the old ones
and those that belong to the counters from `n` up to `n'`. -/
structure Extends (t t' : Transform) (n n' : Nat) : Prop where
  serial : t'.serial = t.serial
  ids : ∃ k, n' = n + k ∧ (t'.ports.map (·.id)).Perm
    (t.ports.map (·.id) ++ (List.range' n k).map Ident.ofCounter)

theorem Extends.of_ports_eq {t t' : Transform} (hs : t'.serial = t.serial)
    (hp : t'.ports = t.ports) (n : Nat) : t.Extends t' n n :=
  ⟨hs, 0, rfl, by simp [hp]⟩

theorem Extends.trans {t t' t'' : Transform} {n n' n'' : Nat} (h : t.Extends t' n n')
    (h' : t'.Extends t'' n' n'') : t.Extends t'' n n'' := by
  obtain ⟨k, rfl, hk⟩ := h.ids
  obtain ⟨k', rfl, hk'⟩ := h'.ids
  refine ⟨h'.serial.trans h.serial, k + k', Nat.add_assoc n k k', ?_⟩
  rw [← List.range'_append_1, List.map_append, ← List.append_assoc]
  exact hk'.trans (hk.append_right _)

end Transform

namespace Port
variable {name : String} {type : PortType} {d : Direction} {n n' : Nat} {p : Port} {e : Error}

theorem create_eq_ok : create name type d n = (n', .ok p) ↔
    checkName name = .ok () ∧ ⟨Ident.ofCounter n, name, type, d⟩ = p ∧ n + 1 = n' := by
  unfold create
  cases checkName name with
  | error e => simp
  | ok u => simp [Ident.allocate, and_comm]

theorem create_of_name (h : checkName name = .ok ()) (type : PortType) (d : Direction) (n : Nat) :
    create name type d n = (n + 1, .ok ⟨Ident.ofCounter n, name, type, d⟩) :=
  create_eq_ok.mpr ⟨h, rfl, rfl⟩

/-- **A refused name takes no identity.** -/
theorem create_eq_error :
    create name type d n = (n', .error e) ↔ checkName name = .error e ∧ n = n' := by
  unfold create
  cases checkName name with
  | error e' => simp [and_comm]
  | ok u => simp [Ident.allocate]

end Port

namespace Store
variable {s s' : Store} {name : String} {v : Option Value} {c : Constant} {e : Error}

/-- A constant is made in the next cell. -/
theorem createConstant_eq_ok :
    s.createConstant name v = (s', .ok c) ↔
      checkName name = .ok () ∧ ⟨name, ⟨s.next⟩⟩ = c ∧ (s.allocate v).2 = s' := by
  unfold createConstant
  cases checkName name with
  | error e => simp
  | ok u => simp [allocate, and_comm]

theorem createConstant_of_name (h : checkName name = .ok ()) (v : Option Value) (s : Store) :
    s.createConstant name v = ((s.allocate v).2, .ok ⟨name, ⟨s.next⟩⟩) :=
  createConstant_eq_ok.mpr ⟨h, rfl, rfl⟩

/-- **A refused name takes no cell.** -/
theorem createConstant_eq_error :
    s.createConstant name v = (s', .error e) ↔ checkName name = .error e ∧ s = s' := by
  unfold createConstant
  cases checkName name with
  | error e' => simp [and_comm]
  | ok u => simp

end Store

namespace Transform

/-- A single port takes one identity. -/
theorem extends_addPortTo {t t' : Transform} {d : Direction} {p : Port} {n : Nat}
    (hp : p.id = Ident.ofCounter n) (h : t.addPortTo d p = (t', .ok ())) : t.Extends t' n (n + 1) := by
  obtain ⟨_, _, rfl⟩ := addPortTo_eq_ok.mp h
  refine ⟨by cases d <;> rfl, 1, rfl, ?_⟩
  simpa [hp] using (ports_appendPort_perm t p d).map (·.id)

/-- **One port after the other.**  The next port is refused for its name, or it is made and refused,
or it comes into its list and the rest follow. -/
theorem addNewPorts_cons (d : Direction) (name : String) (type : PortType)
    (rest : List (String × PortType)) (t : Transform) (n : Nat) :
    (∃ e, checkName name = .error e ∧
      t.addNewPorts d ((name, type) :: rest) n = ((t, n), .error e)) ∨
    (∃ e, checkName name = .ok () ∧ name ∈ (t.portsOf d).map (·.name) ∧
      t.addNewPorts d ((name, type) :: rest) n = ((t, n + 1), .error e)) ∨
    (∃ t₁, checkName name = .ok () ∧
      t.addPortTo d ⟨Ident.ofCounter n, name, type, d⟩ = (t₁, .ok ()) ∧
      t.addNewPorts d ((name, type) :: rest) n = t₁.addNewPorts d rest (n + 1)) := by
  cases hname : checkName name with
  | error e =>
    have hcreate : Port.create name type d n = (n, .error e) := Port.create_eq_error.mpr ⟨hname, rfl⟩
    exact Or.inl ⟨e, rfl, by simp only [addNewPorts, hcreate]⟩
  | ok u =>
    have hcreate := Port.create_of_name hname type d n
    refine Or.inr ?_
    rcases hadd : t.addPortTo d ⟨Ident.ofCounter n, name, type, d⟩ with ⟨t₁, e | u⟩
    · obtain rfl := addPortTo_of_error hadd
      refine Or.inl ⟨e, rfl, Classical.byContradiction fun hnew => ?_, ?_⟩
      · cases congrArg Prod.snd (hadd.symm.trans (addPortTo_eq_ok.mpr ⟨rfl, hnew, rfl⟩))
      · simp only [addNewPorts, hcreate, hadd]
    · exact Or.inr ⟨t₁, rfl, rfl, by simp only [addNewPorts, hcreate, hadd]⟩

/-- Making ports never sets the counter back, whatever comes of it. -/
theorem le_addNewPorts (d : Direction) (specs : List (String × PortType)) (t : Transform) (n : Nat) :
    n ≤ (t.addNewPorts d specs n).1.2 := by
  induction specs generalizing t n with
  | nil => exact Nat.le_refl n
  | cons spec rest ih =>
    obtain ⟨name, type⟩ := spec
    rcases addNewPorts_cons d name type rest t n with
      ⟨e, -, heq⟩ | ⟨e, -, -, heq⟩ | ⟨t₁, -, -, heq⟩
    · exact heq ▸ Nat.le_refl n
    · rw [heq]
      exact Nat.le_succ n
    · rw [heq]
      exact Nat.le_of_succ_le (ih t₁ (n + 1))

/-- **What new ports do to a transform.**  The ports have the identities that the counter went through;
the name and the constants stay. -/
theorem addNewPorts_extends {d : Direction} {specs : List (String × PortType)} {t t' : Transform}
    {n n' : Nat} (h : t.addNewPorts d specs n = ((t', n'), .ok ())) :
    t.Extends t' n n' ∧ (t.InOrder → t'.InOrder) ∧ t'.name = t.name ∧
      t'.constants = t.constants := by
  -- both the transform and the counter move on from one port to the next
  induction specs generalizing t n with
  | nil =>
    cases h
    exact ⟨Extends.of_ports_eq rfl rfl _, id, rfl, rfl⟩
  | cons spec rest ih =>
    rcases addNewPorts_cons d spec.1 spec.2 rest t n with
      ⟨e, -, heq⟩ | ⟨e, -, -, heq⟩ | ⟨t₁, -, hadd, heq⟩
    · cases heq.symm.trans h
    · cases heq.symm.trans h
    · obtain ⟨hext, hord, hname, hconstants⟩ := ih (heq.symm.trans h)
      have hone : t.Extends t₁ n (n + 1) := extends_addPortTo rfl hadd
      refine ⟨hone.trans hext, fun ht => hord (ht.addPortTo hadd), ?_⟩
      obtain ⟨-, -, rfl⟩ := addPortTo_eq_ok.mp hadd
      rw [hname, hconstants, name_appendPort, constants_appendPort]
      exact ⟨rfl, rfl⟩

/-- **One constant after the other.**  The next constant is refused for its name, or it gets a cell and
is refused, or it comes into the list and the rest follow. -/
theorem addNewConstants_cons (name : String) (v : Option Value)
    (rest : List (String × Option Value)) (t : Transform) (s : Store) :
    (∃ e, checkName name = .error e ∧
      t.addNewConstants ((name, v) :: rest) s = ((t, s), .error e)) ∨
    (∃ e, checkName name = .ok () ∧
      t.addNewConstants ((name, v) :: rest) s = ((t, (s.allocate v).2), .error e)) ∨
    (∃ t₁, checkName name = .ok () ∧ t.addConstant ⟨name, ⟨s.next⟩⟩ = (t₁, .ok ()) ∧
      t.addNewConstants ((name, v) :: rest) s = t₁.addNewConstants rest (s.allocate v).2) := by
  cases hname : checkName name with
  | error e =>
    have hcreate : s.createConstant name v = (s, .error e) :=
      Store.createConstant_eq_error.mpr ⟨hname, rfl⟩
    exact Or.inl ⟨e, rfl, by simp only [addNewConstants, hcreate]⟩
  | ok u =>
    have hcreate := Store.createConstant_of_name hname v s
    refine Or.inr ?_
    rcases hadd : t.addConstant ⟨name, ⟨s.next⟩⟩ with ⟨t₁, e | u⟩
    · obtain rfl := addConstant_of_error hadd
      exact Or.inl ⟨e, rfl, by simp only [addNewConstants, hcreate, hadd]⟩
    · exact Or.inr ⟨t₁, rfl, rfl, by simp only [addNewConstants, hcreate, hadd]⟩

/-- **What new constants do to a transform.**  They come behind those that are there, under their names;
the ports stay. -/
theorem addNewConstants_extends {specs : List (String × Option Value)} {t t' : Transform}
    {s s' : Store} (h : t.addNewConstants specs s = ((t', s'), .ok ())) :
    t'.serial = t.serial ∧ t'.ports = t.ports ∧ (t.InOrder → t'.InOrder) ∧ t'.name = t.name ∧
      t'.constants.map (·.name) = t.constants.map (·.name) ++ specs.map (·.1) := by
  induction specs generalizing t s with
  | nil =>
    cases h
    exact ⟨rfl, rfl, id, rfl, (List.append_nil _).symm⟩
  | cons spec rest ih =>
    rcases addNewConstants_cons spec.1 spec.2 rest t s with
      ⟨e, -, heq⟩ | ⟨e, -, heq⟩ | ⟨t₁, -, hadd, heq⟩
    · cases heq.symm.trans h
    · cases heq.symm.trans h
    · obtain ⟨hserial, hports, hord, hname, hnames⟩ := ih (heq.symm.trans h)
      have hord' : t.InOrder → t₁.InOrder := fun ht => ht.addConstant hadd
      obtain ⟨-, rfl⟩ := addConstant_eq_ok.mp hadd
      refine ⟨hserial, hports, fun ht => hord (hord' ht), hname, ?_⟩
      rw [hnames, List.map_append, List.append_assoc]
      rfl

/-- **The cells of constants that are made for a transform can be taken back**, wherever the making
ended. -/
theorem release_addNewConstants (specs : List (String × Option Value)) (t : Transform) (s : Store)
    {first : Nat} (h : first ≤ s.next) :
    (t.addNewConstants specs s).1.2.release first = s.release first := by
  induction specs generalizing t s with
  | nil => rfl
  | cons spec rest ih =>
    obtain ⟨name, v⟩ := spec
    rcases addNewConstants_cons name v rest t s with
      ⟨e, -, heq⟩ | ⟨e, -, heq⟩ | ⟨t₁, -, -, heq⟩
    · rw [heq]
    · rw [heq]
      exact s.release_allocate v h
    · have hnext : first ≤ (s.allocate v).2.next := by
        rw [Store.next_allocate]
        omega
      rw [heq, ih t₁ _ hnext]
      exact s.release_allocate v h

end Transform

namespace Workshop

/-! ## Single parts -/

section Single
variable {w w' : Workshop} {name : String} {e : Error}

theorem createPort_eq_ok {type : PortType} {d : Direction} {p : Port} :
    w.createPort name type d = (w', .ok p) ↔
      ∃ n, Port.create name type d w.nextPort = (n, .ok p) ∧ { w with nextPort := n } = w' := by
  unfold createPort
  rcases Port.create name type d w.nextPort with ⟨n, e | q⟩
  · simp
  · constructor
    · intro h
      cases h
      exact ⟨n, rfl, rfl⟩
    · rintro ⟨_, h, rfl⟩
      cases h
      rfl

/-- **A refused port leaves the workshop as it was.** -/
theorem createPort_eq_error {type : PortType} {d : Direction} :
    w.createPort name type d = (w', .error e) ↔ checkName name = .error e ∧ w = w' := by
  constructor
  · intro h
    unfold createPort at h
    rcases hp : Port.create name type d w.nextPort with ⟨n, e' | p⟩
    · obtain ⟨hname, rfl⟩ := Port.create_eq_error.mp hp
      rw [hp] at h
      cases h
      exact ⟨hname, rfl⟩
    · rw [hp] at h
      cases h
  · rintro ⟨hname, rfl⟩
    unfold createPort
    rw [Port.create_eq_error.mpr ⟨hname, rfl⟩]

theorem createConstant_eq_ok {v : Option Value} {c : Constant} :
    w.createConstant name v = (w', .ok c) ↔
      ∃ store, w.store.createConstant name v = (store, .ok c) ∧ { w with store := store } = w' := by
  unfold createConstant
  rcases w.store.createConstant name v with ⟨store, e | d⟩
  · simp
  · constructor
    · intro h
      cases h
      exact ⟨store, rfl, rfl⟩
    · rintro ⟨_, h, rfl⟩
      cases h
      rfl

/-- **A refused constant leaves the workshop as it was.** -/
theorem createConstant_eq_error {v : Option Value} :
    w.createConstant name v = (w', .error e) ↔ checkName name = .error e ∧ w = w' := by
  constructor
  · intro h
    unfold createConstant at h
    rcases hc : w.store.createConstant name v with ⟨store, e' | c⟩
    · obtain ⟨hname, rfl⟩ := Store.createConstant_eq_error.mp hc
      rw [hc] at h
      cases h
      exact ⟨hname, rfl⟩
    · rw [hc] at h
      cases h
  · rintro ⟨hname, rfl⟩
    unfold createConstant
    rw [Store.createConstant_eq_error.mpr ⟨hname, rfl⟩]

end Single

/-! ## Plans -/

/-- The counters of `w'` have gone on from those of `w`. -/
structure Precedes (w w' : Workshop) : Prop where
  nextPort : w.nextPort ≤ w'.nextPort
  nextSerial : w.nextSerial ≤ w'.nextSerial

theorem Precedes.refl (w : Workshop) : w.Precedes w := ⟨Nat.le_refl _, Nat.le_refl _⟩

theorem Precedes.trans {w w' w'' : Workshop} (h : w.Precedes w') (h' : w'.Precedes w'') :
    w.Precedes w'' :=
  ⟨Nat.le_trans h.nextPort h'.nextPort, Nat.le_trans h.nextSerial h'.nextSerial⟩

theorem makePorts_cases (plan : Plan) (t : Transform) (n : Nat) :
    (∃ t₁ n₁ e, t.addNewPorts .input plan.inputs n = ((t₁, n₁), .error e) ∧
      makePorts plan t n = ((t₁, n₁), .error e)) ∨
    (∃ t₁ n₁, t.addNewPorts .input plan.inputs n = ((t₁, n₁), .ok ()) ∧
      makePorts plan t n = t₁.addNewPorts .output plan.outputs n₁) := by
  rcases h : t.addNewPorts .input plan.inputs n with ⟨⟨t₁, n₁⟩, e | u⟩
  · exact Or.inl ⟨t₁, n₁, e, rfl, by simp only [makePorts, h]⟩
  · exact Or.inr ⟨t₁, n₁, rfl, by simp only [makePorts, h]⟩

theorem le_makePorts (plan : Plan) (t : Transform) (n : Nat) : n ≤ (makePorts plan t n).1.2 := by
  have hle := t.le_addNewPorts .input plan.inputs n
  rcases makePorts_cases plan t n with ⟨t₁, n₁, e, hin, heq⟩ | ⟨t₁, n₁, hin, heq⟩
  · rw [hin] at hle
    rw [heq]
    exact hle
  · rw [hin] at hle
    rw [heq]
    exact Nat.le_trans hle (t₁.le_addNewPorts .output plan.outputs n₁)

theorem makePorts_extends {plan : Plan} {t t' : Transform} {n n' : Nat}
    (h : makePorts plan t n = ((t', n'), .ok ())) :
    t.Extends t' n n' ∧ (t.InOrder → t'.InOrder) ∧ t'.name = t.name ∧
      t'.constants = t.constants := by
  rcases makePorts_cases plan t n with ⟨t₁, n₁, e, -, heq⟩ | ⟨t₁, n₁, hin, heq⟩
  · cases heq.symm.trans h
  · obtain ⟨hext, hord, hname, hconstants⟩ := Transform.addNewPorts_extends hin
    obtain ⟨hext', hord', hname', hconstants'⟩ := Transform.addNewPorts_extends (heq.symm.trans h)
    exact ⟨hext.trans hext', fun ht => hord' (hord ht), hname'.trans hname,
      hconstants'.trans hconstants⟩

/-- **A planned transform has been made stage by stage.** -/
theorem make_eq_ok {w w' : Workshop} {plan : Plan} {t : Transform}
    (h : w.make plan = (w', .ok t)) : ∃ t₁ store,
      checkName plan.name = .ok () ∧
      makePorts plan ⟨w.nextSerial, plan.name, [], [], [], plan.readsMemory, plan.writesMemory⟩
        w.nextPort = ((t₁, w'.nextPort), .ok ()) ∧
      t₁.addNewConstants plan.constants w.store = ((t, store), .ok ()) ∧
      w' = ⟨w'.nextPort, w.nextSerial + 1, store, w.log⟩ := by
  unfold make at h
  split at h
  · cases h
  · rename_i t₀ hcreate
    obtain ⟨hname, rfl⟩ := Transform.create_eq_ok.mp hcreate
    split at h
    · cases h
    · rename_i t₁ n hports
      split at h
      · cases h
      · rename_i t₂ store hconstants
        cases h
        exact ⟨t₁, store, hname, hports, hconstants, rfl⟩

/-- **What making a planned transform gives**: a transform in order with the next serial, whose
ports have the identities that the counter went through. -/
structure Makes (w w' : Workshop) (t : Transform) : Prop where
  inOrder : t.InOrder
  serial : t.serial = w.nextSerial
  nextSerial : w'.nextSerial = w.nextSerial + 1
  ids : ∃ k, w'.nextPort = w.nextPort + k ∧
    (t.ports.map (·.id)).Perm ((List.range' w.nextPort k).map Ident.ofCounter)

theorem make_precedes (w : Workshop) (plan : Plan) : w.Precedes (w.make plan).1 := by
  unfold make
  split
  · exact Precedes.refl w
  · rename_i t ht
    have hle := le_makePorts plan (t.withMemory plan.readsMemory plan.writesMemory) w.nextPort
    split
    · rename_i h
      rw [h] at hle
      exact ⟨hle, Nat.le_refl _⟩
    · rename_i h
      rw [h] at hle
      split
      · exact ⟨hle, Nat.le_refl _⟩
      · exact ⟨hle, Nat.le_succ _⟩

theorem make_makes {w w' : Workshop} {plan : Plan} {t : Transform}
    (h : w.make plan = (w', .ok t)) : w.Makes w' t := by
  obtain ⟨t₁, store, hname, hports, hconstants, hw⟩ := make_eq_ok h
  obtain ⟨hext, hord, -⟩ := makePorts_extends hports
  -- the constants come last and leave the ports alone
  obtain ⟨hserial, hps, hord', -⟩ := Transform.addNewConstants_extends hconstants
  obtain ⟨k, hk, hids⟩ := hext.ids
  have hempty : Transform.InOrder
      ⟨w.nextSerial, plan.name, [], [], [], plan.readsMemory, plan.writesMemory⟩ :=
    (Transform.inOrder_of_create (Transform.create_eq_ok.mpr ⟨hname, rfl⟩)).withMemory _ _
  refine ⟨hord' (hord hempty), hserial.trans hext.serial, congrArg (·.nextSerial) hw, k, hk, ?_⟩
  rw [hps]
  exact hids

end Workshop

/-! ## Plans that are refused -/

/-- How many of these ports are made, in order, until one is refused.  A refused name takes no
identity; a port whose name is taken in its list has one already when it is refused. -/
def portsMade (taken : List (Direction × String)) : List (Direction × String) → Nat
  | [] => 0
  | port :: rest =>
    match checkName port.2 with
    | .error _ => 0
    | .ok _ => if port ∈ taken then 1 else portsMade (port :: taken) rest + 1

namespace Plan

/-- The ports of the plan by direction and name, in the order in which they are made. -/
def portNames (plan : Plan) : List (Direction × String) :=
  plan.inputs.map (fun port => (.input, port.1)) ++ plan.outputs.map fun port => (.output, port.1)

/-- How many ports of the plan are made until something is refused. -/
def portsMade (plan : Plan) : Nat :=
  match checkName plan.name with
  | .error _ => 0
  | .ok _ => Dataflow.portsMade [] plan.portNames

end Plan

namespace Transform

/-- The names taken in the lists of the transform. -/
def Takes (t : Transform) (taken : List (Direction × String)) : Prop :=
  ∀ d name, (d, name) ∈ taken ↔ name ∈ (t.portsOf d).map (·.name)

theorem Takes.appendPort {t : Transform} {taken : List (Direction × String)} (h : t.Takes taken)
    (p : Port) (d : Direction) : (t.appendPort p d).Takes ((d, p.name) :: taken) := by
  intro e name
  rw [List.mem_cons, h e name, portsOf_appendPort]
  by_cases he : e = d
  · simp [he, or_comm]
  · simp [he]

/-- Making ports moves the counter on by the number of ports that are made, whatever is to be made
after them. -/
theorem addNewPorts_portsMade (d : Direction) (specs : List (String × PortType)) {t : Transform}
    {taken : List (Direction × String)} (ht : t.Takes taken) (n : Nat)
    (later : List (Direction × String)) :
    match t.addNewPorts d specs n with
    | ((_, n'), .error _) =>
      n' = n + portsMade taken (specs.map (fun spec => (d, spec.1)) ++ later)
    | ((t', n'), .ok ()) => ∃ taken', t'.Takes taken' ∧ n' + portsMade taken' later =
        n + portsMade taken (specs.map (fun spec => (d, spec.1)) ++ later) := by
  induction specs generalizing t taken n with
  | nil => exact ⟨taken, ht, rfl⟩
  | cons spec rest ih =>
    rw [List.map_cons, List.cons_append, portsMade]
    rcases addNewPorts_cons d spec.1 spec.2 rest t n with
      ⟨e, hname, heq⟩ | ⟨e, hname, htaken, heq⟩ | ⟨t₁, hname, hadd, heq⟩
    · simp only [heq, hname, Nat.add_zero]
    · simp only [heq, hname, if_pos ((ht d spec.1).mpr htaken)]
    · obtain ⟨-, hnew, rfl⟩ := addPortTo_eq_ok.mp hadd
      have hnew : (d, spec.1) ∉ taken := mt (ht d spec.1).mp hnew
      simp only [heq, hname, if_neg hnew]
      have ht₁ : (t.appendPort _ d).Takes ((d, spec.1) :: taken) :=
        ht.appendPort ⟨Ident.ofCounter n, spec.1, spec.2, d⟩ d
      have hrest := ih ht₁ (n + 1)
      split at hrest
      · omega
      · obtain ⟨taken', ht', hcount⟩ := hrest
        exact ⟨taken', ht', by omega⟩

theorem takes_of_create {serial : Nat} {name : String} {t : Transform}
    (h : create serial name = .ok t) (reads writes : Bool) :
    (t.withMemory reads writes).Takes [] := by
  obtain ⟨-, rfl⟩ := create_eq_ok.mp h
  intro d name'
  cases d <;> simp [withMemory, portsOf]

end Transform

namespace Workshop

/-- The ports of a plan move the counter on by the number of ports that are made. -/
theorem makePorts_portsMade (plan : Plan) {t : Transform} (ht : t.Takes []) (n : Nat) :
    (makePorts plan t n).1.2 = n + Dataflow.portsMade [] plan.portNames := by
  have hin := Transform.addNewPorts_portsMade .input plan.inputs ht n
    (plan.outputs.map fun port => (.output, port.1))
  rcases makePorts_cases plan t n with ⟨t₁, n₁, e, h, heq⟩ | ⟨t₁, n₁, h, heq⟩
  · rw [h] at hin
    rw [heq]
    exact hin
  · rw [h] at hin
    obtain ⟨taken, ht₁, hcount⟩ := hin
    -- nothing comes after the outputs
    have hout := Transform.addNewPorts_portsMade .output plan.outputs ht₁ n₁ []
    rw [List.append_nil] at hout
    rw [heq]
    rcases hr : t₁.addNewPorts .output plan.outputs n₁ with ⟨⟨t₂, n₂⟩, e | u⟩
    · simp only [hr] at hout
      simp only [Plan.portNames]
      omega
    · simp only [hr] at hout
      obtain ⟨taken', -, hcount'⟩ := hout
      have hnil : Dataflow.portsMade taken' [] = 0 := rfl
      simp only [Plan.portNames]
      omega

/-- A plan moves the counter on by the number of ports that are made, whatever comes of it. -/
theorem nextPort_make (w : Workshop) (plan : Plan) :
    (w.make plan).1.nextPort = w.nextPort + plan.portsMade := by
  unfold make Plan.portsMade
  split
  · rename_i e hcreate
    cases hname : checkName plan.name with
    | error _ => rfl
    | ok _ =>
      rw [Transform.create_eq_ok.mpr ⟨hname, rfl⟩] at hcreate
      cases hcreate
  · rename_i t hcreate
    obtain ⟨hname, -⟩ := Transform.create_eq_ok.mp hcreate
    have hcount := makePorts_portsMade plan
      (Transform.takes_of_create hcreate plan.readsMemory plan.writesMemory) w.nextPort
    simp only [hname]
    rw [← hcount]
    split
    · rename_i hports
      rw [hports]
    · rename_i hports
      rw [hports]
      split
      · rfl
      · rfl

/-- **A refused plan has used up the identities of the ports that were made, and nothing else.**  The
cells of the constants that were made have been taken back. -/
theorem make_eq_error {w w' : Workshop} {plan : Plan} {e : Error}
    (h : w.make plan = (w', .error e)) :
    w' = { w with nextPort := w.nextPort + plan.portsMade } := by
  have hcounter := w.nextPort_make plan
  rw [h] at hcounter
  have hrest : w' = { w with nextPort := w'.nextPort } := by
    unfold make at h
    split at h
    · cases h
      rfl
    · split at h
      · cases h
        rfl
      · rename_i t₁ n hports
        split at h
        · rename_i t₂ store e' hconstants
          have hstore := t₁.release_addNewConstants plan.constants w.store (Nat.le_refl _)
          rw [hconstants, w.store.release_next] at hstore
          have hstore : store.release w.store.next = w.store := hstore
          cases h
          rw [hstore]
        · cases h
  rw [hrest, hcounter]

end Workshop

end Dataflow
