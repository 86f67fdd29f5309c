import Dataflow.Proofs.Transform.Building
import Dataflow.Resolve

/-!
# The life of a cell

Two things happen to the cells of a store: a cell is handed out, with an initial value or with none,
and a cell that has been handed out is written to.  `Store.Becomes` follows a store through a list of
such changes.  A store that starts empty gives every cell that it has handed out the value of the last
write to it, or its initial value (`Store.Becomes.life`), and this is all that the list says about the
cell (`Change.Life`).

Everything that works on a store is such a list of changes: making a constant, making a transform from
a plan, and resolving a constant, where a computation may set a further constant on the way
(`Store.resolve_becomes`).
-/

namespace Dataflow

/-- The transform that a computed value works on. -/
def Value.owner? : Value → Option Transform
  | .computed (.rebind owner _ _) => some owner
  | .computed (.chain owner _ _) => some owner
  | _ => none

/-! ## Changes -/

/-- What happens to a cell. -/
inductive Change
  /-- It is handed out, with an initial value or with none. -/
  | made (c : Cell) (initial : Option Value)
  | written (c : Cell) (v : Value)

namespace Change

/-- The cell that changes. -/
def cell : Change → Cell
  | made c _ => c
  | written c _ => c

/-- The value that comes in. -/
def value? : Change → Option Value
  | made _ initial => initial
  | written _ v => some v

/-- Cells that are handed out one after another, with these initial values. -/
def madeFrom (next : Nat) : List (Option Value) → List Change
  | [] => []
  | v :: rest => .made ⟨next⟩ v :: madeFrom (next + 1) rest

/-- The values that are written to a cell, oldest first. -/
def writesTo (c : Cell) : List Change → List Value
  | [] => []
  | .made _ _ :: rest => writesTo c rest
  | .written d v :: rest => if d = c then v :: writesTo c rest else writesTo c rest

/-- **The life of a cell that has this value in the end.**  It is handed out once, nothing happens to
it before, and its value is that of the last write, or the initial one if there was none. -/
def Life (changes : List Change) (c : Cell) (value : Option Value) : Prop :=
  ∃ before initial after, changes = before ++ .made c initial :: after ∧
    (∀ change ∈ before, change.cell ≠ c) ∧ (∀ v, .made c v ∉ after) ∧
    value = (writesTo c after).getLast?.or initial

theorem madeFrom_append (next : Nat) (vs vs' : List (Option Value)) :
    madeFrom next (vs ++ vs') = madeFrom next vs ++ madeFrom (next + vs.length) vs' := by
  induction vs generalizing next with
  | nil => rfl
  | cons v rest ih =>
    rw [List.cons_append, madeFrom, madeFrom, ih, List.cons_append, List.length_cons,
      Nat.add_right_comm, Nat.add_assoc]

/-- What comes in with new cells is one of their initial values. -/
theorem value?_of_mem_madeFrom {next : Nat} {vs : List (Option Value)} {change : Change}
    (h : change ∈ madeFrom next vs) : change.value? ∈ vs := by
  induction vs generalizing next with
  | nil => cases h
  | cons v rest ih =>
    rcases List.mem_cons.mp h with rfl | h
    · exact List.mem_cons_self ..
    · exact List.mem_cons_of_mem v (ih h)

/-- A change of another cell is no part of the life of a cell. -/
theorem Life.cons {changes : List Change} {c : Cell} {value : Option Value} {change : Change}
    (h : Life changes c value) (hne : change.cell ≠ c) : Life (change :: changes) c value := by
  obtain ⟨before, initial, after, rfl, hbefore, hafter, hvalue⟩ := h
  exact ⟨change :: before, initial, after, rfl, List.forall_mem_cons.mpr ⟨hne, hbefore⟩, hafter,
    hvalue⟩

theorem getLast?_writesTo_written (c : Cell) (v : Value) (rest : List Change) (old : Option Value) :
    (writesTo c (.written c v :: rest)).getLast?.or old =
      (writesTo c rest).getLast?.or (some v) := by
  rw [writesTo, if_pos rfl, List.getLast?_cons]
  cases (writesTo c rest).getLast? <;> rfl

end Change

namespace Store

/-! ## Stores that change -/

/-- **The store becomes another one by these changes**: cells are handed out in order, and only cells
that have been handed out are written to. -/
inductive Becomes : Store → List Change → Store → Prop
  | nil (s : Store) : Becomes s [] s
  | made {s s' : Store} {rest : List Change} (v : Option Value)
      (h : Becomes (s.allocate v).2 rest s') : Becomes s (.made ⟨s.next⟩ v :: rest) s'
  | written {s s' : Store} {c : Cell} {v : Value} {rest : List Change} (hc : c.index < s.next)
      (h : Becomes (s.write c v) rest s') : Becomes s (.written c v :: rest) s'

/-- The store has a value that works on the transform. -/
def Mentions (s : Store) (t : Transform) : Prop :=
  ∃ c v, s.valueAt? c = some v ∧ v.owner? = some t

section Becomes
variable {s s' s'' : Store} {changes changes' : List Change}

theorem Becomes.append (h : s.Becomes changes s') (h' : s'.Becomes changes' s'') :
    s.Becomes (changes ++ changes') s'' := by
  induction h with
  | nil s => exact h'
  | made v _ ih => exact .made v (ih h')
  | written hc _ ih => exact .written hc (ih h')

theorem Becomes.eq_of_nil (h : s.Becomes [] s') : s' = s := by
  cases h
  rfl

theorem Becomes.eq_of_written {c : Cell} {v : Value} (h : s.Becomes [.written c v] s') :
    s' = s.write c v := by
  cases h with
  | written hc h => exact h.eq_of_nil

theorem Becomes.next_le (h : s.Becomes changes s') : s.next ≤ s'.next := by
  induction h with
  | nil s => exact Nat.le_refl _
  | made v _ ih =>
    rw [next_allocate] at ih
    omega
  | written hc _ ih => exact next_write _ hc _ ▸ ih

/-- A cell that is there already is written to, but not handed out. -/
theorem Becomes.old (h : s.Becomes changes s') {c : Cell} (hc : c.index < s.next) :
    (∀ v, .made c v ∉ changes) ∧
      s'.valueAt? c = (Change.writesTo c changes).getLast?.or (s.valueAt? c) := by
  induction h with
  | nil s => exact ⟨fun v hv => (nomatch hv), rfl⟩
  | @made s s' rest v _ ih =>
    have hne : (⟨s.next⟩ : Cell) ≠ c := by
      rintro rfl
      exact Nat.lt_irrefl _ hc
    obtain ⟨hmade, hvalue⟩ := ih (by rw [next_allocate]; omega)
    refine ⟨fun w hw => ?_, ?_⟩
    · rcases List.mem_cons.mp hw with heq | hw
      · exact hne (Change.made.inj heq).1.symm
      · exact hmade w hw
    · rw [valueAt?_allocate, if_neg hne] at hvalue
      exact hvalue
  | @written s s' d v rest hd _ ih =>
    obtain ⟨hmade, hvalue⟩ := ih (next_write s hd v ▸ hc)
    refine ⟨fun w hw => ?_, ?_⟩
    · rcases List.mem_cons.mp hw with heq | hw
      · cases heq
      · exact hmade w hw
    · rw [valueAt?_write] at hvalue
      by_cases hdc : d = c
      · subst hdc
        rw [hvalue, if_pos rfl, Change.getLast?_writesTo_written]
      · rw [hvalue, if_neg hdc, Change.writesTo, if_neg hdc]

/-- A cell that is handed out on the way has its whole life among the changes. -/
theorem Becomes.new (h : s.Becomes changes s') {c : Cell} (hlo : s.next ≤ c.index)
    (hhi : c.index < s'.next) : Change.Life changes c (s'.valueAt? c) := by
  induction h with
  | nil s => omega
  | @made s s' rest v h ih =>
    by_cases hc : (⟨s.next⟩ : Cell) = c
    · -- its life begins here, and for the rest of the changes it is there already
      have hlt : c.index < (s.allocate v).2.next := by
        rw [next_allocate, ← hc]
        exact Nat.lt_succ_self _
      obtain ⟨hmade, hvalue⟩ := h.old hlt
      rw [valueAt?_allocate, if_pos hc] at hvalue
      exact ⟨[], v, rest, by rw [hc]; rfl, fun _ hnil => (nomatch hnil), hmade, hvalue⟩
    · have hne : s.next ≠ c.index := fun heq => hc (congrArg Cell.mk heq)
      exact (ih (by rw [next_allocate]; omega) hhi).cons hc
  | @written s s' d v rest hd h ih =>
    have hne : d ≠ c := by
      rintro rfl
      omega
    exact (ih (next_write s hd v ▸ hlo) hhi).cons hne

/-- **Every cell of a store that began empty has lived through the changes.** -/
theorem Becomes.life (h : empty.Becomes changes s) {c : Cell} (hc : c.index < s.next) :
    Change.Life changes c (s.valueAt? c) :=
  h.new (Nat.zero_le _) hc

/-- A value has been there, or it came in with a change. -/
theorem Becomes.valueAt?_cases (h : s.Becomes changes s') {c : Cell} {w : Value}
    (hw : s'.valueAt? c = some w) :
    s.valueAt? c = some w ∨ ∃ change ∈ changes, change.value? = some w := by
  induction h with
  | nil s => exact Or.inl hw
  | @made s s' rest v h ih =>
    rcases ih hw with hold | ⟨change, hmem, hvalue⟩
    · rw [valueAt?_allocate] at hold
      split at hold
      · exact Or.inr ⟨_, List.mem_cons_self .., hold⟩
      · exact Or.inl hold
    · exact Or.inr ⟨change, List.mem_cons_of_mem _ hmem, hvalue⟩
  | @written s s' d v rest hd h ih =>
    rcases ih hw with hold | ⟨change, hmem, hvalue⟩
    · rw [valueAt?_write] at hold
      split at hold
      · exact Or.inr ⟨_, List.mem_cons_self .., hold⟩
      · exact Or.inl hold
    · exact Or.inr ⟨change, List.mem_cons_of_mem _ hmem, hvalue⟩

/-- What a store works on has been there, or it came in with a change. -/
theorem Becomes.mentions (h : s.Becomes changes s') {t : Transform} (ht : s'.Mentions t) :
    s.Mentions t ∨
      ∃ change ∈ changes, ∃ v, change.value? = some v ∧ v.owner? = some t := by
  obtain ⟨c, v, hv, howner⟩ := ht
  rcases h.valueAt?_cases hv with hold | ⟨change, hmem, hvalue⟩
  · exact Or.inl ⟨c, v, hold, howner⟩
  · exact Or.inr ⟨change, hmem, v, hvalue, howner⟩

end Becomes

/-! ## Making constants -/

theorem Becomes.createConstant {s s' : Store} {name : String} {v : Option Value} {c : Constant}
    (h : s.createConstant name v = (s', .ok c)) :
    s.Becomes (Change.madeFrom s.next [v]) s' := by
  obtain ⟨-, -, rfl⟩ := createConstant_eq_ok.mp h
  exact .made v (.nil _)

end Store

namespace Transform

/-- The cells of the constants. -/
def cells (t : Transform) : List Cell := t.constants.map (·.cell)

theorem mem_cells_of_mem {t : Transform} {c : Constant} (h : c ∈ t.constants) :
    c.cell ∈ t.cells := List.mem_map.mpr ⟨c, h, rfl⟩

/-- The constants that are made for a transform are in the next cells, one after another. -/
theorem addNewConstants_becomes {specs : List (String × Option Value)} {t t' : Transform}
    {s s' : Store} (h : t.addNewConstants specs s = ((t', s'), .ok ())) :
    s.Becomes (Change.madeFrom s.next (specs.map (·.2))) s' ∧ s'.next = s.next + specs.length ∧
      t'.cells = t.cells ++ (List.range' s.next specs.length).map Cell.mk := by
  induction specs generalizing t s with
  | nil =>
    cases h
    exact ⟨.nil _, rfl, by simp⟩
  | cons spec rest ih =>
    obtain ⟨name, v⟩ := spec
    rcases addNewConstants_cons name v rest t s with
      ⟨e, -, heq⟩ | ⟨e, -, heq⟩ | ⟨t₁, -, hadd, heq⟩
    · cases heq.symm.trans h
    · cases heq.symm.trans h
    · obtain ⟨-, rfl⟩ := addConstant_eq_ok.mp hadd
      obtain ⟨hs, hnext, hcells⟩ := ih (heq.symm.trans h)
      rw [Store.next_allocate] at hs hnext hcells
      refine ⟨.made v hs, by rw [hnext, List.length_cons]; omega, ?_⟩
      rw [hcells, List.length_cons, List.range'_succ, List.map_cons, cells, List.map_append,
        List.append_assoc]
      rfl

end Transform

namespace Workshop

/-- **What making a planned transform does to the store**: its constants are in the next cells. -/
structure Fills (w w' : Workshop) (t : Transform) (values : List (Option Value)) : Prop where
  store : w.store.Becomes (Change.madeFrom w.store.next values) w'.store
  next : w'.store.next = w.store.next + values.length
  cells : t.cells = (List.range' w.store.next values.length).map Cell.mk

theorem make_fills {w w' : Workshop} {plan : Plan} {t : Transform}
    (h : w.make plan = (w', .ok t)) : w.Fills w' t (plan.constants.map (·.2)) := by
  obtain ⟨t₁, store, -, hports, hconstants, hw⟩ := make_eq_ok h
  obtain ⟨hstore, hnext, hcells⟩ := Transform.addNewConstants_becomes hconstants
  -- the ports have no cells
  obtain ⟨-, -, -, hnone⟩ := makePorts_extends hports
  rw [Transform.cells, Transform.cells, hnone] at hcells
  rw [hw]
  exact ⟨hstore, by rw [hnext, List.length_map], by rw [List.length_map]; exact hcells⟩

end Workshop

/-! ## Resolving -/

namespace Store

/-- The writes of a resolution along at most `steps` chains: it ends at a constant that is not
chained to another one, and if that constant sets a further one, this is written. -/
def rebindingsWithin (steps : Nat) (s : Store) (c : Constant) (records : List Profile) :
    List Change :=
  if records = [] then [] else
    match s.value c with
    | .ok (.computed (.rebind owner name text)) =>
      match owner.constant name with
      | .ok d => [.written d.cell (.literal text)]
      | .error _ => []
    | .ok (.computed (.chain owner name skip)) =>
      match owner.constant name, steps with
      | .ok d, steps + 1 => rebindingsWithin steps s d (records.drop skip)
      | _, _ => []
    | _ => []

/-- The writes of a resolution. -/
def rebindings (s : Store) (c : Constant) (records : List Profile) : List Change :=
  s.rebindingsWithin (s.chainLimit records) c records

theorem value_eq_ok {s : Store} {c : Constant} {v : Value} :
    s.value c = .ok v ↔ s.valueAt? c.cell = some v := by
  unfold value
  cases s.valueAt? c.cell <;> simp

end Store

theorem Store.value_eq_error {s : Store} {c : Constant} {e : Error} (h : s.value c = .error e) :
    s.valueAt? c.cell = none := by
  cases hv : s.valueAt? c.cell with
  | none => rfl
  | some v =>
    rw [Store.value_eq_ok.mpr hv] at h
    cases h

theorem Transform.mem_constants_of_constant {t : Transform} {name : String} {c : Constant}
    (h : t.constant name = .ok c) : c ∈ t.constants ∧ c.name = name := by
  unfold constant at h
  split at h
  · rename_i d hd
    cases h
    exact ⟨List.mem_of_find?_eq_some hd, by simpa using List.find?_some hd⟩
  · cases h

namespace Store

/-- Setting a constant of a transform is a write to its cell, if the transform has the constant. -/
theorem rebind_becomes {s : Store} {owner : Transform} (name text : String)
    (records : List Profile) (hs : ∀ c ∈ owner.cells, c.index < s.next) :
    s.Becomes (match owner.constant name with
      | .ok d => [.written d.cell (.literal text)]
      | .error _ => []) (s.rebind owner name text records).2 := by
  unfold rebind
  cases hd : owner.constant name with
  | error e => exact .nil s
  | ok d =>
    exact .written (hs d.cell (Transform.mem_cells_of_mem
      (Transform.mem_constants_of_constant hd).1)) (.nil _)

/-- A resolution does to the store what its writes do, and if it never ends, it does nothing. -/
theorem resolveWithin_becomes {s : Store} (steps : Nat) (c : Constant) (records : List Profile)
    (hs : ∀ t, s.Mentions t → ∀ c ∈ t.cells, c.index < s.next) :
    s.Becomes (s.rebindingsWithin steps c records)
      (((s.resolveWithin steps c records).map (·.2)).getD s) := by
  fun_induction resolveWithin steps s c records with
  | case1 _ c records e hv =>
    rw [rebindingsWithin]
    simp only [hv, ite_self]
    exact .nil s
  | case2 _ c records text hv =>
    rw [rebindingsWithin]
    simp only [hv, ite_self]
    exact .nil s
  | case3 _ c f hv =>
    rw [rebindingsWithin, if_pos rfl]
    exact .nil s
  | case4 _ c records hr m hv =>
    rw [rebindingsWithin]
    simp only [hv, ite_self]
    exact .nil s
  | case5 _ c records hr owner name text answer s' hrebind hv =>
    rw [rebindingsWithin]
    simp only [hv, if_neg hr]
    have hmentions : s.Mentions owner := ⟨c.cell, _, value_eq_ok.mp hv, rfl⟩
    have hbecomes := rebind_becomes name text records (hs owner hmentions)
    rw [hrebind] at hbecomes
    exact hbecomes
  | case6 _ c records hr owner name skip e hd hv =>
    rw [rebindingsWithin]
    simp only [hv, hd, if_neg hr]
    exact .nil s
  | case7 c records hr owner name skip d hd hv =>
    rw [rebindingsWithin]
    simp only [hv, hd, if_neg hr]
    exact .nil s
  | case8 c records hr owner name skip d hd steps hv ih =>
    rw [rebindingsWithin]
    simp only [hv, hd, if_neg hr, Option.map_map]
    exact ih

/-- **A resolution does to the store what its writes do.** -/
theorem resolve_becomes {s : Store} (c : Constant) (records : List Profile)
    (hs : ∀ t, s.Mentions t → ∀ c ∈ t.cells, c.index < s.next) :
    s.Becomes (s.rebindings c records) (s.resolve c records).2 := by
  have h := resolveWithin_becomes (s.chainLimit records) c records hs
  unfold resolve
  cases hr : s.resolveWithin (s.chainLimit records) c records with
  | none =>
    rw [hr] at h
    exact h
  | some r =>
    rw [hr] at h
    exact h

/-- At most one constant is set in a resolution, to a literal; it is one that a computation in the
store works on. -/
theorem rebindingsWithin_cases (steps : Nat) (s : Store) (c : Constant) (records : List Profile) :
    s.rebindingsWithin steps c records = [] ∨
      ∃ cell v owner name d text, s.valueAt? cell = some v ∧ v.owner? = some owner ∧
        owner.constant name = .ok d ∧
        s.rebindingsWithin steps c records = [.written d.cell (.literal text)] := by
  fun_induction rebindingsWithin steps s c records with
  | case1 => exact Or.inl rfl
  | case2 _ c records hr owner name text hv d hd =>
    exact Or.inr ⟨c.cell, _, owner, name, d, text, value_eq_ok.mp hv, rfl, hd, rfl⟩
  | case3 => exact Or.inl rfl
  | case4 _ _ _ _ _ _ _ _ _ _ ih => exact ih
  | case5 => exact Or.inl rfl
  | case6 => exact Or.inl rfl

end Store

end Dataflow
