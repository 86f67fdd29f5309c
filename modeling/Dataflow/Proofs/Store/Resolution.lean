import Dataflow.Proofs.Store.Changes

/-!
# Resolution comes to an end

`Store.resolve` follows chains for a limited number of steps.  Beside it stands resolution without a
limit, as rules (`Store.Resolves`): what a constant resolves to, what this does to the store, and which
computations run for it, one after another.  Rules that lead nowhere describe a resolution that never
ends, and no answer is made up for it.

In a store whose chains all leave out a record (`Store.Shortens`), there is no such resolution.  Every
computation that runs has fewer records than the one before, and none runs without records, so there are
no more computations than records (`Store.exists_resolves`), and this many steps suffice
(`Store.Resolves.resolveWithin_eq`).  It does not matter that chains may form cycles.  A cycle is left
when the records have run out, at the constant that comes next, which then has no text
(`Store.exists_leads_of_cyclic`).
-/

namespace Dataflow

namespace Store

/-! ## Resolution as rules -/

/-- **How a constant resolves.**  `Resolves s c records calls answer s'` says that the constant `c` of
the store `s` resolves to this answer, that this makes the store `s'` of it, and that the computations
`calls` run, the one that the constant is bound to first.  A chain runs before the store has changed, so
what it reaches is resolved in the same store. -/
inductive Resolves (s : Store) :
    Constant → List Profile → List Computation → Except Error String → Store → Prop
  | unassigned {c : Constant} (records : List Profile) (hv : s.valueAt? c.cell = none) :
      Resolves s c records [] (.error (.unboundValue c.name .unassigned)) s
  | literal {c : Constant} {text : String} (records : List Profile)
      (hv : s.valueAt? c.cell = some (.literal text)) : Resolves s c records [] (.ok text) s
  | noRecords {c : Constant} {f : Computation} (hv : s.valueAt? c.cell = some (.computed f)) :
      Resolves s c [] [] (.error (.unboundValue c.name .noRecords)) s
  | measure {c : Constant} {records : List Profile} {m : Measure}
      (hv : s.valueAt? c.cell = some (.computed (.measure m))) (hr : records ≠ []) :
      Resolves s c records [.measure m] (.ok (m records)) s
  | rebind {c : Constant} {records : List Profile} {owner : Transform} {name text : String}
      (hv : s.valueAt? c.cell = some (.computed (.rebind owner name text))) (hr : records ≠ []) :
      Resolves s c records [.rebind owner name text] (.ok (s.rebind owner name text records).1)
        (s.rebind owner name text records).2
  /-- The transform has no constant of the name that the chain asks for. -/
  | strayChain {c : Constant} {records : List Profile} {owner : Transform} {name : String} {skip : Nat}
      {e : Error} (hv : s.valueAt? c.cell = some (.computed (.chain owner name skip)))
      (hr : records ≠ []) (hd : owner.constant name = .error e) :
      Resolves s c records [.chain owner name skip] (.ok (chainText (.error e))) s
  | chain {c d : Constant} {records : List Profile} {owner : Transform} {name : String} {skip : Nat}
      {calls : List Computation} {answer : Except Error String} {s' : Store}
      (hv : s.valueAt? c.cell = some (.computed (.chain owner name skip))) (hr : records ≠ [])
      (hd : owner.constant name = .ok d) (h : Resolves s d (records.drop skip) calls answer s') :
      Resolves s c records (.chain owner name skip :: calls) (.ok (chainText answer)) s'

/-- Every chain leaves out a record. -/
def Shortens (s : Store) : Prop :=
  ∀ cell owner name skip, s.valueAt? cell = some (.computed (.chain owner name skip)) → 1 ≤ skip

theorem shortens_empty : empty.Shortens := nofun

/-- What a cell is given matters only if it is a chain. -/
theorem Shortens.write {s : Store} (hs : s.Shortens) (cell : Cell) {v : Value}
    (hv : ∀ owner name skip, v = .computed (.chain owner name skip) → 1 ≤ skip) :
    (s.write cell v).Shortens := by
  intro cell' owner name skip h
  rw [valueAt?_write] at h
  split at h
  · exact hv owner name skip (Option.some.inj h)
  · exact hs cell' owner name skip h

section Resolves
variable {s s' s'' : Store} {c d : Constant} {records : List Profile} {calls calls' : List Computation}
  {answer answer' : Except Error String}

/-- The rules give one answer at most: what the constant is bound to decides which rule applies. -/
theorem Resolves.unique (h : s.Resolves c records calls answer s')
    (h' : s.Resolves c records calls' answer' s'') :
    calls' = calls ∧ answer' = answer ∧ s'' = s' := by
  induction h generalizing calls' answer' s'' with
  | chain hv hr hd h ih =>
    cases h' with
    | chain hv' hr' hd' h' =>
      cases hv.symm.trans hv'
      cases hd.symm.trans hd'
      obtain ⟨rfl, rfl, rfl⟩ := ih h'
      exact ⟨rfl, rfl, rfl⟩
    | _ => simp_all
  | _ => cases h' <;> simp_all

/-- The first computation that runs is the one that the constant is bound to. -/
theorem Resolves.valueAt?_of_cons {f : Computation}
    (h : s.Resolves c records (f :: calls) answer s') :
    s.valueAt? c.cell = some (.computed f) := by
  cases h with
  | measure hv hr => exact hv
  | rebind hv hr => exact hv
  | strayChain hv hr hd => exact hv
  | chain hv hr hd h => exact hv

/-! ## The rules and the limited resolution -/

theorem value_of_unassigned (hv : s.valueAt? c.cell = none) :
    s.value c = .error (.unboundValue c.name .unassigned) := by
  unfold value
  rw [hv]

/-- **As many steps as computations run are enough.** -/
theorem Resolves.resolveWithin_eq (h : s.Resolves c records calls answer s') {steps : Nat}
    (hsteps : calls.length ≤ steps) : s.resolveWithin steps c records = some (answer, s') := by
  induction h generalizing steps with
  | unassigned records hv =>
    rw [resolveWithin, value_of_unassigned hv]
  | literal records hv =>
    rw [resolveWithin, value_eq_ok.mpr hv]
  | noRecords hv =>
    rw [resolveWithin, value_eq_ok.mpr hv]
    exact if_pos rfl
  | measure hv hr =>
    rw [resolveWithin, value_eq_ok.mpr hv]
    exact if_neg hr
  | rebind hv hr =>
    rw [resolveWithin, value_eq_ok.mpr hv]
    exact if_neg hr
  | strayChain hv hr hd =>
    rw [resolveWithin, value_eq_ok.mpr hv]
    simp only [if_neg hr, hd]
  | chain hv hr hd h ih =>
    cases steps with
    | zero => exact absurd hsteps (Nat.not_succ_le_zero _)
    | succ steps =>
      rw [resolveWithin, value_eq_ok.mpr hv]
      simp only [if_neg hr, hd, ih (Nat.le_of_succ_le_succ hsteps), Option.map_some]

/-- A bound cell and the records are enough for as many chains as there are records. -/
theorem length_le_chainLimit {cell : Cell} {v : Value} (hv : s.valueAt? cell = some v)
    (records : List Profile) : records.length ≤ s.chainLimit records := by
  have hmem : cell ∈ s.cells.keys := Table.mem_keys_iff.mpr ⟨v, hv⟩
  have hpos : 0 < s.cells.size := by
    rw [← Table.length_keys]
    exact List.length_pos_of_mem hmem
  exact Nat.le_mul_of_pos_left _ hpos

/-- **What the rules say is what resolution gives**, if they need no more computations than there are
records. -/
theorem Resolves.resolve_eq (h : s.Resolves c records calls answer s')
    (hcalls : calls.length ≤ records.length) : s.resolve c records = (answer, s') := by
  have hsteps : calls.length ≤ s.chainLimit records := by
    cases calls with
    | nil => exact Nat.zero_le _
    | cons f rest => exact Nat.le_trans hcalls (length_le_chainLimit h.valueAt?_of_cons records)
  unfold resolve
  rw [h.resolveWithin_eq hsteps]
  rfl

/-! ## Termination -/

/-- **Resolution ends when every chain leaves out a record**, after no more computations than there are
records.  The induction is on the number of records: a chain goes on with fewer of them, and a
constant that is reached without records runs nothing. -/
theorem exists_resolves (hs : s.Shortens) (c : Constant) (records : List Profile) :
    ∃ calls answer s', s.Resolves c records calls answer s' ∧ calls.length ≤ records.length := by
  induction hn : records.length using Nat.strongRecOn generalizing c records with
  | ind n ih =>
    subst hn
    cases hv : s.valueAt? c.cell with
    | none => exact ⟨_, _, _, .unassigned records hv, Nat.zero_le _⟩
    | some v =>
      cases v with
      | literal text => exact ⟨_, _, _, .literal records hv, Nat.zero_le _⟩
      | computed f =>
        by_cases hr : records = []
        · subst hr
          exact ⟨_, _, _, .noRecords hv, Nat.le_refl 0⟩
        · have hpos : 0 < records.length := List.length_pos_iff.mpr hr
          cases f with
          | measure m => exact ⟨_, _, _, .measure hv hr, hpos⟩
          | rebind owner name text => exact ⟨_, _, _, .rebind hv hr, hpos⟩
          | chain owner name skip =>
            cases hd : owner.constant name with
            | error e => exact ⟨_, _, _, .strayChain hv hr hd, hpos⟩
            | ok d =>
              have hskip := hs _ _ _ _ hv
              have hlen := List.length_drop (i := skip) (l := records)
              obtain ⟨calls, answer, s', h, hcalls⟩ :=
                ih _ (by omega) d (records.drop skip) rfl
              refine ⟨_, _, _, .chain hv hr hd h, ?_⟩
              rw [List.length_cons]
              omega

/-- Resolution follows the rules. -/
theorem resolve_resolves (hs : s.Shortens) (c : Constant) (records : List Profile) :
    ∃ calls, s.Resolves c records calls (s.resolve c records).1 (s.resolve c records).2 ∧
      calls.length ≤ records.length := by
  obtain ⟨calls, answer, s', h, hcalls⟩ := exists_resolves hs c records
  rw [h.resolve_eq hcalls]
  exact ⟨calls, h, hcalls⟩

/-! ## Chains that form a cycle -/

/-- The constant is bound to a chain that takes over the text of the other one and leaves out this many
records. -/
def ChainsTo (s : Store) (c d : Constant) (skip : Nat) : Prop :=
  ∃ owner name, s.valueAt? c.cell = some (.computed (.chain owner name skip)) ∧
    owner.constant name = .ok d

/-- So many chains lead from one constant to another one, and leave these records. -/
inductive Leads (s : Store) : Nat → Constant → List Profile → Constant → List Profile → Prop
  | here (c : Constant) (records : List Profile) : Leads s 0 c records c records
  | on {n skip : Nat} {c d e : Constant} {records rest : List Profile} (hr : records ≠ [])
      (hd : s.ChainsTo c d skip) (h : Leads s n d (records.drop skip) e rest) :
      Leads s (n + 1) c records e rest

/-- Every one of the constants is chained to one of them. -/
def Cyclic (s : Store) (cycle : List Constant) : Prop :=
  ∀ c ∈ cycle, ∃ d ∈ cycle, ∃ skip, s.ChainsTo c d skip

/-- What so many chains make of what is found at their end. -/
def chained : Nat → Except Error String → Except Error String
  | 0, answer => answer
  | n + 1, answer => .ok (chainText (chained n answer))

/-- A constant resolves to what the chains make of the constant that they lead to. -/
theorem Leads.resolves {n : Nat} {rest : List Profile} (h : s.Leads n c records d rest)
    (hd : s.Resolves d rest calls answer s') :
    ∃ chains, chains.length = n ∧ s.Resolves c records (chains ++ calls) (chained n answer) s' := by
  induction h with
  | here c records => exact ⟨[], rfl, hd⟩
  | on hr hchain h ih =>
    obtain ⟨owner, name, hv, he⟩ := hchain
    obtain ⟨chains, hlen, hresolves⟩ := ih hd
    exact ⟨_ :: chains, congrArg Nat.succ hlen, .chain hv hr he hresolves⟩

/-- **In a cycle of chains the records run out**: from each of its constants, chains lead to one of them
for which no record is left, and there are no more of these chains than records. -/
theorem exists_leads_of_cyclic (hs : s.Shortens) {cycle : List Constant} (hcycle : s.Cyclic cycle)
    (hc : c ∈ cycle) (records : List Profile) :
    ∃ n d, n ≤ records.length ∧ d ∈ cycle ∧ s.Leads n c records d [] := by
  induction hn : records.length using Nat.strongRecOn generalizing c records with
  | ind n ih =>
    subst hn
    by_cases hr : records = []
    · subst hr
      exact ⟨0, c, Nat.le_refl 0, hc, .here c []⟩
    · have hpos : 0 < records.length := List.length_pos_iff.mpr hr
      obtain ⟨d, hd, skip, hchain⟩ := hcycle c hc
      obtain ⟨owner, name, hv, -⟩ := id hchain
      have hskip := hs _ _ _ _ hv
      have hlen := List.length_drop (i := skip) (l := records)
      obtain ⟨n, e, hn, he, h⟩ := ih _ (by omega) hd (records.drop skip) rfl
      exact ⟨n + 1, e, by omega, he, .on hr hchain h⟩

end Resolves

/-- **Resolution ends, whatever the constants of a store refer to**, as long as every chain leaves out a
record.  The rules give exactly the answer of `resolve`, no more computations run than there are records,
and so many steps suffice to follow the chains.  A cycle of chains ends at the constant that it reaches
when no record is left, and leaves the store as it was. -/
theorem resolution_ends {s : Store} (hs : s.Shortens) (c : Constant) (records : List Profile) :
    (∃ calls, calls.length ≤ records.length ∧ ∀ calls' answer s',
      s.Resolves c records calls' answer s' ↔
        calls' = calls ∧ (answer, s') = s.resolve c records) ∧
    s.resolveWithin records.length c records = some (s.resolve c records) ∧
    ∀ cycle, s.Cyclic cycle → c ∈ cycle → ∃ n d, d ∈ cycle ∧ s.Leads n c records d [] ∧
      s.resolve c records = (chained n (.error (.unboundValue d.name .noRecords)), s) := by
  obtain ⟨calls, h, hcalls⟩ := resolve_resolves hs c records
  refine ⟨⟨calls, hcalls, fun calls' answer s' => ⟨fun h' => ?_, ?_⟩⟩, h.resolveWithin_eq hcalls,
    fun cycle hcycle hc => ?_⟩
  · obtain ⟨rfl, rfl, rfl⟩ := h.unique h'
    exact ⟨rfl, rfl⟩
  · rintro ⟨rfl, heq⟩
    obtain ⟨rfl, rfl⟩ := Prod.mk.inj heq
    exact h
  · obtain ⟨n, d, hn, hd, hleads⟩ := exists_leads_of_cyclic hs hcycle hc records
    obtain ⟨e, -, skip, owner, name, hv, -⟩ := hcycle d hd
    obtain ⟨chains, hlen, hresolves⟩ := hleads.resolves (.noRecords hv)
    have hle : (chains ++ []).length ≤ records.length := by
      rw [List.append_nil, hlen]
      exact hn
    exact ⟨n, d, hd, hleads, hresolves.resolve_eq hle⟩

/-- A transform with two constants. -/
def pingPong : Transform where
  serial := 0
  name := "pingPong"
  constants := [⟨"ping", ⟨0⟩⟩, ⟨"pong", ⟨1⟩⟩]
  inputs := []
  outputs := []
  readsMemory := false
  writesMemory := false

/-- Each of the two constants is chained to the other one; the first chain leaves out one record, the
second one two. -/
def circle : Store :=
  (empty.write ⟨0⟩ (.computed (.chain pingPong "pong" 1))).write ⟨1⟩
    (.computed (.chain pingPong "ping" 2))

/-- Three records that are alike. -/
def threeRecords : List Profile := List.replicate 3 ⟨1, 1, 1, 1, 1, 1⟩

/-- With three records, the chains come back to the first constant when no record is left. -/
theorem resolution_ends_circle : circle.Shortens ∧ circle.Cyclic pingPong.constants ∧
    (∃ calls, calls.length ≤ 3 ∧ ∀ calls' answer s',
      circle.Resolves ⟨"ping", ⟨0⟩⟩ threeRecords calls' answer s' ↔
        calls' = calls ∧ (answer, s') = circle.resolve ⟨"ping", ⟨0⟩⟩ threeRecords) ∧
    (∃ n d, d ∈ pingPong.constants ∧ circle.Leads n ⟨"ping", ⟨0⟩⟩ threeRecords d [] ∧
      circle.resolve ⟨"ping", ⟨0⟩⟩ threeRecords =
        (chained n (.error (.unboundValue d.name .noRecords)), circle)) ∧
    (circle.resolve ⟨"ping", ⟨0⟩⟩ threeRecords).1 =
      .ok "<!Unbound value: constant 'ping' (no profiling records supplied)>" := by
  have hs : circle.Shortens :=
    (shortens_empty.write ⟨0⟩ fun _ _ _ h => by cases h; decide).write ⟨1⟩
      fun _ _ _ h => by cases h; decide
  have hcycle : circle.Cyclic pingPong.constants :=
    List.forall_mem_cons.mpr ⟨⟨⟨"pong", ⟨1⟩⟩, by simp [pingPong], 1, pingPong, "pong", rfl, rfl⟩,
      List.forall_mem_singleton.mpr
        ⟨⟨"ping", ⟨0⟩⟩, by simp [pingPong], 2, pingPong, "ping", rfl, rfl⟩⟩
  obtain ⟨hcalls, -, hends⟩ := resolution_ends hs ⟨"ping", ⟨0⟩⟩ threeRecords
  exact ⟨hs, hcycle, hcalls, hends pingPong.constants hcycle (by simp [pingPong]), rfl⟩

end Store

end Dataflow
