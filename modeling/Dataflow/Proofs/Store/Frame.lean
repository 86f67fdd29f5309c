import Dataflow.Proofs.Store.Resolution

/-!
# What resolution reads and writes

A constant is read once, when its resolution begins, and from then on its computation is the one that
was read, whatever happens to the constant (`Store.resolve_of_computed`).  A computation may set a
constant, even the one that it was read from, but it comes at the end: before it there are only chains,
which set nothing (`Store.Resolves.exists_chains`).  So a resolution changes the value of one constant at
most, and a resolution that meets no such computation leaves the store as it was.  Any number of those
give what each of them gives alone (`Store.resolveAll_of_quiet`).
-/

namespace Dataflow

namespace Computation

/-- The computation takes over the text of a constant. -/
def isChain : Computation → Bool
  | .chain _ _ _ => true
  | _ => false

/-- The computation sets a constant. -/
def isRebind : Computation → Bool
  | .rebind _ _ _ => true
  | _ => false

end Computation

namespace Store

/-- What a computation gives for the records when it runs in the store: its text, and the store
afterwards. -/
def compute (s : Store) (records : List Profile) : Computation → String × Store
  | .measure m => (m records, s)
  | .rebind owner name text => s.rebind owner name text records
  | .chain owner name skip =>
    match owner.constant name with
    | .error e => (chainText (.error e), s)
    | .ok d =>
      let (answer, s') := s.resolve d (records.drop skip)
      (chainText answer, s')

/-- The store after a computation that is not a chain, or after none at all. -/
def afterLast (s : Store) : Option Computation → Store
  | some (.rebind owner name text) =>
    match owner.constant name with
    | .ok d => s.set d (.literal text)
    | .error _ => s
  | _ => s

/-- Resolving the constant sets no constant. -/
def Quiet (s : Store) (c : Constant) (records : List Profile) : Prop :=
  ∃ calls, s.Resolves c records calls (s.resolve c records).1 (s.resolve c records).2 ∧
    ∀ f ∈ calls, f.isRebind = false

/-- Resolves constants one after another, each in the store that the one before has left. -/
def resolveAll (s : Store) :
    List (Constant × List Profile) → List (Except Error String) × Store
  | [] => ([], s)
  | (c, records) :: rest =>
    let (answer, s') := s.resolve c records
    let (answers, s'') := s'.resolveAll rest
    (answer :: answers, s'')

section Resolves
variable {s s' : Store} {c : Constant} {records : List Profile} {calls : List Computation}
  {answer : Except Error String}

/-! ## Reading -/

/-- The rules determine what resolution gives. -/
theorem Resolves.resolve_of_shortens (h : s.Resolves c records calls answer s') (hs : s.Shortens) :
    s.resolve c records = (answer, s') := by
  obtain ⟨calls', h', -⟩ := resolve_resolves hs c records
  obtain ⟨-, hanswer, hstore⟩ := h.unique h'
  exact Prod.ext hanswer hstore

/-- With records, the computation that the constant is bound to runs first. -/
theorem Resolves.head?_calls (h : s.Resolves c records calls answer s') {f : Computation}
    (hv : s.valueAt? c.cell = some (.computed f)) (hr : records ≠ []) : calls.head? = some f := by
  cases h with
  | unassigned _ hv' => exact absurd (hv.symm.trans hv') nofun
  | literal _ hv' => exact absurd (hv.symm.trans hv') nofun
  | noRecords hv' => exact absurd rfl hr
  | measure hv' _ | rebind hv' _ | strayChain hv' _ _ | chain hv' _ _ _ =>
    cases hv.symm.trans hv'
    rfl

/-- **A constant that is bound to a computation resolves to what this computation gives in the store
of that moment.** -/
theorem resolve_of_computed (hs : s.Shortens) {f : Computation}
    (hv : s.valueAt? c.cell = some (.computed f)) (hr : records ≠ []) :
    s.resolve c records = (.ok (s.compute records f).1, (s.compute records f).2) := by
  cases f with
  | measure m => exact (Resolves.measure hv hr).resolve_of_shortens hs
  | rebind owner name text => exact (Resolves.rebind hv hr).resolve_of_shortens hs
  | chain owner name skip =>
    cases hd : owner.constant name with
    | error e =>
      have heq := (Resolves.strayChain hv hr hd).resolve_of_shortens hs
      simpa only [compute, hd] using heq
    | ok d =>
      obtain ⟨calls, h, -⟩ := resolve_resolves hs d (records.drop skip)
      have heq := (Resolves.chain hv hr hd h).resolve_of_shortens hs
      simpa only [compute, hd] using heq

/-! ## Writing -/

theorem snd_rebind (s : Store) (owner : Transform) (name text : String) (records : List Profile) :
    (s.rebind owner name text records).2 = s.afterLast (some (.rebind owner name text)) := by
  cases hd : owner.constant name <;> simp only [rebind, afterLast, hd]

/-- **Chains run first, and a single computation at their end may write.** -/
theorem Resolves.exists_chains (h : s.Resolves c records calls answer s') :
    ∃ chains last, calls = chains ++ last.toList ∧ (∀ f ∈ chains, f.isChain = true) ∧
      (∀ f ∈ last, f.isChain = false) ∧ s' = s.afterLast last := by
  induction h with
  | unassigned => exact ⟨[], none, rfl, nofun, nofun, rfl⟩
  | literal => exact ⟨[], none, rfl, nofun, nofun, rfl⟩
  | noRecords => exact ⟨[], none, rfl, nofun, nofun, rfl⟩
  | @measure _ _ m => exact ⟨[], some (.measure m), rfl, nofun, by simp [Computation.isChain], rfl⟩
  | @rebind _ records owner name text =>
    exact ⟨[], some (.rebind owner name text), rfl, nofun, by simp [Computation.isChain],
      s.snd_rebind owner name text records⟩
  | @strayChain _ _ owner name skip =>
    exact ⟨[.chain owner name skip], none, rfl, List.forall_mem_singleton.mpr rfl, nofun, rfl⟩
  | @chain _ _ _ owner name skip _ _ _ hv hr hd h ih =>
    obtain ⟨chains, last, rfl, hchains, hlast, rfl⟩ := ih
    exact ⟨.chain owner name skip :: chains, last, rfl, List.forall_mem_cons.mpr ⟨rfl, hchains⟩,
      hlast, rfl⟩

/-- What sets no constant leaves the store as it was. -/
theorem afterLast_of_isRebind {last : Option Computation} (h : ∀ f ∈ last, f.isRebind = false) :
    s.afterLast last = s := by
  cases last with
  | none => rfl
  | some f =>
    cases f with
    | measure | chain => rfl
    | rebind owner name text => exact absurd (h _ rfl) (by simp [Computation.isRebind])

theorem Resolves.eq_of_quiet (h : s.Resolves c records calls answer s')
    (hcalls : ∀ f ∈ calls, f.isRebind = false) : s' = s := by
  obtain ⟨chains, last, rfl, -, -, rfl⟩ := h.exists_chains
  exact afterLast_of_isRebind fun f hf =>
    hcalls f (List.mem_append_right chains (Option.mem_toList.mpr hf))

/-- **Resolutions that set no constant do not see each other**: one after another, they give what each
of them gives alone. -/
theorem resolveAll_of_quiet {queries : List (Constant × List Profile)}
    (h : ∀ q ∈ queries, s.Quiet q.1 q.2) :
    s.resolveAll queries = (queries.map fun q => (s.resolve q.1 q.2).1, s) := by
  induction queries with
  | nil => rfl
  | cons q rest ih =>
    obtain ⟨⟨calls, hresolves, hcalls⟩, hrest⟩ := List.forall_mem_cons.mp h
    have hstore := hresolves.eq_of_quiet hcalls
    simp only [resolveAll, hstore, ih hrest, List.map_cons]

end Resolves

/-- **What resolving a constant reads and writes**, when these computations run for it. -/
structure ReadsOnce (s : Store) (c : Constant) (records : List Profile) (calls : List Computation) :
    Prop where
  unassigned : s.valueAt? c.cell = none →
    s.resolve c records = (.error (.unboundValue c.name .unassigned), s) ∧ calls = []
  noRecords : ∀ f, s.valueAt? c.cell = some (.computed f) → records = [] →
    s.resolve c records = (.error (.unboundValue c.name .noRecords), s) ∧ calls = []
  literal : ∀ text, s.valueAt? c.cell = some (.literal text) →
    s.resolve c records = (.ok text, s) ∧ calls = []
  /-- The computation is the one that the constant is bound to when the resolution begins. -/
  computed : ∀ f, s.valueAt? c.cell = some (.computed f) → records ≠ [] →
    s.resolve c records = (.ok (s.compute records f).1, (s.compute records f).2) ∧
      calls.head? = some f
  /-- Only the last computation is not a chain. -/
  chainsFirst : ∃ (chains : List Computation) (last : Option Computation),
    calls = chains ++ last.toList ∧ (∀ f ∈ chains, f.isChain = true) ∧ ∀ f ∈ last, f.isChain = false
  /-- The constant that is set is the one that the last computation names. -/
  target : ∀ owner name text d, .rebind owner name text ∈ calls → owner.constant name = .ok d →
    calls.getLast? = some (.rebind owner name text) ∧
      (s.resolve c records).2 = s.set d (.literal text)
  otherCells : ∀ cell, (s.resolve c records).2.valueAt? cell ≠ s.valueAt? cell →
    ∃ owner name text d, .rebind owner name text ∈ calls ∧ owner.constant name = .ok d ∧
      cell = d.cell
  keeps : (∀ f ∈ calls, f.isRebind = false) → (s.resolve c records).2 = s

section Resolves
variable {s s' : Store} {c : Constant} {records : List Profile} {calls : List Computation}
  {answer : Except Error String}

theorem Resolves.target (h : s.Resolves c records calls answer s') {owner : Transform}
    {name text : String} {d : Constant} (hf : .rebind owner name text ∈ calls)
    (hd : owner.constant name = .ok d) :
    calls.getLast? = some (.rebind owner name text) ∧ s' = s.set d (.literal text) := by
  obtain ⟨chains, last, rfl, hchains, -, rfl⟩ := h.exists_chains
  rcases List.mem_append.mp hf with hf | hf
  · exact absurd (hchains _ hf) (by simp [Computation.isChain])
  · obtain rfl := Option.mem_toList.mp hf
    exact ⟨List.getLast?_concat, by simp only [afterLast, hd]⟩

theorem Resolves.otherCells (h : s.Resolves c records calls answer s') {cell : Cell}
    (hcell : s'.valueAt? cell ≠ s.valueAt? cell) :
    ∃ owner name text d, .rebind owner name text ∈ calls ∧ owner.constant name = .ok d ∧
      cell = d.cell := by
  obtain ⟨chains, last, rfl, -, -, rfl⟩ := h.exists_chains
  -- only a rebinding at the end can have touched the cell, and only that of its target
  rcases last with _ | (_ | ⟨owner, name, text⟩ | _)
  case some.rebind =>
    cases hd : owner.constant name with
    | error e => simp [afterLast, hd] at hcell
    | ok d =>
      have heq : cell = d.cell := Decidable.byContradiction fun hne => hcell <| by
        simp only [afterLast, hd, set, valueAt?_write, if_neg (Ne.symm hne)]
      exact ⟨owner, name, text, d, List.mem_append_right chains (List.mem_singleton_self _), hd, heq⟩
  all_goals exact absurd rfl hcell

theorem Resolves.readsOnce (hs : s.Shortens)
    (h : s.Resolves c records calls (s.resolve c records).1 (s.resolve c records).2) :
    s.ReadsOnce c records calls where
  unassigned hv := by
    have h' := Resolves.unassigned records hv
    exact ⟨h'.resolve_of_shortens hs, (h'.unique h).1⟩
  noRecords f hv hr := by
    subst hr
    have h' := Resolves.noRecords hv
    exact ⟨h'.resolve_of_shortens hs, (h'.unique h).1⟩
  literal text hv := by
    have h' := Resolves.literal records hv
    exact ⟨h'.resolve_of_shortens hs, (h'.unique h).1⟩
  computed f hv hr := ⟨resolve_of_computed hs hv hr, h.head?_calls hv hr⟩
  chainsFirst := by
    obtain ⟨chains, last, hcalls, hchains, hlast, -⟩ := h.exists_chains
    exact ⟨chains, last, hcalls, hchains, hlast⟩
  target owner name text d hf hd := h.target hf hd
  otherCells cell hcell := h.otherCells hcell
  keeps := h.eq_of_quiet

end Resolves

/-- **Resolution uses the value that is bound when it begins, and writes at most what one rebinding at
the end of the chains writes**; resolutions without one leave no trace. -/
theorem resolve_readsOnce {s : Store} (hs : s.Shortens) (c : Constant) (records : List Profile) :
    (∃ calls, s.Resolves c records calls (s.resolve c records).1 (s.resolve c records).2 ∧
      s.ReadsOnce c records calls) ∧
    ∀ queries : List (Constant × List Profile), (∀ q ∈ queries, s.Quiet q.1 q.2) →
      s.resolveAll queries = (queries.map fun q => (s.resolve q.1 q.2).1, s) := by
  obtain ⟨calls, h, -⟩ := resolve_resolves hs c records
  exact ⟨⟨calls, h, h.readsOnce hs⟩, fun queries hq => resolveAll_of_quiet hq⟩

/-- Two constants of which the first one is chained to the second one, which sets the first one. -/
def boomerang : Store :=
  (empty.write ⟨0⟩ (.computed (.chain pingPong "pong" 1))).write ⟨1⟩
    (.computed (.rebind pingPong "ping" "caught"))

/-- The first constant gives the text of the chain that it was bound to, and holds a literal afterwards.
Nothing is set where the records run out before the second constant. -/
theorem resolve_readsOnce_boomerang : boomerang.Shortens ∧
    (∃ calls, boomerang.Resolves ⟨"ping", ⟨0⟩⟩ threeRecords calls
        (boomerang.resolve ⟨"ping", ⟨0⟩⟩ threeRecords).1
        (boomerang.resolve ⟨"ping", ⟨0⟩⟩ threeRecords).2 ∧
      boomerang.ReadsOnce ⟨"ping", ⟨0⟩⟩ threeRecords calls) ∧
    boomerang.resolve ⟨"ping", ⟨0⟩⟩ threeRecords =
      (.ok "<rebound ping after 2>", boomerang.set ⟨"ping", ⟨0⟩⟩ (.literal "caught")) ∧
    (∀ q ∈ [(⟨"pong", ⟨1⟩⟩, []), (⟨"ping", ⟨0⟩⟩, threeRecords.take 1)],
      boomerang.Quiet q.1 q.2) ∧
    boomerang.resolveAll [(⟨"pong", ⟨1⟩⟩, []), (⟨"ping", ⟨0⟩⟩, threeRecords.take 1)] =
      ([.error (.unboundValue "pong" .noRecords),
        .ok "!Unbound value: constant 'pong' (no profiling records supplied)"], boomerang) := by
  have hs : boomerang.Shortens :=
    (shortens_empty.write ⟨0⟩ fun _ _ _ h => by cases h; decide).write ⟨1⟩ nofun
  have hquiet : ∀ q ∈ [(⟨"pong", ⟨1⟩⟩, []), (⟨"ping", ⟨0⟩⟩, threeRecords.take 1)],
      boomerang.Quiet q.1 q.2 := by
    have hpong : boomerang.Resolves ⟨"pong", ⟨1⟩⟩ [] [] _ _ := .noRecords rfl
    refine List.forall_mem_cons.mpr ⟨⟨[], hpong, nofun⟩, List.forall_mem_singleton.mpr
      ⟨[.chain pingPong "pong" 1], .chain rfl (by decide) rfl hpong, ?_⟩⟩
    exact List.forall_mem_singleton.mpr rfl
  obtain ⟨hcalls, hqueries⟩ := resolve_readsOnce hs ⟨"ping", ⟨0⟩⟩ threeRecords
  exact ⟨hs, hcalls, rfl, hquiet, hqueries _ hquiet⟩

end Store

end Dataflow
