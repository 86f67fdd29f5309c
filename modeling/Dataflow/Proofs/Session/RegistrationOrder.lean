import Dataflow.Proofs.Session.Graphs

/-!
# The order of registrations

Registrations that do not depend on each other can come in any order.

An edge is accepted or refused by what the parent index says about its ends, and registering edges
leaves the index alone.  So every edge of a list gets the answer that it would get alone
(`Graph.edgeRefusals_eq`), and the order shows in the order of the appended edges only
(`Graph.takeEdges_eq`).

With transforms the order shows in more places: slots, and with them the values of both tables,
depend on it.  But what a sound graph answers can be said without slots, by a scan of its
transforms, and a scan for the one transform of a name or of a port does not depend on the order of
the list (`Graph.Sound.sameAnswers`).
-/

namespace Dataflow

namespace Graph

/-! ## Edges one after another -/

/-- Why the graph refuses the edge, if it does. -/
def refusal? (g : Graph) (e : Edge) : Option Error :=
  match (g.addEdge e).result with
  | .ok _ => none
  | .error err => some err

/-- The graph accepts the edge. -/
def accepts (g : Graph) (e : Edge) : Bool := (g.refusal? e).isNone

/-- The graph after an edge was offered, whatever the answer. -/
def takeEdge (g : Graph) (e : Edge) : Graph := (g.addEdge e).graph

/-- The graph after edges were offered one after another. -/
def takeEdges (g : Graph) : List Edge → Graph
  | [] => g
  | e :: rest => (g.takeEdge e).takeEdges rest

/-- The refusals of edges that are offered one after another. -/
def edgeRefusals (g : Graph) : List Edge → List (Option Error)
  | [] => []
  | e :: rest => g.refusal? e :: (g.takeEdge e).edgeRefusals rest

section Edges
variable {g g' : Graph} {e : Edge}

theorem refusal?_eq (g : Graph) (e : Edge) : g.refusal? e =
    (g.ownerlessEnd? e).map fun place => .danglingReference place.1 place.2 g.name := by
  unfold refusal? addEdge
  cases g.ownerlessEnd? e <;> rfl

theorem accepts_iff : g.accepts e = true ↔ g.ownerlessEnd? e = none := by
  rw [accepts, refusal?_eq, Option.isNone_map, Option.isNone_iff_eq_none]

theorem takeEdge_eq (g : Graph) (e : Edge) :
    g.takeEdge e = { g with edges := g.edges ++ [e].filter g.accepts } := by
  have hfilter : [e].filter g.accepts = if g.ownerlessEnd? e = none then [e] else [] := by
    simp only [List.filter_cons, List.filter_nil, accepts_iff]
  rw [hfilter]
  unfold takeEdge addEdge
  cases g.ownerlessEnd? e with
  | none => rfl
  | some place => simp

/-- **What the graph says about an edge does not change by another one**: it depends on the parent
index and on the name of the graph. -/
theorem refusal?_takeEdge (g : Graph) (e : Edge) : (g.takeEdge e).refusal? = g.refusal? := by
  rw [takeEdge_eq]
  exact funext fun e' => (refusal?_eq _ e').trans (refusal?_eq g e').symm

theorem accepts_takeEdge (g : Graph) (e : Edge) : (g.takeEdge e).accepts = g.accepts := by
  unfold accepts
  rw [refusal?_takeEdge]

/-- **Of edges that are offered one after another, those are appended that would be accepted
alone.** -/
theorem takeEdges_eq (g : Graph) (edges : List Edge) :
    g.takeEdges edges = { g with edges := g.edges ++ edges.filter g.accepts } := by
  induction edges generalizing g with
  | nil => simp [takeEdges]
  | cons e rest ih =>
    rw [takeEdges, ih, accepts_takeEdge, takeEdge_eq, List.append_assoc, ← List.filter_append,
      List.singleton_append]

/-- **Every edge gets the answer that it would get alone.** -/
theorem edgeRefusals_eq (g : Graph) (edges : List Edge) :
    g.edgeRefusals edges = edges.map g.refusal? := by
  induction edges generalizing g with
  | nil => rfl
  | cons e rest ih => rw [edgeRefusals, ih, refusal?_takeEdge, List.map_cons]

end Edges

/-- **Two orders of the same edges**: in each, every edge gets the answer that it would get alone,
and the graphs differ only in the order of the edges that were accepted. -/
structure EdgesInAnyOrder (g : Graph) (edges edges' : List Edge) : Prop where
  refusals : g.edgeRefusals edges = edges.map g.refusal? ∧
    g.edgeRefusals edges' = edges'.map g.refusal?
  accepted : g.takeEdges edges = { g with edges := g.edges ++ edges.filter g.accepts } ∧
    g.takeEdges edges' = { g with edges := g.edges ++ edges'.filter g.accepts }
  same : (edges.filter g.accepts).Perm (edges'.filter g.accepts)

theorem edgesInAnyOrder (g : Graph) {edges edges' : List Edge} (h : edges.Perm edges') :
    g.EdgesInAnyOrder edges edges' where
  refusals := ⟨g.edgeRefusals_eq edges, g.edgeRefusals_eq edges'⟩
  accepted := ⟨g.takeEdges_eq edges, g.takeEdges_eq edges'⟩
  same := h.filter g.accepts

/-! ## Graphs that answer alike -/

/-- **Two graphs answer alike**: by name, by identity, for every edge, and when they are checked. -/
structure SameAnswers (g g' : Graph) : Prop where
  transform : ∀ name, g.transform? name = g'.transform? name
  port : ∀ v, g.port? v = g'.port? v
  ownerOfId : ∀ v, g.ownerOfId v = g'.ownerOfId v
  ownerOfPort : ∀ p, g.ownerOfPort p = g'.ownerOfPort p
  describe : ∀ e, g.describe e = g'.describe e
  refusal : ∀ e, g.refusal? e = g'.refusal? e
  validate : g.validate = g'.validate

section SameAnswers
variable {g g' : Graph} (hg : g.Sound) (hg' : g'.Sound) (h : g.transforms.Perm g'.transforms)
  (hl : g.transforms.length ≤ 4294967295)
include hg hg' h

/-- The parent indexes of the two graphs have the same ports. -/
theorem Sound.contains_eq (v : Ident) : g.parents.contains v = g'.parents.contains v := by
  rw [Bool.eq_iff_iff, hg.parents.contains_iff, hg'.parents.contains_iff]
  simp only [h.mem_iff]

include hl

theorem Sound.owner?_eq (v : Ident) : g.owner? v = g'.owner? v := by
  refine Option.ext fun t => ?_
  rw [owner?_eq_some_iff hg.parents hl, owner?_eq_some_iff hg'.parents (h.length_eq ▸ hl),
    h.mem_iff]

/-- **Two sound graphs with the same transforms answer alike**, whatever the order in which the
transforms were registered. -/
theorem Sound.sameAnswers (hname : g.name = g'.name) : g.SameAnswers g' := by
  have hl' : g'.transforms.length ≤ 4294967295 := h.length_eq ▸ hl
  have howner := hg.owner?_eq hg' h hl
  have hport : ∀ v, g.port? v = g'.port? v := by
    intro v
    unfold port?
    rw [howner v]
  have hend : ∀ v, g.describePort v = g'.describePort v := by
    intro v
    unfold describePort
    rw [howner v, hport v]
  refine ⟨?_, hport, ?_, ?_, ?_, ?_, ?_⟩
  · intro name
    refine Option.ext fun t => ?_
    rw [transform?_eq_some_iff hg.slots hl, transform?_eq_some_iff hg'.slots hl', h.mem_iff]
  · intro v
    unfold Graph.ownerOfId
    rw [howner v]
  · intro p
    unfold Graph.ownerOfPort
    rw [howner p.id]
  · intro e
    unfold Graph.describe
    rw [hend e.source, hend e.destination]
  · intro e
    rw [refusal?_eq, refusal?_eq, ownerlessEnd?, ownerlessEnd?, hg.contains_eq hg' h,
      hg.contains_eq hg' h, hname]
  · rw [(hg.validate_eq_ok hl).1, (hg'.validate_eq_ok hl').1]

end SameAnswers

/-! ## Transforms one after another -/

/-- The graph with further transforms. -/
def appendTransforms (g : Graph) (ts : List Transform) : Graph := ts.foldl appendTransform g

theorem appendTransforms_lists (g : Graph) (ts : List Transform) :
    (g.appendTransforms ts).name = g.name ∧
      (g.appendTransforms ts).transforms = g.transforms ++ ts ∧
      (g.appendTransforms ts).edges = g.edges := by
  induction ts generalizing g with
  | nil => exact ⟨rfl, (List.append_nil _).symm, rfl⟩
  | cons t rest ih =>
    obtain ⟨hname, htransforms, hedges⟩ := ih (g.appendTransform t)
    refine ⟨hname, htransforms.trans ?_, hedges⟩
    show g.transforms ++ [t] ++ rest = g.transforms ++ t :: rest
    rw [List.append_assoc, List.singleton_append]

/-- A name that is new stays new until a transform of this name is registered. -/
theorem contains_slots_appendTransform {g : Graph} {t : Transform} {name : String}
    (h : g.slots.contains name = false) (hne : t.name ≠ name) :
    (g.appendTransform t).slots.contains name = false := by
  rw [Table.contains_eq] at h ⊢
  show ((g.slots.insert t.name g.nextSlot).get? name).isSome = false
  rw [Table.get?_insert_of_ne _ _ hne]
  exact h

/-- In a sound graph, a name is new exactly if no transform has it. -/
theorem Sound.contains_slots {g : Graph} (hg : g.Sound) {name : String}
    (h : ∀ t ∈ g.transforms, t.name ≠ name) : g.slots.contains name = false := by
  rw [Bool.eq_false_iff, Ne, hg.slots.contains_iff]
  rintro ⟨t, ht, hname⟩
  exact h t ht (of_decide_eq_true hname)

/-- How a session answers when it offers the edge to the graph. -/
def edgeOutcome (g : Graph) (e : Edge) : Outcome :=
  match g.refusal? e with
  | none => .done (.registered e (g.describe e))
  | some err => .refused err

theorem edgeOutcome_takeEdge (g : Graph) (e : Edge) :
    (g.takeEdge e).edgeOutcome = g.edgeOutcome := by
  funext e'
  have hdescribe : (g.takeEdge e).describe e' = g.describe e' := by
    rw [takeEdge_eq]
    rfl
  unfold edgeOutcome
  rw [refusal?_takeEdge, hdescribe]

end Graph

namespace Session
variable {s : Session} {x y : String} {g : Graph}

/-! ## Edges in a session -/

/-- The steps that offer the edges in these variables to the graph in `x`. -/
def edgeSteps (x : String) (l : List (String × Edge)) : List Step :=
  l.map fun a => .addEdge x a.1

theorem perform_addEdge {e : Edge} (hx : s.Holds x (.graph g)) (hy : s.Holds y (.edge e)) :
    (s.perform (.addEdge x y)).1.Holds x (.graph (g.takeEdge e)) ∧
      (s.perform (.addEdge x y)).2 = g.edgeOutcome e ∧
      ∀ z o, z ≠ x → s.Holds z o → (s.perform (.addEdge x y)).1.Holds z o := by
  rw [Graph.edgeOutcome, Graph.refusal?_eq, Graph.takeEdge]
  cases hend : g.ownerlessEnd? e with
  | some place =>
    rw [addEdge_of_ownerless hx hy hend, Graph.addEdge_of_ownerless hend]
    exact ⟨hx, rfl, fun z o _ hz => hz⟩
  | none =>
    rw [addEdge_of_owned hx hy hend, Graph.addEdge_of_owned hend]
    exact ⟨holds_bind_iff.mpr (Or.inl ⟨rfl, rfl⟩), rfl,
      fun z o hzx hz => holds_bind_iff.mpr (Or.inr ⟨hzx.symm, hz⟩)⟩

/-- **Edges offered one after another**: the graph takes them, and every edge gets the answer that
it would get alone. -/
theorem run_edgeSteps {l : List (String × Edge)} (hx : s.Holds x (.graph g))
    (hl : ∀ a ∈ l, s.Holds a.1 (.edge a.2)) :
    (s.run (edgeSteps x l)).1.Holds x (.graph (g.takeEdges (l.map Prod.snd))) ∧
      (s.run (edgeSteps x l)).2.map (·.outcome) = l.map fun a => g.edgeOutcome a.2 := by
  induction l generalizing s g with
  | nil => exact ⟨hx, rfl⟩
  | cons a rest ih =>
    obtain ⟨ha, hrest⟩ := List.forall_mem_cons.mp hl
    obtain ⟨hx', houtcome, hframe⟩ := perform_addEdge hx ha
    have hrest' : ∀ b ∈ rest, (s.perform (.addEdge x a.1)).1.Holds b.1 (.edge b.2) :=
      fun b hb => hframe b.1 _ ((hrest b hb).ne hx nofun) (hrest b hb)
    obtain ⟨hlast, houtcomes⟩ := ih hx' hrest'
    rw [Graph.edgeOutcome_takeEdge] at houtcomes
    exact ⟨hlast, congrArg₂ List.cons houtcome houtcomes⟩

/-! ## Transforms in a session -/

/-- The steps that offer the open transforms in these variables to the graph in `x`. -/
def transformSteps (x : String) (l : List (String × Transform)) : List Step :=
  l.map fun a => .addTransform x a.1

theorem perform_addTransform {t : Transform} (hx : s.Holds x (.graph g))
    (hy : s.Holds y (.draft t)) (hnew : g.slots.contains t.name = false) :
    (s.perform (.addTransform x y)).1.Holds x (.graph (g.appendTransform t)) ∧
      (s.perform (.addTransform x y)).2 = .done (.text t.name) ∧
      (s.perform (.addTransform x y)).1.workshop.nextPort = s.workshop.nextPort ∧
      ∀ z o, z ≠ x → z ≠ y → s.Holds z o → (s.perform (.addTransform x y)).1.Holds z o := by
  have hyx : y ≠ x := hy.ne hx nofun
  rw [addTransform_of_new hx hy hnew]
  refine ⟨holds_bind_iff.mpr (Or.inr ⟨hyx, holds_bind_iff.mpr (Or.inl ⟨rfl, rfl⟩)⟩), rfl, rfl, ?_⟩
  intro z o hzx hzy hz
  exact holds_bind_iff.mpr (Or.inr ⟨hzy.symm, holds_bind_iff.mpr
    (Or.inr ⟨hzx.symm, holds_unbind_iff.mpr ⟨hzy.symm, hz⟩⟩)⟩)

/-- **Transforms of new names registered one after another**: all are accepted. -/
theorem run_transformSteps {l : List (String × Transform)} (hx : s.Holds x (.graph g))
    (hl : ∀ a ∈ l, s.Holds a.1 (.draft a.2)) (hnames : (l.map (·.2.name)).Nodup)
    (hnew : ∀ a ∈ l, g.slots.contains a.2.name = false) :
    (s.run (transformSteps x l)).1.Holds x (.graph (g.appendTransforms (l.map Prod.snd))) ∧
      (s.run (transformSteps x l)).2.map (·.outcome) = l.map (fun a => .done (.text a.2.name)) ∧
      (s.run (transformSteps x l)).1.workshop.nextPort = s.workshop.nextPort := by
  induction l generalizing s g with
  | nil => exact ⟨hx, rfl, rfl⟩
  | cons a rest ih =>
    obtain ⟨ha, hrest⟩ := List.forall_mem_cons.mp hl
    obtain ⟨hanew, hrestnew⟩ := List.forall_mem_cons.mp hnew
    obtain ⟨hdistinct, hnames⟩ := List.nodup_cons.mp hnames
    have hne : ∀ b ∈ rest, b.2.name ≠ a.2.name := fun b hb h =>
      hdistinct (List.mem_map.mpr ⟨b, hb, h⟩)
    obtain ⟨hx', houtcome, hport, hframe⟩ := perform_addTransform hx ha hanew
    -- another variable still holds its transform: it has another name than the one that is gone
    have hrest' : ∀ b ∈ rest, (s.perform (.addTransform x a.1)).1.Holds b.1 (.draft b.2) := by
      intro b hb
      have hba : b.1 ≠ a.1 := (hrest b hb).ne ha fun h =>
        hne b hb (congrArg (·.name) (Object.draft.inj h))
      exact hframe b.1 _ ((hrest b hb).ne hx nofun) hba (hrest b hb)
    obtain ⟨hlast, houtcomes, hports⟩ := ih hx' hrest' hnames fun b hb =>
      Graph.contains_slots_appendTransform (hrestnew b hb) (hne b hb).symm
    exact ⟨hlast, congrArg₂ List.cons houtcome houtcomes, hports.trans hport⟩

/-- **Two orders of the same open transforms**: all are accepted in both, and the graphs hold them
behind what was there before and answer alike. -/
structure RegistersInAnyOrder (s : Session) (x : String) (g : Graph)
    (l l' : List (String × Transform)) : Prop where
  accepted : (s.run (transformSteps x l)).2.map (·.outcome) =
    l.map fun a => .done (.text a.2.name)
  accepted' : (s.run (transformSteps x l')).2.map (·.outcome) =
    l'.map fun a => .done (.text a.2.name)
  graphs : ∃ g₁ g₂ : Graph, (s.run (transformSteps x l)).1.Holds x (.graph g₁) ∧
    (s.run (transformSteps x l')).1.Holds x (.graph g₂) ∧
    g₁.transforms = g.transforms ++ l.map Prod.snd ∧
    g₂.transforms = g.transforms ++ l'.map Prod.snd ∧
    g₁.edges = g.edges ∧ g₂.edges = g.edges ∧ g₁.SameAnswers g₂

/-- An ordinary run that goes on with registrations is an ordinary run. -/
theorem Ordinary.append_transformSteps {n : Nat} {steps : List Step} (h : Ordinary n steps)
    {l : List (String × Transform)}
    (hport : (((start n).run steps).1.run (transformSteps x l)).1.workshop.nextPort =
      ((start n).run steps).1.workshop.nextPort) : Ordinary n (steps ++ transformSteps x l) where
  keepsRules := by
    intro st hst
    rcases List.mem_append.mp hst with hst | hst
    · exact h.keepsRules st hst
    · obtain ⟨a, -, rfl⟩ := List.mem_map.mp hst
      rfl
  ports := by
    rw [run_append_fst, hport]
    exact h.ports

/-- **One order of registrations**: all are accepted, and the graph stays sound. -/
theorem Ordinary.registers {n : Nat} {steps : List Step} (h : Ordinary n steps)
    (hx : ((start n).run steps).1.Holds x (.graph g)) {l : List (String × Transform)}
    (hl : ∀ a ∈ l, ((start n).run steps).1.Holds a.1 (.draft a.2))
    (hnames : (l.map (·.2.name)).Nodup) (hnew : ∀ a ∈ l, ∀ t ∈ g.transforms, t.name ≠ a.2.name) :
    (((start n).run steps).1.run (transformSteps x l)).1.Holds x
        (.graph (g.appendTransforms (l.map Prod.snd))) ∧
      (((start n).run steps).1.run (transformSteps x l)).2.map (·.outcome) =
        l.map (fun a => .done (.text a.2.name)) ∧
      (g.appendTransforms (l.map Prod.snd)).Sound := by
  have hg : g.Sound := h.sound.object x _ hx
  obtain ⟨hlast, houtcomes, hport⟩ := run_transformSteps hx hl hnames fun a ha =>
    hg.contains_slots (hnew a ha)
  have hsound := (h.append_transformSteps hport).sound
  rw [run_append_fst] at hsound
  exact ⟨hlast, houtcomes, hsound.object x _ hlast⟩

/-- **Registration order of independent items does not matter.**  For a graph of an ordinary run,
any two orders of the same edges are answered alike, edge by edge, and so are any two orders of open
transforms of new names. -/
theorem registration_inAnyOrder {n : Nat} {steps : List Step} (h : Ordinary n steps)
    (hx : ((start n).run steps).1.Holds x (.graph g)) :
    (∀ edges edges', edges.Perm edges' → g.EdgesInAnyOrder edges edges') ∧
    (∀ l : List (String × Edge), (∀ a ∈ l, ((start n).run steps).1.Holds a.1 (.edge a.2)) →
      (((start n).run steps).1.run (edgeSteps x l)).1.Holds x
          (.graph (g.takeEdges (l.map Prod.snd))) ∧
        (((start n).run steps).1.run (edgeSteps x l)).2.map (·.outcome) =
          l.map fun a => g.edgeOutcome a.2) ∧
    ∀ l l' : List (String × Transform),
      (∀ a ∈ l, ((start n).run steps).1.Holds a.1 (.draft a.2)) →
      (l.map (·.2.name)).Nodup → (∀ a ∈ l, ∀ t ∈ g.transforms, t.name ≠ a.2.name) →
      g.transforms.length + l.length ≤ 4294967295 → l.Perm l' →
        ((start n).run steps).1.RegistersInAnyOrder x g l l' := by
  refine ⟨fun _ _ => g.edgesInAnyOrder, fun l hl => run_edgeSteps hx hl, ?_⟩
  intro l l' hl hnames hnew hlength hperm
  obtain ⟨hlast, houtcomes, hsound⟩ := h.registers hx hl hnames hnew
  obtain ⟨hlast', houtcomes', hsound'⟩ := h.registers hx
    (fun a ha => hl a (hperm.mem_iff.mpr ha)) ((hperm.map _).nodup_iff.mp hnames)
    fun a ha => hnew a (hperm.mem_iff.mpr ha)
  obtain ⟨hname, htransforms, hedges⟩ := g.appendTransforms_lists (l.map Prod.snd)
  obtain ⟨hname', htransforms', hedges'⟩ := g.appendTransforms_lists (l'.map Prod.snd)
  refine ⟨houtcomes, houtcomes', _, _, hlast, hlast', htransforms, htransforms', hedges, hedges',
    ?_⟩
  refine hsound.sameAnswers hsound' ?_ ?_ (hname.trans hname'.symm)
  · rw [htransforms, htransforms']
    exact (hperm.map Prod.snd).append_left _
  · rw [htransforms, List.length_append, List.length_map]
    exact hlength

/-- A run that goes on from `pipeline`: beside the registered edge there is one to a port that
belongs to no transform, and two transforms are open. -/
def rivals : List Step := pipeline ++
  [.createPort "loose" "rows" ⟨"Table"⟩ .input,
   .connect "stray" (.whole "reader") (.port (.loose "loose")) none,
   .createTransform "left" ⟨"left", false, false, [("rows", ⟨"Table"⟩)], [], []⟩,
   .createTransform "right" ⟨"right", false, false, [("rows", ⟨"Table"⟩)], [], []⟩]

theorem ordinary_rivals : Ordinary 0 rivals := ⟨by decide, by decide +kernel⟩

theorem holds_rivals : ∃ (g : Graph) (e e' : Edge) (t t' : Transform),
    ((start 0).run rivals).1.Holds "graph" (.graph g) ∧
      ((start 0).run rivals).1.Holds "edge" (.edge e) ∧
      ((start 0).run rivals).1.Holds "stray" (.edge e') ∧
      ((start 0).run rivals).1.Holds "left" (.draft t) ∧
      ((start 0).run rivals).1.Holds "right" (.draft t') ∧
      g.transforms.map (·.name) = ["read", "write"] ∧ t.name = "left" ∧ t'.name = "right" ∧
      g.accepts e = true ∧ g.accepts e' = false :=
  ⟨_, _, _, _, _, rfl, rfl, rfl, rfl, rfl, rfl, rfl, rfl, rfl, rfl⟩

theorem registration_inAnyOrder_rivals : ∃ (g : Graph) (e e' : Edge) (t t' : Transform),
    ((start 0).run rivals).1.Holds "graph" (.graph g) ∧
      g.accepts e = true ∧ g.accepts e' = false ∧ g.EdgesInAnyOrder [e, e'] [e', e] ∧
      (((start 0).run rivals).1.run [.addEdge "graph" "stray", .addEdge "graph" "edge"]).1.Holds
        "graph" (.graph (g.takeEdges [e', e])) ∧
      ((start 0).run rivals).1.RegistersInAnyOrder "graph" g [("left", t), ("right", t')]
        [("right", t'), ("left", t)] := by
  obtain ⟨g, e, e', t, t', hg, he, he', ht, ht', hnames, hname, hname', hyes, hno⟩ := holds_rivals
  have hall := registration_inAnyOrder ordinary_rivals hg
  have hold : ∀ u ∈ g.transforms, u.name = "read" ∨ u.name = "write" := by
    intro u hu
    have hmem : u.name ∈ g.transforms.map (·.name) := List.mem_map.mpr ⟨u, hu, rfl⟩
    simpa [hnames] using hmem
  have hlength : g.transforms.length = 2 := by
    rw [← List.length_map (·.name), hnames]
    rfl
  refine ⟨g, e, e', t, t', hg, hyes, hno, hall.1 _ _ (List.Perm.swap _ _ _),
    (hall.2.1 [("stray", e'), ("edge", e)] ?_).1, hall.2.2 _ _ ?_ ?_ ?_ ?_ (List.Perm.swap _ _ _)⟩
  · simpa using ⟨he', he⟩
  · simpa using ⟨ht, ht'⟩
  · simp [hname, hname']
  · intro a ha u hu
    simp only [List.mem_cons, List.not_mem_nil, or_false] at ha
    rcases ha with rfl | rfl <;> rcases hold u hu with h | h <;> simp [h, hname, hname']
  · simp [hlength]

end Session

end Dataflow
