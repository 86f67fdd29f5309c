import Dataflow.Proofs.Graph.Growth

/-!
# Calls of registrations and their events

A graph is handed transforms and edges, and accepts or refuses each of them (`Call`).  Either way the
call leaves one event, and the level of the event tells which of the two it was
(`Call.level_eq_debug_iff`, `Call.level_eq_warn_iff`).

A graph can be read off the events of the calls that it was built by (`Graph.LoggedBy`): the slots of
the transforms count up from zero, and each message about an edge gives the text that the edge has now.
This goes on when more is registered, as long as the old edges keep their text
(`Graph.LoggedBy.extend`).  Following a design is nothing but making such calls (`Design.log_build`,
`Design.build_loggedBy`).
-/

namespace Dataflow

/-- A call that hands a graph, as it is at that time, a transform or an edge to register. -/
inductive Call
  | transform (g : Graph) (t : Transform)
  | edge (g : Graph) (e : Edge)

namespace Call

/-- The answer of the graph. -/
def answer : Call → Registration
  | transform g t => g.addTransform t
  | edge g e => g.addEdge e

/-- The event that the call leaves in the log. -/
def event (c : Call) : Event := c.answer.event

/-- A call either succeeds with a debugging event or is refused with a warning. -/
theorem answer_cases (c : Call) :
    (c.event.level = .debug ∧ c.answer.result = .ok ()) ∨
      (c.event.level = .warn ∧ ∃ e, c.answer.result = .error e) := by
  unfold event
  cases c with
  | transform g t =>
    cases h : g.slots.contains t.name with
    | true => exact Or.inr (by rw [answer, Graph.addTransform_of_taken h]; exact ⟨rfl, _, rfl⟩)
    | false => exact Or.inl (by rw [answer, Graph.addTransform_of_new h]; exact ⟨rfl, rfl⟩)
  | edge g e =>
    cases h : g.ownerlessEnd? e with
    | some place => exact Or.inr (by rw [answer, Graph.addEdge_of_ownerless h]; exact ⟨rfl, _, rfl⟩)
    | none => exact Or.inl (by rw [answer, Graph.addEdge_of_owned h]; exact ⟨rfl, rfl⟩)

/-- **The event of a call is at debugging level exactly when the call succeeded.** -/
theorem level_eq_debug_iff (c : Call) : c.event.level = .debug ↔ c.answer.result = .ok () := by
  rcases c.answer_cases with ⟨hlevel, hok⟩ | ⟨hlevel, e, he⟩
  · simp [hlevel, hok]
  · simp [hlevel, he]

/-- **The event of a call is a warning exactly when the call was refused.** -/
theorem level_eq_warn_iff (c : Call) : c.event.level = .warn ↔ ∃ e, c.answer.result = .error e := by
  rcases c.answer_cases with ⟨hlevel, hok⟩ | ⟨hlevel, e, he⟩
  · simp [hlevel, hok]
  · simp [hlevel, he]

end Call

/-! ## What events say about a graph -/

namespace Event

/-- The slot that a transform was registered in. -/
def slot? : Event → Option Nat
  | transformRegistered _ k _ => some k.slot
  | _ => none

/-- The message about an edge that was registered. -/
def edgeMessage? : Event → Option String
  | edgeRegistered g e => some (edgeRegistered g e).message
  | _ => none

end Event

/-- The slots that the calls have filled, in order. -/
def slotsOf (calls : List Call) : List Nat := calls.filterMap fun c => c.event.slot?

/-- The messages about the edges that the calls have registered, in order. -/
def edgeMessagesOf (calls : List Call) : List String := calls.filterMap fun c => c.event.edgeMessage?

namespace Graph
variable {g g' : Graph} {calls calls' : List Call} {t : Transform} {e : Edge}

/-- The message about a registered edge, as the graph describes it now. -/
def edgeMessage (g : Graph) (e : Edge) : String := "registered edge " ++ g.describe e

/-- **The events of the calls tell what the graph holds**: a slot for each transform, counted from zero,
and the text of each edge as it reads now. -/
structure LoggedBy (g : Graph) (calls : List Call) : Prop where
  slots : slotsOf calls = List.range g.transforms.length
  edges : edgeMessagesOf calls = g.edges.map g.edgeMessage

/-- Nothing has to be told about a graph that holds nothing. -/
theorem loggedBy_nil (hts : g.transforms = []) (hes : g.edges = []) : g.LoggedBy [] where
  slots := by rw [hts]; rfl
  edges := by rw [hes]; rfl

/-- **The events of further calls come behind those of the earlier ones**, as long as the edges that
were there keep their text. -/
theorem LoggedBy.extend {ts : List Transform} {es : List Edge} (h : g.LoggedBy calls)
    (hext : g.ExtendedBy g' ts es) (hold : ∀ e ∈ g.edges, g'.describe e = g.describe e)
    (hslots : slotsOf calls' = List.range' g.transforms.length ts.length)
    (hedges : edgeMessagesOf calls' = es.map g'.edgeMessage) : g'.LoggedBy (calls ++ calls') where
  slots := by
    have hcalls : slotsOf (calls ++ calls') = slotsOf calls ++ slotsOf calls' :=
      List.filterMap_append
    rw [hcalls, h.slots, hslots, hext.transforms, List.length_append, List.range_eq_range',
      List.range_eq_range', ← List.range'_append_1, Nat.zero_add]
  edges := by
    have hcalls : edgeMessagesOf (calls ++ calls') = edgeMessagesOf calls ++ edgeMessagesOf calls' :=
      List.filterMap_append
    have hsame : g.edges.map g.edgeMessage = g.edges.map g'.edgeMessage :=
      List.map_congr_left fun e he => congrArg ("registered edge " ++ ·) (hold e he).symm
    rw [hcalls, h.edges, hedges, hext.edges, List.map_append, hsame]

/-- A transform that is accepted fills the next slot. -/
theorem events_of_registered (hname : g.slots.contains t.name = false)
    (hl : g.transforms.length < 4294967295) :
    slotsOf [.transform g t] = [g.transforms.length] ∧ edgeMessagesOf [.transform g t] = [] := by
  simp [slotsOf, edgeMessagesOf, Call.event, Call.answer, addTransform_of_new hname, Event.slot?,
    Event.edgeMessage?, nextSlot, Ident.slot_ofCounter_of_lt hl]

/-- The message about an edge that is accepted gives the text that the edge has from then on. -/
theorem events_of_joined (hend : g.ownerlessEnd? e = none) :
    slotsOf [.edge g e] = [] ∧ edgeMessagesOf [.edge g e] = [(g.appendEdge e).edgeMessage e] := by
  have hevent : (Call.edge g e).event = .edgeRegistered g.name (g.describe e) :=
    congrArg Registration.event (addEdge_of_owned hend)
  simp only [slotsOf, edgeMessagesOf, List.filterMap_cons, hevent]
  exact ⟨rfl, rfl⟩

/-- A refusal says nothing about what the graph holds. -/
theorem events_of_refused {c : Call} {err : Error} (h : c.answer.result = .error err) :
    slotsOf [c] = [] ∧ edgeMessagesOf [c] = [] := by
  have hlevel := c.level_eq_warn_iff.mpr ⟨err, h⟩
  cases hevent : c.event with
  | nameTaken | noOwner => simp [slotsOf, edgeMessagesOf, hevent, Event.slot?, Event.edgeMessage?]
  | transformRegistered | edgeRegistered =>
    rw [hevent] at hlevel
    cases hlevel

end Graph

/-! ## Following a design -/

namespace Workshop

/-- The calls that are made in following the plans. -/
def planCalls : List Plan → Workshop → Graph → List Call
  | [], _, _ => []
  | plan :: rest, w, g =>
    match w.make plan with
    | (_, .error _) => []
    | (w, .ok t) =>
      .transform g t ::
        match w.addTransform g t with
        | (_, .error _) => []
        | ((w, g), .ok ()) => planCalls rest w g

/-- The calls that are made in following the links. -/
def linkCalls : List Link → Workshop → Graph → List Call
  | [], _, _ => []
  | link :: rest, w, g =>
    match link.edge g with
    | .error _ => []
    | .ok e =>
      .edge g e ::
        match w.addEdge g e with
        | (_, .error _) => []
        | ((w, g), .ok ()) => linkCalls rest w g

/-- Making a transform is no call. -/
theorem log_make (w : Workshop) (plan : Plan) : (w.make plan).1.log = w.log := by
  unfold make
  split
  · rfl
  · split
    · rfl
    · split <;> rfl

/-- **The calls of a plan and of those behind it**: the work ends, with the calls made so far in the log,
or the transform is registered and the work goes on. -/
theorem planCalls_cons_cases (plan : Plan) (rest : List Plan) (w : Workshop) (g : Graph) :
    (∃ w' e, addPlans (plan :: rest) w g = (w', .error e) ∧
        w'.log = w.log ++ (planCalls (plan :: rest) w g).map Call.event) ∨
      ∃ w₁ t, (w₁ : Workshop).log = w.log ++ [(Call.transform g t).event] ∧
        g.slots.contains t.name = false ∧
        addPlans (plan :: rest) w g = addPlans rest w₁ (g.appendTransform t) ∧
        planCalls (plan :: rest) w g = .transform g t :: planCalls rest w₁ (g.appendTransform t) := by
  have hlog := w.log_make plan
  rcases hmake : w.make plan with ⟨w₁, e | t⟩
  · rw [hmake] at hlog
    refine Or.inl ⟨w₁, e, by simp only [addPlans, hmake], ?_⟩
    simp only [planCalls, hmake]
    exact hlog.trans (List.append_nil _).symm
  · rw [hmake] at hlog
    have hcall : (w₁.record (Call.transform g t).event).log =
        w.log ++ [(Call.transform g t).event] := congrArg (· ++ [_]) hlog
    cases hname : g.slots.contains t.name with
    | true =>
      refine Or.inl ⟨w₁.record (Call.transform g t).event, .duplicateName t.name (.transforms g.name),
        ?_, ?_⟩
      · simp only [addPlans, hmake, Workshop.addTransform, Call.event, Call.answer,
          Graph.addTransform_of_taken hname]
        rfl
      · simp only [planCalls, hmake, Workshop.addTransform, Graph.addTransform_of_taken hname]
        exact hcall
    | false =>
      refine Or.inr ⟨w₁.record (Call.transform g t).event, t, hcall, hname, ?_, ?_⟩
      · simp only [addPlans, hmake, Workshop.addTransform, Call.event, Call.answer,
          Graph.addTransform_of_new hname]
        rfl
      · simp only [planCalls, hmake, Workshop.addTransform, Call.event, Call.answer,
          Graph.addTransform_of_new hname]

/-- **The calls of a link and of those behind it**: the work ends, with the calls made so far in the log,
or the edge is registered and the work goes on. -/
theorem linkCalls_cons_cases (link : Link) (rest : List Link) (w : Workshop) (g : Graph) :
    (∃ w' e, addLinks (link :: rest) w g = (w', .error e) ∧
        w'.log = w.log ++ (linkCalls (link :: rest) w g).map Call.event) ∨
      ∃ w₁ e, (w₁ : Workshop).log = w.log ++ [(Call.edge g e).event] ∧
        g.ownerlessEnd? e = none ∧
        addLinks (link :: rest) w g = addLinks rest w₁ (g.appendEdge e) ∧
        linkCalls (link :: rest) w g = .edge g e :: linkCalls rest w₁ (g.appendEdge e) := by
  cases hmake : link.edge g with
  | error e =>
    refine Or.inl ⟨w, e, by simp only [addLinks, hmake], ?_⟩
    simp only [linkCalls, hmake]
    exact (List.append_nil _).symm
  | ok e =>
    cases hend : g.ownerlessEnd? e with
    | some missing =>
      obtain ⟨side, id⟩ := missing
      refine Or.inl ⟨w.record (Call.edge g e).event, .danglingReference side id g.name, ?_, ?_⟩
      · simp only [addLinks, hmake, Workshop.addEdge, Call.event, Call.answer,
          Graph.addEdge_of_ownerless hend]
        rfl
      · simp only [linkCalls, hmake, Workshop.addEdge, Graph.addEdge_of_ownerless hend]
        rfl
    | none =>
      refine Or.inr ⟨w.record (Call.edge g e).event, e, rfl, hend, ?_, ?_⟩
      · simp only [addLinks, hmake, Workshop.addEdge, Call.event, Call.answer,
          Graph.addEdge_of_owned hend]
        rfl
      · simp only [linkCalls, hmake, Workshop.addEdge, Call.event, Call.answer,
          Graph.addEdge_of_owned hend]

/-- **Following plans logs the calls that are made**, whether or not the work is completed. -/
theorem log_addPlans (plans : List Plan) (w : Workshop) (g : Graph) :
    (w.addPlans plans g).1.log = w.log ++ (w.planCalls plans g).map Call.event := by
  induction plans generalizing w g with
  | nil => exact (List.append_nil _).symm
  | cons plan rest ih =>
    rcases planCalls_cons_cases plan rest w g with ⟨w', e, heq, hlog⟩ | ⟨w₁, t, hlog, -, heq, hcalls⟩
    · rw [heq]
      exact hlog
    · rw [heq, hcalls, ih, hlog, List.append_assoc]
      rfl

/-- **Following links logs the calls that are made**, whether or not the work is completed. -/
theorem log_addLinks (links : List Link) (w : Workshop) (g : Graph) :
    (w.addLinks links g).1.log = w.log ++ (w.linkCalls links g).map Call.event := by
  induction links generalizing w g with
  | nil => exact (List.append_nil _).symm
  | cons link rest ih =>
    rcases linkCalls_cons_cases link rest w g with ⟨w', e, heq, hlog⟩ | ⟨w₁, e, hlog, -, heq, hcalls⟩
    · rw [heq]
      exact hlog
    · rw [heq, hcalls, ih, hlog, List.append_assoc]
      rfl

section LoggedBy
variable {w w' : Workshop} {g g' : Graph} {calls : List Call}

/-- Plans fill slots; as long as there are no edges, no edge can change its text. -/
theorem addPlans_loggedBy {plans : List Plan} (h : w.addPlans plans g = (w', .ok g'))
    (hl : g'.transforms.length ≤ 4294967295) (hes : g.edges = []) (hg : g.LoggedBy calls) :
    g'.LoggedBy (calls ++ w.planCalls plans g) := by
  induction plans generalizing w g calls with
  | nil =>
    cases h
    exact (List.append_nil calls).symm ▸ hg
  | cons plan rest ih =>
    rcases planCalls_cons_cases plan rest w g with ⟨w', e, heq, -⟩ | ⟨w₁, t, -, hname, heq, hcalls⟩
    · rw [heq] at h
      cases h
    · rw [heq] at h
      have hlen := congrArg List.length (addPlans_entries h).1
      have hroom : g.transforms.length < 4294967295 := by
        simp only [Graph.transforms_appendTransform, List.length_append, List.length_singleton] at hlen
        omega
      obtain ⟨hslots, hedges⟩ := Graph.events_of_registered hname hroom
      have hext : g.ExtendedBy (g.appendTransform t) [t] [] := ⟨rfl, rfl, (List.append_nil _).symm⟩
      rw [hcalls, ← List.singleton_append, ← List.append_assoc]
      exact ih h hes (hg.extend hext (fun e he => absurd he (hes ▸ List.not_mem_nil)) hslots hedges)

/-- The text of an edge depends on the transforms alone, so links do not change that of the edges that
are there. -/
theorem addLinks_loggedBy {links : List Link} (h : w.addLinks links g = (w', .ok g'))
    (hg : g.LoggedBy calls) : g'.LoggedBy (calls ++ w.linkCalls links g) := by
  induction links generalizing w g calls with
  | nil =>
    cases h
    exact (List.append_nil calls).symm ▸ hg
  | cons link rest ih =>
    rcases linkCalls_cons_cases link rest w g with ⟨w', e, heq, -⟩ | ⟨w₁, e, -, hend, heq, hcalls⟩
    · rw [heq] at h
      cases h
    · rw [heq] at h
      obtain ⟨hslots, hedges⟩ := Graph.events_of_joined hend
      have hext : g.ExtendedBy (g.appendEdge e) [] [e] := ⟨rfl, (List.append_nil _).symm, rfl⟩
      rw [hcalls, ← List.singleton_append, ← List.append_assoc]
      exact ih h (hg.extend hext (fun _ _ => rfl) hslots hedges)

end LoggedBy

end Workshop

namespace Design

/-- The calls that are made in building a design. -/
def calls (d : Design) (w : Workshop) : List Call :=
  w.planCalls d.plans (Graph.empty d.name) ++
    match w.addPlans d.plans (Graph.empty d.name) with
    | (_, .error _) => []
    | (w, .ok g) => w.linkCalls d.links g

/-- **Building a design logs the calls that are made.** -/
theorem log_build (d : Design) (w : Workshop) :
    (d.build w).1.log = w.log ++ (d.calls w).map Call.event := by
  have hplans := w.log_addPlans d.plans (Graph.empty d.name)
  unfold build calls
  rcases hadd : w.addPlans d.plans (Graph.empty d.name) with ⟨w₁, e | g⟩
  · rw [hadd] at hplans
    exact hplans.trans (by rw [List.append_nil])
  · rw [hadd] at hplans
    dsimp only at hplans ⊢
    rw [Workshop.log_addLinks, hplans, List.map_append, List.append_assoc]

/-- **A graph that was built can be read off the calls of its design.** -/
theorem build_loggedBy {d : Design} {w w' : Workshop} {g : Graph} (h : d.build w = (w', .ok g))
    (hl : g.transforms.length ≤ 4294967295) : g.LoggedBy (d.calls w) := by
  obtain ⟨w₁, g₁, hplans, hlinks⟩ := build_eq_ok h
  have hl₁ : g₁.transforms.length ≤ 4294967295 := (Workshop.addLinks_spec hlinks).1 ▸ hl
  have hempty : (Graph.empty d.name).LoggedBy [] := Graph.loggedBy_nil rfl rfl
  simp only [calls, hplans]
  exact Workshop.addLinks_loggedBy hlinks (Workshop.addPlans_loggedBy hplans hl₁ rfl hempty)

end Design

end Dataflow
