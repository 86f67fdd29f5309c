import Dataflow.Proofs.Graph.Calls
import Dataflow.Proofs.Graph.Description
import Dataflow.Proofs.Session.History

/-!
# What the log says about a run

The log can be taken out at any time, so what a run logs is what was taken and what is left
(`Session.logged`).  It consists of the events of the calls that reached a graph, those of the designs
included, and of nothing else (`Session.run_logs`).  No other step writes to the log.

For the graph in a variable, the calls since it was made (`Session.graphCalls`) are a part of these, and
its transforms and edges can be read off their events in every state of an ordinary run
(`Session.run_loggedBy`).  The text of an edge was taken down before the edge was registered.  That it is
still the text of the edge is a fact about lookups: they find in a sound graph what they found in a sound
graph that it has grown from (`Graph.Sound.lastsIn`).
-/

namespace Dataflow

/-- The events that an answer hands out. -/
def Reply.handedOut : Reply → List Event
  | .events log => log
  | _ => []

/-- The events that the end of a step hands out. -/
def Outcome.handedOut : Outcome → List Event
  | .done r => r.handedOut
  | _ => []

namespace Session

/-- The calls of a step that reach a graph, each with the variable of the graph. -/
def calls (s : Session) : Step → List (String × Call)
  | .addTransform x y =>
    match s.lookUp .graph x, s.lookUp .draft y with
    | .ok g, .ok t => [(x, .transform g t)]
    | _, _ => []
  | .addEdge x y =>
    match s.lookUp .graph x, s.lookUp .edge y with
    | .ok g, .ok e => [(x, .edge g e)]
    | _, _ => []
  | .buildDesign x name =>
    match Design.find? name with
    | some d => (d.calls s.workshop).map fun c => (x, c)
    | none => []
  | _ => []

/-- The calls of a run that reach a graph. -/
def runCalls (s : Session) : List Step → List (String × Call)
  | [] => []
  | st :: rest => s.calls st ++ (s.perform st).1.runCalls rest

/-- **What a run logs**: the events that were taken out on the way, and those that are left. -/
def logged (n : Nat) (steps : List Step) : List Event :=
  ((start n).run steps).2.flatMap (fun answer => answer.outcome.handedOut) ++
    ((start n).run steps).1.workshop.log

/-! ## Which steps write to the log -/

section Perform
variable {s : Session}

/-- The work hands out nothing and leaves the log alone. -/
def LeavesLog (s : Session) (r : Session × Except Obstacle Reply) : Prop :=
  r.1.workshop.log = s.workshop.log ∧ (Outcome.of r.2).handedOut = []

theorem leavesLog_error {s' : Session} {f : Obstacle} (h : s'.workshop.log = s.workshop.log) :
    s.LeavesLog (s', .error f) := by
  cases f <;> exact ⟨h, rfl⟩

theorem leavesLog_read_bind {α : Type} {r : Session → Except Obstacle α} {f : α → Work Reply}
    (h : ∀ a, r s = .ok a → s.LeavesLog (f a s)) : s.LeavesLog ((Attempt.read r >>= f) s) :=
  Attempt.read_bind_elim (fun _ _ => leavesLog_error rfl) h

/-- Work that begins in the workshop, where nothing is logged but calls that reach a graph. -/
theorem leavesLog_inWorkshop_bind {α : Type} {work : Workshop → Workshop × Except Error α}
    {f : α → Work Reply} (hlog : (work s.workshop).1.log = s.workshop.log)
    (h : ∀ w a, w.log = s.workshop.log → s.LeavesLog (f a (s.withWorkshop w))) :
    s.LeavesLog ((Work.inWorkshop work >>= f) s) := by
  refine inWorkshop_bind_elim (fun w e hw => ?_) fun w a hw => ?_
  · exact leavesLog_error ((congrArg (·.1.log) hw).symm.trans hlog)
  · exact h w a ((congrArg (·.1.log) hw).symm.trans hlog)

/-- If there is an answer, it hands out nothing. -/
def HandsOutNothing (r : Except Obstacle Reply) : Prop := ∀ reply, r = .ok reply → reply.handedOut = []

theorem HandsOutNothing.bind {α : Type} {x : Except Obstacle α} {f : α → Except Obstacle Reply}
    (h : ∀ a, HandsOutNothing (f a)) : HandsOutNothing (x >>= f) := by
  intro reply hreply
  obtain ⟨a, -, hf⟩ := bind_eq_ok.mp hreply
  exact h a reply hf

theorem handsOutNothing_pure {reply : Reply} (h : reply.handedOut = []) :
    HandsOutNothing (pure reply) := by
  intro _ heq
  rw [← pure_eq_ok.mp heq]
  exact h

/-- Work that only looks, and shows something else than the log. -/
theorem leavesLog_read {r : Session → Except Obstacle Reply} (h : HandsOutNothing (r s)) :
    s.LeavesLog (Attempt.read r s) := by
  show s.LeavesLog (s, r s)
  cases hr : r s with
  | error f => exact leavesLog_error rfl
  | ok reply => exact ⟨rfl, h reply hr⟩

theorem foundTransform_leavesLog (target : Option String) (t : Transform) :
    s.LeavesLog (Work.foundTransform target t s) := by
  cases target <;> exact ⟨rfl, rfl⟩

theorem maybeTransform_leavesLog (target : Option String) (t : Option Transform) :
    s.LeavesLog (Work.maybeTransform target t s) := by
  cases t with
  | none => exact ⟨rfl, rfl⟩
  | some t => exact foundTransform_leavesLog target t

theorem offer_leavesLog {α : Type} (x y : String) (k : Object.Kind α)
    (add : Transform → α → Transform × Except Error Unit) :
    s.LeavesLog (Work.offer x y k add s) := by
  rcases s.offer_cases x y k add with h | ⟨t, a, -, -, h⟩
  · exact h ▸ leavesLog_error rfl
  · rw [h]
    cases (add t a).2 with
    | error e => exact leavesLog_error rfl
    | ok u => exact ⟨rfl, rfl⟩

theorem createPort_leavesLog (x name : String) (type : PortType) (d : Direction) :
    s.LeavesLog (Work.createPort x name type d s) :=
  leavesLog_inWorkshop_bind rfl fun _ _ hw => ⟨hw, rfl⟩

theorem createConstant_leavesLog (x name : String) (v : Option ValueSpec) :
    s.LeavesLog (Work.createConstant x name v s) :=
  leavesLog_read_bind fun _ _ => leavesLog_inWorkshop_bind rfl fun _ _ hw => ⟨hw, rfl⟩

theorem resolveConstant_leavesLog (r : ConstantRef) (records : List Profile) :
    s.LeavesLog (Work.resolveConstant r records s) :=
  leavesLog_read_bind fun _ _ => leavesLog_inWorkshop_bind rfl fun _ _ hw => ⟨hw, rfl⟩

theorem createTransform_leavesLog (x : String) (spec : PlanSpec) :
    s.LeavesLog (Work.createTransform x spec s) := by
  refine leavesLog_read_bind fun before hbefore => ?_
  cases hbefore
  refine leavesLog_inWorkshop_bind (s.workshop.log_make _) fun w t hw => ?_
  split
  · exact ⟨hw, rfl⟩
  · exact ⟨rfl, rfl⟩

theorem connect_leavesLog (x : String) (a b : EndpointRef) (label : Option String) :
    s.LeavesLog (Work.connect x a b label s) :=
  leavesLog_read_bind fun _ _ => leavesLog_read_bind fun _ _ => leavesLog_read_bind fun _ _ =>
    ⟨rfl, rfl⟩

theorem joinPorts_leavesLog (x : String) (a b : PortRef) :
    s.LeavesLog (Work.joinPorts x a b s) :=
  leavesLog_read_bind fun _ _ => leavesLog_read_bind fun _ _ => leavesLog_read_bind fun _ _ =>
    ⟨rfl, rfl⟩

theorem setConstant_leavesLog (r : ConstantRef) (v : ValueSpec) :
    s.LeavesLog (Work.setConstant r v s) :=
  leavesLog_read_bind fun _ _ => leavesLog_read_bind fun _ _ => ⟨rfl, rfl⟩

theorem copyValue_leavesLog (giver receiver : ConstantRef) :
    s.LeavesLog (Work.copyValue giver receiver s) :=
  leavesLog_read_bind fun _ _ => leavesLog_read_bind fun _ _ => leavesLog_read_bind fun _ _ =>
    ⟨rfl, rfl⟩

theorem findTransform_leavesLog (x : String) (find : Graph → Option Transform)
    (target : Option String) : s.LeavesLog (Work.findTransform x find target s) :=
  leavesLog_read_bind fun _ _ => maybeTransform_leavesLog target _

theorem findOwner_leavesLog (x : String) (r : PortRef) (target : Option String) :
    s.LeavesLog (Work.findOwner x r target s) :=
  leavesLog_read_bind fun _ _ => leavesLog_read_bind fun _ _ => leavesLog_read_bind fun _ _ =>
    foundTransform_leavesLog target _

theorem findOwnerOfId_leavesLog (x : String) (id : Ident) (target : Option String) :
    s.LeavesLog (Work.findOwnerOfId x id target s) :=
  leavesLog_read_bind fun _ _ => leavesLog_read_bind fun _ _ => foundTransform_leavesLog target _

theorem forceIndex_leavesLog (x y : String) (slot : Ident) :
    s.LeavesLog (Work.forceIndex x y slot s) := by
  refine leavesLog_read_bind fun g _ => leavesLog_read_bind fun t _ => ?_
  split <;> exact ⟨rfl, rfl⟩

/-- **What a step does to the log**: it adds the events of its calls, or hands out what is there. -/
def Logs (s : Session) (st : Step) : Prop :=
  s.workshop.log ++ (s.calls st).map (fun c => c.2.event) =
    (s.perform st).2.handedOut ++ (s.perform st).1.workshop.log

theorem LeavesLog.logs {st : Step} (h : s.LeavesLog (carryOut st s)) (hcalls : s.calls st = []) :
    s.Logs st := by
  have hlog : (s.perform st).1.workshop.log = s.workshop.log := h.1
  have hout : (s.perform st).2.handedOut = [] := h.2
  unfold Logs
  rw [hcalls, hlog, hout]
  exact List.append_nil _

theorem logs_of_senseless {st : Step} (h : s.perform st = (s, .senseless)) (hcalls : s.calls st = []) :
    s.Logs st := by
  unfold Logs
  rw [hcalls, h]
  exact List.append_nil _

theorem calls_addTransform {x y : String} {g : Graph} {t : Transform} (hx : s.Holds x (.graph g))
    (hy : s.Holds y (.draft t)) : s.calls (.addTransform x y) = [(x, .transform g t)] := by
  simp only [calls, (lookUp_eq_ok (k := .graph)).mpr hx, (lookUp_eq_ok (k := .draft)).mpr hy]

theorem calls_addEdge {x y : String} {g : Graph} {e : Edge} (hx : s.Holds x (.graph g))
    (hy : s.Holds y (.edge e)) : s.calls (.addEdge x y) = [(x, .edge g e)] := by
  simp only [calls, (lookUp_eq_ok (k := .graph)).mpr hx, (lookUp_eq_ok (k := .edge)).mpr hy]

/-- Where there is nothing to register, no graph is called. -/
theorem calls_addTransform_of_senseless {x y : String}
    (h : s.perform (.addTransform x y) = (s, .senseless)) : s.calls (.addTransform x y) = [] := by
  simp only [calls]
  split
  · rename_i g t hg ht
    have hx := lookUp_eq_ok.mp hg
    have hy := lookUp_eq_ok.mp ht
    cases hname : g.slots.contains t.name with
    | true => cases congrArg Prod.snd (h.symm.trans (addTransform_of_taken hx hy hname))
    | false => cases congrArg Prod.snd (h.symm.trans (addTransform_of_new hx hy hname))
  · rfl

theorem calls_addEdge_of_senseless {x y : String}
    (h : s.perform (.addEdge x y) = (s, .senseless)) : s.calls (.addEdge x y) = [] := by
  simp only [calls]
  split
  · rename_i g e hg he
    have hx := lookUp_eq_ok.mp hg
    have hy := lookUp_eq_ok.mp he
    cases hend : g.ownerlessEnd? e with
    | some missing => cases congrArg Prod.snd (h.symm.trans (addEdge_of_ownerless hx hy hend))
    | none => cases congrArg Prod.snd (h.symm.trans (addEdge_of_owned hx hy hend))
  · rfl

theorem addTransform_logs (x y : String) : s.Logs (.addTransform x y) := by
  rcases s.addTransform_cases x y with h | ⟨g, t, hx, hy, ⟨hname, h⟩ | ⟨hname, h⟩⟩
  · exact logs_of_senseless h (calls_addTransform_of_senseless h)
  · rw [Logs, h, calls_addTransform hx hy, List.map_singleton, Call.event, Call.answer,
      Graph.addTransform_of_taken hname]
    rfl
  · rw [Logs, h, calls_addTransform hx hy, List.map_singleton, Call.event, Call.answer,
      Graph.addTransform_of_new hname]
    rfl

theorem addEdge_logs (x y : String) : s.Logs (.addEdge x y) := by
  rcases s.addEdge_cases x y with h | ⟨g, e, hx, hy, ⟨side, id, hend, h⟩ | ⟨hend, h⟩⟩
  · exact logs_of_senseless h (calls_addEdge_of_senseless h)
  · rw [Logs, h, calls_addEdge hx hy, List.map_singleton, Call.event, Call.answer,
      Graph.addEdge_of_ownerless hend]
    rfl
  · rw [Logs, h, calls_addEdge hx hy, List.map_singleton, Call.event, Call.answer,
      Graph.addEdge_of_owned hend]
    rfl

theorem calls_buildDesign {x name : String} {d : Design} (hd : Design.find? name = some d) :
    s.calls (.buildDesign x name) = (d.calls s.workshop).map fun c => (x, c) := by
  simp only [calls, hd]

theorem buildDesign_logs (x name : String) : s.Logs (.buildDesign x name) := by
  cases hd : Design.find? name with
  | none =>
    have hcalls : s.calls (.buildDesign x name) = [] := by simp only [calls, hd]
    rw [Logs, perform_buildDesign_of_none hd, hcalls]
    exact List.append_nil _
  | some d =>
    obtain ⟨w, g, hbuild⟩ := Design.find?_build_ok hd s.workshop
    have hlog := d.log_build s.workshop
    rw [hbuild] at hlog
    rw [Logs, perform_buildDesign hd hbuild, calls_buildDesign hd, List.map_map]
    exact hlog.symm

/-- **Every step logs its calls and nothing else.** -/
theorem perform_logs (s : Session) (st : Step) : s.Logs st := by
  cases st with
  | addTransform x y => exact addTransform_logs x y
  | addEdge x y => exact addEdge_logs x y
  | buildDesign x name => exact buildDesign_logs x name
  -- what is handed out is what was there, and nothing is left
  | takeLog => exact rfl
  | createPort x name type d => exact (createPort_leavesLog x name type d).logs rfl
  | createConstant x name v => exact (createConstant_leavesLog x name v).logs rfl
  | setConstant r v => exact (setConstant_leavesLog r v).logs rfl
  | copyValue giver receiver => exact (copyValue_leavesLog giver receiver).logs rfl
  | resolveConstant r records => exact (resolveConstant_leavesLog r records).logs rfl
  | createTransform x spec => exact (createTransform_leavesLog x spec).logs rfl
  | markMemory x reads writes =>
    exact LeavesLog.logs (leavesLog_read_bind fun t _ => ⟨rfl, rfl⟩) rfl
  | addConstant x y => exact (offer_leavesLog x y .constant _).logs rfl
  | addPort x y => exact (offer_leavesLog x y .port _).logs rfl
  | addPortTo d x y => exact (offer_leavesLog x y .port _).logs rfl
  | connect x a b label => exact (connect_leavesLog x a b label).logs rfl
  | joinPorts x a b => exact (joinPorts_leavesLog x a b).logs rfl
  | relabel x e label => exact LeavesLog.logs (leavesLog_read_bind fun e _ => ⟨rfl, rfl⟩) rfl
  | findTransform x name target => exact (findTransform_leavesLog x _ target).logs rfl
  | findTransformWithId x id target => exact (findTransform_leavesLog x _ target).logs rfl
  | findOwner x r target => exact (findOwner_leavesLog x r target).logs rfl
  | findOwnerOfId x id target => exact (findOwnerOfId_leavesLog x id target).logs rfl
  | createGraph x name => exact LeavesLog.logs ⟨rfl, rfl⟩ rfl
  | drop x => exact LeavesLog.logs ⟨rfl, rfl⟩ rfl
  | forgeEdge x e => exact LeavesLog.logs ⟨rfl, rfl⟩ rfl
  | forceEdge x e => exact LeavesLog.logs (leavesLog_read_bind fun g _ => ⟨rfl, rfl⟩) rfl
  | forceTransform x y =>
    exact LeavesLog.logs
      (leavesLog_read_bind fun g _ => leavesLog_read_bind fun t _ => ⟨rfl, rfl⟩) rfl
  | forceIndex x y slot => exact (forceIndex_leavesLog x y slot).logs rfl
  -- the other steps only look, and show something else than the log
  | viewPort r => exact (leavesLog_read (.bind fun p => handsOutNothing_pure rfl)).logs rfl
  | comparePorts a b =>
    exact (leavesLog_read (.bind fun a => .bind fun b => handsOutNothing_pure rfl)).logs rfl
  | viewConstant r => exact (leavesLog_read (.bind fun c => handsOutNothing_pure rfl)).logs rfl
  | inspectConstant r => exact (leavesLog_read (.bind fun c => handsOutNothing_pure rfl)).logs rfl
  | viewTransform x => exact (leavesLog_read (.bind fun t => handsOutNothing_pure rfl)).logs rfl
  | viewSolePort x d =>
    exact (leavesLog_read (.bind fun t => .bind fun p => handsOutNothing_pure rfl)).logs rfl
  | ownsPort x r =>
    exact (leavesLog_read (.bind fun t => .bind fun p => handsOutNothing_pure rfl)).logs rfl
  | ownsId x id => exact (leavesLog_read (.bind fun t => handsOutNothing_pure rfl)).logs rfl
  | compareEdges a b =>
    exact (leavesLog_read (.bind fun a => .bind fun b => handsOutNothing_pure rfl)).logs rfl
  | viewGraph x => exact (leavesLog_read (.bind fun g => handsOutNothing_pure rfl)).logs rfl
  | findEdgeWithId x id =>
    refine (leavesLog_read (.bind fun g => handsOutNothing_pure ?_)).logs rfl
    split <;> rfl
  | findPortWithId x id =>
    refine (leavesLog_read (.bind fun g => handsOutNothing_pure ?_)).logs rfl
    split <;> rfl
  | viewIndex x id => exact (leavesLog_read (.bind fun g => handsOutNothing_pure rfl)).logs rfl
  | describeEdge x e =>
    exact (leavesLog_read (.bind fun g => .bind fun e => handsOutNothing_pure rfl)).logs rfl
  | validate x part =>
    exact (leavesLog_read (.bind fun g => .bind fun u => handsOutNothing_pure rfl)).logs rfl

end Perform

/-- **What a run logs are the events of its calls.** -/
theorem run_logs (s : Session) (steps : List Step) :
    s.workshop.log ++ (s.runCalls steps).map (fun c => c.2.event) =
      (s.run steps).2.flatMap (fun answer => answer.outcome.handedOut) ++
        (s.run steps).1.workshop.log := by
  induction steps generalizing s with
  | nil => exact List.append_nil _
  | cons st rest ih =>
    have hstep := s.perform_logs st
    have hrest := ih (s.perform st).1
    rw [Logs] at hstep
    rw [runCalls, List.map_append, ← List.append_assoc, hstep, List.append_assoc, hrest,
      ← List.append_assoc]
    rfl

theorem logged_eq (n : Nat) (steps : List Step) :
    logged n steps = ((start n).runCalls steps).map fun c => c.2.event :=
  (run_logs (start n) steps).symm

/-! ## The calls of one graph -/

/-- The calls that reach the graph of the variable. -/
def callsTo (x : String) (calls : List (String × Call)) : List Call :=
  calls.filterMap fun c => if c.1 = x then some c.2 else none

/-- The calls of the graph in the variable after a step: a graph that is made starts anew. -/
def callsAfter (s : Session) (x : String) (st : Step) (before : List Call) : List Call :=
  if s.replaces x st then callsTo x (s.calls st) else before ++ callsTo x (s.calls st)

/-- The calls of the graph in the variable after all steps. -/
def callsAfterAll (s : Session) (x : String) : List Step → List Call → List Call
  | [], before => before
  | st :: rest, before => (s.perform st).1.callsAfterAll x rest (s.callsAfter x st before)

/-- **The calls of the graph in a variable** since it was made. -/
def graphCalls (n : Nat) (x : String) (steps : List Step) : List Call :=
  (start n).callsAfterAll x steps []

theorem callsAfterAll_suffix (s : Session) (x : String) (steps : List Step) (before : List Call) :
    s.callsAfterAll x steps before <:+ before ++ callsTo x (s.runCalls steps) := by
  induction steps generalizing s before with
  | nil => exact (List.append_nil before).symm ▸ List.suffix_rfl
  | cons st rest ih =>
    have hstep : s.callsAfter x st before <:+ before ++ callsTo x (s.calls st) := by
      unfold callsAfter
      split
      · exact List.suffix_append _ _
      · exact List.suffix_rfl
    obtain ⟨dropped, heq⟩ := hstep
    have hcalls : callsTo x (s.runCalls (st :: rest)) =
        callsTo x (s.calls st) ++ callsTo x ((s.perform st).1.runCalls rest) :=
      List.filterMap_append
    refine (ih (s.perform st).1 (s.callsAfter x st before)).trans ⟨dropped, ?_⟩
    rw [hcalls, ← List.append_assoc, ← List.append_assoc, heq]

/-- **The calls of a graph are the last ones that reached its variable.** -/
theorem graphCalls_suffix (n : Nat) (x : String) (steps : List Step) :
    graphCalls n x steps <:+ callsTo x ((start n).runCalls steps) :=
  callsAfterAll_suffix (start n) x steps []

section Graphs
variable {s : Session} {x y : String} {g g' : Graph} {st : Step}

theorem graph_eq_of_bind (h : (s.bind x (.graph g)).Holds x (.graph g')) : g = g' := by
  rcases holds_bind_iff.mp h with ⟨-, heq⟩ | ⟨hne, -⟩
  · exact Object.graph.inj heq
  · exact absurd rfl hne

theorem callsTo_self (x : String) (calls : List Call) :
    callsTo x (calls.map fun c => (x, c)) = calls := by
  simp [callsTo, List.filterMap_map]

theorem callsTo_ne (h : y ≠ x) (calls : List Call) :
    callsTo x (calls.map fun c => (y, c)) = [] := by
  simp [callsTo, List.filterMap_map, h]

/-- A design replaces the graph of its own target only. -/
theorem replaces_buildDesign {name : String} {d : Design} (hd : Design.find? name = some d) :
    s.replaces x (.buildDesign y name) = decide (y = x) := by
  obtain ⟨w, g, hbuild⟩ := Design.find?_build_ok hd s.workshop
  unfold replaces
  rw [perform_buildDesign hd hbuild]
  simp [Step.drops, Step.bound?, Outcome.isResult, Step.target?]

theorem replaces_buildDesign_of_none {name : String} (hd : Design.find? name = none) :
    s.replaces x (.buildDesign y name) = false := by
  unfold replaces
  rw [perform_buildDesign_of_none hd]
  rfl

/-- **A graph that a step makes can be read off the calls of this step.** -/
theorem made_loggedBy (hst : st.isOrdinary = true) (hr : s.replaces x st = true)
    (hx : (s.perform st).1.Holds x (.graph g)) (hl : g.transforms.length ≤ 4294967295) :
    g.LoggedBy (callsTo x (s.calls st)) := by
  have hrecords := (perform_carries s x hst).made hr g hx
  cases st with
  | buildDesign y name =>
    cases hd : Design.find? name with
    | none => exact absurd hr (Bool.eq_false_iff.mp (replaces_buildDesign_of_none hd))
    | some d =>
      obtain rfl : y = x := of_decide_eq_true ((replaces_buildDesign hd).symm.trans hr)
      obtain ⟨w, g₁, hbuild⟩ := Design.find?_build_ok hd s.workshop
      rw [perform_buildDesign hd hbuild] at hx
      obtain rfl : g₁ = g := graph_eq_of_bind hx
      rw [calls_buildDesign hd, callsTo_self]
      exact Design.build_loggedBy hbuild hl
  | addTransform y z => exact absurd hr (Bool.eq_false_iff.mp (replaces_eq_false rfl rfl))
  | addEdge y z => exact absurd hr (Bool.eq_false_iff.mp (replaces_eq_false rfl rfl))
  -- a graph that is made in any other way holds nothing, and nothing has been called
  | _ => exact Graph.loggedBy_nil hrecords.transforms hrecords.edges

/-- The events of the calls tell what has come into the graph of the variable. -/
def TellsOf (s : Session) (x : String) (st : Step) (g g' : Graph) : Prop :=
  slotsOf (callsTo x (s.calls st)) = List.range' g.transforms.length (s.registered x st).length ∧
    edgeMessagesOf (callsTo x (s.calls st)) = (s.joined x st).map g'.edgeMessage

theorem tellsOf_nil (hcalls : callsTo x (s.calls st) = []) (hts : s.registered x st = [])
    (hes : s.joined x st = []) : s.TellsOf x st g g' := by
  unfold TellsOf
  rw [hcalls, hts, hes]
  exact ⟨rfl, rfl⟩

theorem addTransform_tellsOf {y z : String} (hx : s.Holds x (.graph g))
    (hl : g.transforms.length + (s.registered x (.addTransform y z)).length ≤ 4294967295) :
    s.TellsOf x (.addTransform y z) g g' := by
  rcases s.addTransform_cases y z with h | ⟨g₁, t, hy, hz, hcases⟩
  · refine tellsOf_nil ?_ (by simp only [registered, h]) rfl
    rw [calls_addTransform_of_senseless h]
    rfl
  · have hcalls := calls_addTransform hy hz
    by_cases hyx : y = x
    · subst y
      obtain rfl : g₁ = g := Object.graph.inj (hy.unique hx)
      have hself : callsTo x (s.calls (.addTransform x z)) = [.transform g₁ t] :=
        hcalls ▸ callsTo_self x [.transform g₁ t]
      unfold TellsOf
      rw [hself]
      rcases hcases with ⟨hname, h⟩ | ⟨hname, h⟩
      · have hnone : s.registered x (.addTransform x z) = [] := by simp only [registered, h]
        have hrefused := congrArg Registration.result (Graph.addTransform_of_taken hname)
        rw [hnone]
        exact Graph.events_of_refused hrefused
      · have hone : s.registered x (.addTransform x z) = [t] := by
          simp only [registered, h, (lookUp_eq_ok (k := .draft)).mpr hz, if_true]
        rw [hone] at hl ⊢
        exact Graph.events_of_registered hname hl
    · refine tellsOf_nil (hcalls ▸ callsTo_ne hyx [.transform g₁ t]) ?_ rfl
      rcases hcases with ⟨-, h⟩ | ⟨-, h⟩
      · simp only [registered, h]
      · simp only [registered, h, (lookUp_eq_ok (k := .draft)).mpr hz, if_neg hyx]

theorem addEdge_tellsOf {y z : String} (hx : s.Holds x (.graph g))
    (hx' : (s.perform (.addEdge y z)).1.Holds x (.graph g')) : s.TellsOf x (.addEdge y z) g g' := by
  rcases s.addEdge_cases y z with h | ⟨g₁, e, hy, hz, hcases⟩
  · refine tellsOf_nil ?_ rfl (by simp only [joined, h])
    rw [calls_addEdge_of_senseless h]
    rfl
  · have hcalls := calls_addEdge hy hz
    by_cases hyx : y = x
    · subst y
      obtain rfl : g₁ = g := Object.graph.inj (hy.unique hx)
      have hself : callsTo x (s.calls (.addEdge x z)) = [.edge g₁ e] :=
        hcalls ▸ callsTo_self x [.edge g₁ e]
      unfold TellsOf
      rw [hself]
      rcases hcases with ⟨side, id, hend, h⟩ | ⟨hend, h⟩
      · have hnone : s.joined x (.addEdge x z) = [] := by simp only [joined, h]
        have hrefused := congrArg Registration.result (Graph.addEdge_of_ownerless hend)
        rw [hnone]
        exact Graph.events_of_refused hrefused
      · have hone : s.joined x (.addEdge x z) = [e] := by
          simp only [joined, h, (lookUp_eq_ok (k := .edge)).mpr hz, if_true]
        rw [h] at hx'
        obtain rfl : g₁.appendEdge e = g' := graph_eq_of_bind hx'
        rw [hone]
        exact Graph.events_of_joined hend
    · refine tellsOf_nil (hcalls ▸ callsTo_ne hyx [.edge g₁ e]) rfl ?_
      rcases hcases with ⟨_, _, -, h⟩ | ⟨-, h⟩
      · simp only [joined, h]
      · simp only [joined, h, (lookUp_eq_ok (k := .edge)).mpr hz, if_neg hyx]

/-- **The events of a step tell what it enters** in the graph of a variable that stays. -/
theorem perform_tellsOf (hr : s.replaces x st = false) (hx : s.Holds x (.graph g))
    (hx' : (s.perform st).1.Holds x (.graph g'))
    (hl : g.transforms.length + (s.registered x st).length ≤ 4294967295) :
    s.TellsOf x st g g' := by
  cases st with
  | addTransform y z => exact addTransform_tellsOf hx hl
  | addEdge y z => exact addEdge_tellsOf hx hx'
  | buildDesign y name =>
    refine tellsOf_nil ?_ rfl rfl
    cases hd : Design.find? name with
    | none =>
      simp only [calls, hd]
      rfl
    | some d =>
      have hyx : y ≠ x := of_decide_eq_false ((replaces_buildDesign hd).symm.trans hr)
      rw [calls_buildDesign hd]
      exact callsTo_ne hyx _
  | _ => exact tellsOf_nil rfl rfl rfl

/-- **A step keeps the graphs readable from their calls.** -/
theorem callsAfter_loggedBy (hs : s.Sound) (hs' : (s.perform st).1.Sound)
    (hst : st.isOrdinary = true) {before : List Call}
    (h : ∀ g, s.Holds x (.graph g) → g.transforms.length ≤ 4294967295 → g.LoggedBy before)
    (hx' : (s.perform st).1.Holds x (.graph g')) (hl' : g'.transforms.length ≤ 4294967295) :
    g'.LoggedBy (s.callsAfter x st before) := by
  have hcarries := perform_carries s x hst
  unfold callsAfter
  cases hr : s.replaces x st with
  | true => exact made_loggedBy hst hr hx' hl'
  | false =>
    obtain ⟨g, hx⟩ := hcarries.origin hr g' hx'
    obtain ⟨g'', hx'', hext⟩ := hcarries.kept hr g hx
    obtain rfl : g' = g'' := Object.graph.inj (hx'.unique hx'')
    have hlen := hl'
    rw [hext.transforms, List.length_append] at hlen
    -- both graphs are sound, so the old edges read as they did
    have hg : g.Sound := hs.object x _ hx
    have hg' : g'.Sound := hs'.object x _ hx'
    have hlasts := hg.lastsIn hg' hl' hext.name (hext.transforms ▸ List.prefix_append _ _)
      (hext.edges ▸ List.prefix_append _ _)
    obtain ⟨hslots, hedges⟩ := perform_tellsOf hr hx hx' hlen
    exact (h g hx (by omega)).extend hext hlasts.describe hslots hedges

/-- **Along a run of ordinary steps, the graph of a variable can be read off its calls.** -/
theorem run_loggedBy {steps : List Step} (hsteps : ∀ st ∈ steps, st.isOrdinary = true) (hs : s.Sound)
    (hb : (s.run steps).1.workshop.nextPort ≤ 4294967295) {before : List Call}
    (h : ∀ g, s.Holds x (.graph g) → g.transforms.length ≤ 4294967295 → g.LoggedBy before)
    (hx : (s.run steps).1.Holds x (.graph g)) (hl : g.transforms.length ≤ 4294967295) :
    g.LoggedBy (s.callsAfterAll x steps before) := by
  induction steps generalizing s before with
  | nil => exact h g hx hl
  | cons st rest ih =>
    obtain ⟨hst, hrest⟩ := List.forall_mem_cons.mp hsteps
    rw [run_cons_fst] at hb hx
    have hb₁ : (s.perform st).1.workshop.nextPort ≤ 4294967295 :=
      Nat.le_trans (run_precedes _ rest).nextPort hb
    have hs₁ : (s.perform st).1.Sound := hs.move (perform_move s hst) hb₁
    exact ih hrest hs₁ hb (fun g₁ hx₁ hl₁ => callsAfter_loggedBy hs hs₁ hst h hx₁ hl₁) hx

end Graphs

/-- **Descriptions and the log are faithful.**  After an ordinary run, the log consists of the events of
the calls that reached a graph, in order, and the level of each tells whether the call succeeded.  Every
graph describes edges as a scan would, and it can be read off the calls that have reached its variable
since it was made. -/
theorem log_faithful {n : Nat} {steps : List Step} (h : Ordinary n steps) :
    logged n steps = ((start n).runCalls steps).map (fun c => c.2.event) ∧
    (∀ c ∈ (start n).runCalls steps,
      (c.2.event.level = .debug ↔ c.2.answer.result = .ok ()) ∧
        (c.2.event.level = .warn ↔ ∃ e, c.2.answer.result = .error e)) ∧
    ∀ x g, ((start n).run steps).1.Holds x (.graph g) → g.transforms.length ≤ 4294967295 →
      g.DescribesByScan ∧ g.LoggedBy (graphCalls n x steps) ∧
        graphCalls n x steps <:+ callsTo x ((start n).runCalls steps) := by
  refine ⟨logged_eq n steps, fun c _ => ⟨c.2.level_eq_debug_iff, c.2.level_eq_warn_iff⟩,
    fun x g hx hl => ?_⟩
  have hg : g.Sound := h.sound.object x _ hx
  have hnone : ∀ g, (start n).Holds x (.graph g) → g.transforms.length ≤ 4294967295 →
      g.LoggedBy [] := nofun
  exact ⟨hg.describesByScan hl, run_loggedBy h.keepsRules (sound_start n) h.ports hnone hx hl,
    graphCalls_suffix n x steps⟩

/-- The pipeline, whose log is taken, then a transform of a name that is taken, a design, and the edge of
the pipeline for the graph of the design. -/
def loggedPipeline : List Step :=
  pipeline ++
    [.takeLog,
     .createTransform "again" ⟨"read", false, false, [], [], []⟩,
     .addTransform "graph" "again",
     .buildDesign "sum" "adder",
     .addEdge "sum" "edge"]

/-- Three registrations, a refusal, the four transforms and three edges of the design, a refusal. -/
theorem log_faithful_loggedPipeline : ∃ g g' : Graph,
    ((start 0).run loggedPipeline).1.Holds "graph" (.graph g) ∧
      ((start 0).run loggedPipeline).1.Holds "sum" (.graph g') ∧
      (logged 0 loggedPipeline).map Event.level =
        List.replicate 3 .debug ++ [.warn] ++ List.replicate 7 .debug ++ [.warn] ∧
      logged 0 loggedPipeline =
        ((start 0).runCalls loggedPipeline).map (fun c => c.2.event) ∧
      g.DescribesByScan ∧ g.LoggedBy (graphCalls 0 "graph" loggedPipeline) ∧
      g'.DescribesByScan ∧ g'.LoggedBy (graphCalls 0 "sum" loggedPipeline) := by
  have hord : Ordinary 0 loggedPipeline := ⟨by decide, by decide +kernel⟩
  obtain ⟨g, g', hx, hx', hl, hl'⟩ : ∃ g g' : Graph,
      ((start 0).run loggedPipeline).1.Holds "graph" (.graph g) ∧
        ((start 0).run loggedPipeline).1.Holds "sum" (.graph g') ∧
        g.transforms.length = 2 ∧ g'.transforms.length = 4 := ⟨_, _, rfl, rfl, rfl, rfl⟩
  obtain ⟨hlog, -, hgraphs⟩ := log_faithful hord
  obtain ⟨hscan, hcalls, -⟩ := hgraphs "graph" g hx (by omega)
  obtain ⟨hscan', hcalls', -⟩ := hgraphs "sum" g' hx' (by omega)
  exact ⟨g, g', hx, hx', by decide +kernel, hlog, hscan, hcalls, hscan', hcalls'⟩

end Session

end Dataflow
