import Dataflow.Workshop

/-!
# Built-in designs

A design is a recipe for a graph: transforms to be made and registered in order, then connections
to be made and registered in order.  `Design.build` follows a recipe step by step through the
ordinary operations, so a built design is a graph like any other, and its registrations are in the
log.
-/

namespace Dataflow

/-- A side of a connection, in terms of a transform's name. -/
inductive Socket
  /-- The transform itself, for its only port of the direction that is needed. -/
  | whole (transform : String)
  /-- The port of this name. -/
  | port (transform name : String)
  /-- The output at this position. -/
  | output (transform : String) (index : Nat)
deriving DecidableEq, Repr

/-- A connection between two sides. -/
structure Link where
  source : Socket
  target : Socket
  label : Option String := none
deriving DecidableEq, Repr

/-- A recipe for a graph of the same name. -/
structure Design where
  name : String
  /-- The design in a few words. -/
  about : String
  plans : List Plan
  links : List Link

namespace Socket

/-- The transform of this name in the graph. -/
def transformIn (g : Graph) (name : String) : Except Error Transform :=
  match g.transform? name with
  | some t => .ok t
  | none => .error (.notFound (.transform name))

/-- The end of a connection that the side stands for. -/
def endpoint (g : Graph) : Socket → Except Error Endpoint
  | whole t => return .transform (← transformIn g t)
  | port t name => do
    let t ← transformIn g t
    return .port (← t.port name)
  | output t index => do
    let t ← transformIn g t
    return .port (← t.portAt .output index)

end Socket

namespace Link

/-- The edge that the link describes. -/
def edge (g : Graph) (l : Link) : Except Error Edge := do
  let a ← l.source.endpoint g
  let b ← l.target.endpoint g
  let e ← connect a b
  match l.label with
  | none => return e
  | some label => return e.named label

end Link

namespace Workshop

/-- What comes of a registration in a graph that is being built: a graph that refuses is given up. -/
def built (r : (Workshop × Graph) × Except Error Unit) : Workshop × Except Error Graph :=
  (r.1.1, r.2.map fun _ => r.1.2)

/-- Makes and registers the planned transforms. -/
def addPlans : List Plan → Workshop → Graph → Workshop × Except Error Graph
  | [], w, g => (w, .ok g)
  | plan :: rest, w, g =>
    match w.make plan with
    | (w, .error e) => (w, .error e)
    | (w, .ok t) =>
      match built (w.addTransform g t) with
      | (w, .error e) => (w, .error e)
      | (w, .ok g) => addPlans rest w g

/-- Makes and registers the connections. -/
def addLinks : List Link → Workshop → Graph → Workshop × Except Error Graph
  | [], w, g => (w, .ok g)
  | link :: rest, w, g =>
    match link.edge g with
    | .error e => (w, .error e)
    | .ok e =>
      match built (w.addEdge g e) with
      | (w, .error e) => (w, .error e)
      | (w, .ok g) => addLinks rest w g

end Workshop

namespace Design

/-- Builds the graph. -/
def build (d : Design) (w : Workshop) : Workshop × Except Error Graph :=
  match w.addPlans d.plans (Graph.empty d.name) with
  | (w, .error e) => (w, .error e)
  | (w, .ok g) => w.addLinks d.links g

/-- The numbers of the adder. -/
def word : PortType := ⟨"i32"⟩

/-- The items of the stream. -/
def beat : PortType := ⟨"u64"⟩

/-- Two sources are summed into one sink. -/
def adder : Design where
  name := "adder"
  about := "two sources summed into one sink"
  plans :=
    [{ name := "lhs", outputs := [("out", word)] },
     { name := "rhs", outputs := [("out", word)] },
     { name := "add"
       inputs := [("a", word), ("b", word)]
       outputs := [("sum", word)]
       constants := [("width", some (.literal "32"))] },
     { name := "sink", inputs := [("in", word)] }]
  links :=
    [⟨.whole "lhs", .port "add" "a", none⟩,
     ⟨.output "rhs" 0, .port "add" "b", none⟩,
     ⟨.whole "add", .whole "sink", some "result"⟩]

/-- A filter between a reader and a writer of memory; the depth of its buffer comes from
profiling. -/
def stream : Design where
  name := "stream"
  about := "memory reader -> filter -> memory writer with profiled constants"
  plans :=
    [{ name := "reader"
       readsMemory := true
       outputs := [("data", beat)]
       constants := [("bus_width", some (.literal "512"))] },
     { name := "filter"
       inputs := [("in", beat)]
       outputs := [("out", beat)]
       constants :=
        [("predicate", some (.literal "x > 0")),
         ("fifo_depth", some (.computed (.measure .bufferDepth)))] },
     { name := "writer"
       writesMemory := true
       inputs := [("data", beat)]
       constants := [("burst_len", none)] }]
  links :=
    [⟨.whole "reader", .whole "filter", some "raw"⟩,
     ⟨.whole "filter", .whole "writer", some "filtered"⟩]

/-- The designs that come with the program. -/
def all : List Design := [adder, stream]

/-- The design of exactly this name. -/
def find? (name : String) : Option Design := all.find? (·.name = name)

end Design

end Dataflow
