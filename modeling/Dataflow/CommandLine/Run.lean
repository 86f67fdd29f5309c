import Dataflow.CommandLine.Arguments
import Dataflow.Design
import Dataflow.Graph.Validate
import Dataflow.Profile.Reader

/-!
# Carrying out commands

A command prints lines one after another and may fail on the way (`CommandLine.Work`).  The lines that it
has printed stay printed: they stand beside the cause of the failure.  Its stages are in this order.  The
profiling records are read, the design is looked up, built and checked, and then the lines are printed,
each constant being resolved when its line is due.

Only what the commands print themselves is an answer.  The program also logs the registrations when the
flag `-v` is given, or when the environment asks for it; the log stays in the workshop and is no part of
the answer, so here the flag has no effect.  Nor are the texts of help and usage part of it: of a refusal
of the arguments there is only the class.
-/

namespace Dataflow.CommandLine

/-- Why the program fails. -/
inductive Failure
  /-- There is no design of this name. -/
  | unknownDesign (name : String)
  /-- The text given for profiling records holds none. -/
  | unreadable (e : Profile.ReadError)
  /-- The design breaks a rule of graphs. -/
  | broken (e : Error)
  /-- The arguments ask for no command. -/
  | usage (r : Refusal)

namespace Failure

/-- The exit code. -/
def code : Failure → Nat
  | usage r => r.code
  | _ => 1

/-- The failure in words, where it has any. -/
def message? : Failure → Option String
  | unknownDesign name => some ("unknown design '" ++ name ++ "' (try `fg-cli designs`)")
  | unreadable e => e.message?
  | broken e => some e.message
  | usage _ => none

end Failure

/-- How far the program has come. -/
structure Progress where
  /-- The lines that have been printed. -/
  printed : List String
  workshop : Workshop

/-- Work of the program. -/
abbrev Work (α : Type) : Type := Attempt Progress Failure α

/-- Lines as they are printed, each with its end. -/
def unlines (lines : List String) : String := String.join (lines.map (· ++ "\n"))

/-- The text filled with blanks to the given number of characters. -/
def padTo (width : Nat) (s : String) : String :=
  s ++ String.ofList (List.replicate (width - s.length) ' ')

namespace Work
open Attempt

/-- Prints a line. -/
def print (line : String) : Work Unit := change fun p => { p with printed := p.printed ++ [line] }

/-- An answer that is known already. -/
def answer {α : Type} (a : Except Failure α) : Work α := read fun _ => a

/-- Works in the workshop. -/
def inWorkshop {α : Type} (work : Workshop → Workshop × α) : Work α := fun p =>
  let (w, a) := work p.workshop
  ({ p with workshop := w }, .ok a)

/-- Builds a design and checks the graph. -/
def build (name : String) : Work Graph :=
  match Design.find? name with
  | none => fail (.unknownDesign name)
  | some d => do
    let built ← inWorkshop d.build
    let g ← answer (built.mapError .broken)
    answer (g.validate.mapError .broken)
    return g

end Work

/-! ## The list of designs -/

/-- Prints the list of designs. -/
def Work.showDesigns : Work Unit := do
  print "Designs:"
  Design.all.forM fun d => print ("  " ++ padTo 10 d.name ++ " " ++ d.about)

/-! ## One design -/

/-- What is said about the memory that a transform uses. -/
def memoryNote (t : Transform) : String :=
  let notes := (if t.readsMemory then ["reads memory"] else []) ++
    (if t.writesMemory then ["writes memory"] else [])
  if notes = [] then "" else "  [" ++ ", ".intercalate notes ++ "]"

/-- The value of a constant before anything is resolved. -/
def valueNote : Option Value → String
  | some (.literal text) => text
  | some (.computed _) => "<from profile>"
  | none => "<unbound>"

/-- Prints a constant with its value. -/
def Work.showConstant (c : Constant) : Work Unit := do
  let v ← Attempt.read fun p => .ok (p.workshop.store.valueAt? c.cell)
  print ("    " ++ c.name ++ " = " ++ valueNote v)

/-- Prints a transform with its constants. -/
def Work.showTransform (t : Transform) : Work Unit := do
  print ("  " ++ t.signature ++ memoryNote t)
  t.constants.forM showConstant

/-- Prints a graph. -/
def Work.showGraph (g : Graph) : Work Unit := do
  print ("Graph: " ++ g.name)
  print "Transforms:"
  g.transforms.forM showTransform
  print "Edges:"
  g.edges.forM fun e => print ("  " ++ g.describe e)
  print "✓ Graph is valid"

/-! ## The constants of a design -/

/-- The line about a constant. -/
def constantLine (t : Transform) (c : Constant) : Except Error String → String
  | .ok text => "  " ++ t.name ++ "." ++ c.name ++ " = " ++ text
  | .error e => "  " ++ t.name ++ "." ++ c.name ++ ": " ++ e.message

/-- The header of the lines about the constants of a graph. -/
def resolutionHeader (g : Graph) (records : List Profile) : String :=
  "Resolving constants of '" ++ g.name ++ "' with " ++ toString records.length ++
    " profile record(s):"

/-- Resolves a constant and prints its line, whether or not it has a value. -/
def Work.showResolution (records : List Profile) (t : Transform) (c : Constant) : Work Unit := do
  let text ← inWorkshop (·.resolve c records)
  print (constantLine t c text)

/-- Prints the constants of a graph, each resolved in the store that the ones before it left. -/
def Work.showResolutions (records : List Profile) (g : Graph) : Work Unit := do
  print (resolutionHeader g records)
  g.transforms.forM fun t => t.constants.forM (showResolution records t)

/-! ## Commands -/

/-- What a command does. -/
def Command.work : Command → Work Unit
  | .designs => .showDesigns
  | .inspect design => do
    let g ← .build design
    .showGraph g
  | .resolve design profiles => do
    let records ← .answer ((Profile.readAll profiles).mapError .unreadable)
    let g ← .build design
    .showResolutions records g

/-- What the program does with its arguments. -/
def program (arguments : List String) : Work Unit := do
  let command ← .answer ((Command.ofArguments arguments).mapError .usage)
  command.work

/-- The answer of the program: the lines that it has printed, and how it has ended. -/
structure Answer where
  printed : List String
  ending : Except Failure Unit

namespace Answer

/-- The answer that refuses the arguments. -/
def usage (r : Refusal) : Answer := ⟨[], .error (.usage r)⟩

/-- The text on standard output. -/
def output (a : Answer) : String := unlines a.printed

/-- The exit code. -/
def code (a : Answer) : Nat :=
  match a.ending with
  | .ok () => 0
  | .error f => f.code

end Answer

/-- The answer to which some work comes in a program that has just been started. -/
def Work.finish (work : Work Unit) : Answer :=
  let (p, ending) := work ⟨[], .start 0⟩
  ⟨p.printed, ending⟩

/-- The answer to a command. -/
def Command.run (c : Command) : Answer := c.work.finish

/-- The answer of the program to its arguments. -/
def run (arguments : List String) : Answer := (program arguments).finish

end Dataflow.CommandLine
