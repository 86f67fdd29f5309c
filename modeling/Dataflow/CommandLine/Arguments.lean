/-!
# Reading the command line

`Command.ofArguments` turns the arguments into a command or says why they are refused.  The rules
are the usual ones.

* Before the command only flags may stand.  `help`, beside the name of a command or alone, and the
  flag `-h` ask for help.
* An argument that begins with two dashes is a long option, `--name` or `--name=value`.  One that
  begins with one dash is a cluster of short flags; the first of them that takes a value takes the
  rest of the cluster, less one equals sign, if there is any rest.  A single dash is an ordinary
  argument, and behind `--` every argument is one.
* An option without an attached value takes the next argument, unless that looks like an option.
* The flag `-v` may stand once before the command and once behind it.

Arguments are read from left to right, and the first refusal is the answer.  Whether the value of
an option is missing, and whether the option was given before, is decided as soon as the next
argument is known to be in order, or at the end (`Arguments.settle`).
-/

namespace Dataflow.CommandLine

/-- What the user wants. -/
inductive Command
  /-- A list of the designs. -/
  | designs
  /-- The transforms and edges of a design. -/
  | inspect (design : String)
  /-- The texts of a design's constants for profiling records given as JSON text. -/
  | resolve (design profiles : String)
deriving DecidableEq, Repr

/-- Why there is no command to carry out. -/
inductive Refusal
  /-- Help was asked for. -/
  | help
  /-- There are no arguments, and help is the best answer. -/
  | helpForNothing
  /-- The word that should be a command is none. -/
  | unknownCommand
  /-- There is no command, only a flag. -/
  | missingCommand
  /-- An option that nobody knows, or an argument too many. -/
  | unknownArgument
  /-- The command needs a further argument. -/
  | missingArgument
  /-- An option without its value. -/
  | missingValue
  /-- A value for a flag that takes none. -/
  | unwantedValue
  /-- An option given twice. -/
  | repeatedOption
deriving DecidableEq, Repr

namespace Refusal

/-- The class of the refusal. -/
def kind : Refusal → String
  | help => "DisplayHelp"
  | helpForNothing => "DisplayHelpOnMissingArgumentOrSubcommand"
  | unknownCommand => "InvalidSubcommand"
  | missingCommand => "MissingSubcommand"
  | unknownArgument => "UnknownArgument"
  | missingArgument => "MissingRequiredArgument"
  | missingValue => "InvalidValue"
  | unwantedValue => "TooManyValues"
  | repeatedOption => "ArgumentConflict"

/-- The exit code: help that was asked for is no failure. -/
def code : Refusal → Nat
  | help => 0
  | _ => 2

end Refusal

/-! ## Arguments by their form -/

/-- An argument, as its form shows it. -/
inductive Argument
  /-- `--`, behind which everything is a plain argument. -/
  | escape
  /-- `--name` or `--name=value`. -/
  | long (name : List Char) (value : Option (List Char))
  /-- One dash and the characters behind it. -/
  | cluster (flags : List Char)
  /-- Anything else. -/
  | plain (text : List Char)
deriving DecidableEq, Repr

/-- A long option, split at its first equals sign. -/
def splitLong (s : List Char) : Argument :=
  match s.dropWhile (· ≠ '=') with
  | [] => .long s none
  | _ :: value => .long (s.takeWhile (· ≠ '=')) (some value)

/-- The form of an argument. -/
def Argument.ofChars : List Char → Argument
  | ['-', '-'] => .escape
  | '-' :: '-' :: rest => splitLong rest
  | ['-'] => .plain ['-']
  | '-' :: rest => .cluster rest
  | s => .plain s

/-- The form of an argument. -/
def Argument.ofString (s : String) : Argument := .ofChars s.toList

/-! ## The arguments of a command -/

/-- The flags and options that there are. -/
inductive Switch
  | verbose
  | help
  | profiles
deriving DecidableEq, Repr

/-- What a command takes. -/
structure Grammar where
  /-- The command needs the name of a design. -/
  takesDesign : Bool
  /-- The command takes the option for profiling records. -/
  takesProfiles : Bool
deriving DecidableEq, Repr

/-- The value of the option for records: it waits for the argument that holds it, or holds it
already. -/
inductive Pending
  | awaited
  | held (value : List Char)
deriving DecidableEq, Repr

/-- What has been read so far. -/
structure Arguments where
  verbose : Bool := false
  design : Option (List Char) := none
  profiles : Option (List Char) := none
  /-- An option for records that is not settled yet. -/
  pending : Option Pending := none
  /-- `--` has been read. -/
  escaped : Bool := false
deriving DecidableEq, Repr

/-- The option of a long name. -/
def Grammar.long? (g : Grammar) (name : List Char) : Option Switch :=
  if name = "verbose".toList then some .verbose
  else if name = "help".toList then some .help
  else if name = "profiles".toList ∧ g.takesProfiles then some .profiles
  else none

/-- The option of a letter. -/
def Grammar.short? (g : Grammar) (letter : Char) : Option Switch :=
  if letter = 'v' then some .verbose
  else if letter = 'h' then some .help
  else if letter = 'p' ∧ g.takesProfiles then some .profiles
  else none

namespace Arguments

/-- Takes a value for the records, which may be given once. -/
def giveProfiles (a : Arguments) (value : List Char) : Except Refusal Arguments :=
  if a.profiles.isSome then .error .repeatedOption else .ok { a with profiles := some value }

/-- Settles an option for records that is still pending. -/
def settle (a : Arguments) : Except Refusal Arguments :=
  match a.pending with
  | none => .ok a
  | some .awaited => .error .missingValue
  | some (.held value) => { a with pending := none }.giveProfiles value

/-- Raises the flag, which may be given once. -/
def raiseVerbose (a : Arguments) : Except Refusal Arguments := do
  let a ← a.settle
  if a.verbose then .error .repeatedOption else return { a with verbose := true }

/-- Takes an option, with its value if one is attached. -/
def takeOption (a : Arguments) (o : Switch) (value : Option (List Char)) :
    Except Refusal Arguments :=
  match o, value with
  | .verbose, none => a.raiseVerbose
  | .help, none => do
    let _ ← a.settle
    .error .help
  | .verbose, some _ => .error .unwantedValue
  | .help, some _ => .error .unwantedValue
  | .profiles, some value => do (← a.settle).giveProfiles value
  | .profiles, none => return { ← a.settle with pending := some .awaited }

/-- The value attached to an option inside a cluster. -/
def attached : List Char → Option (List Char)
  | [] => none
  | '=' :: rest => some rest
  | rest => some rest

/-- Takes the flags of a cluster one after another. -/
def takeCluster (g : Grammar) : List Char → Arguments → Except Refusal Arguments
  | [], a => .ok a
  | c :: rest, a =>
    match g.short? c with
    | none => .error .unknownArgument
    | some .profiles => a.takeOption .profiles (attached rest)
    | some o => do takeCluster g rest (← a.takeOption o none)

/-- Takes a plain argument: the value that an option waits for, or the design. -/
def takePlain (g : Grammar) (a : Arguments) (text : List Char) : Except Refusal Arguments :=
  if a.pending = some .awaited ∧ ¬ a.escaped then .ok { a with pending := some (.held text) }
  else if a.design.isSome ∨ ¬ g.takesDesign then .error .unknownArgument
  else return { ← a.settle with design := some text }

/-- Takes the next argument. -/
def take (g : Grammar) (a : Arguments) (s : String) : Except Refusal Arguments :=
  if a.escaped then a.takePlain g s.toList
  else match Argument.ofString s with
    | .escape => .ok { a with escaped := true }
    | .long name value =>
      match g.long? name with
      | none => .error .unknownArgument
      | some o => a.takeOption o value
    | .cluster flags => takeCluster g flags a
    | .plain text => a.takePlain g text

/-- Takes all arguments, and settles what is pending at the end. -/
def takeAll (g : Grammar) : List String → Arguments → Except Refusal Arguments
  | [], a => a.settle
  | s :: rest, a => do takeAll g rest (← a.take g s)

end Arguments

/-! ## Commands -/

/-- The names of the commands; `help` is one of them. -/
def commandNames : List String := ["designs", "show", "resolve", "help"]

/-- The arguments of a command without the optional records. -/
def Arguments.requireDesign (a : Arguments) : Except Refusal String :=
  match a.design with
  | some d => .ok (String.ofList d)
  | none => .error .missingArgument

/-- Help on a command, or on the program. -/
def helpOn : List String → Refusal
  | [] => .help
  | [name] => if commandNames.contains name then .help else .unknownCommand
  | _ => .unknownCommand

/-- The command of this name with these arguments. -/
def command? (name : String) (rest : List String) : Option (Except Refusal Command) :=
  if name = "designs" then
    some do
      let _ ← Arguments.takeAll ⟨false, false⟩ rest {}
      return .designs
  else if name = "show" then
    some do
      let a ← Arguments.takeAll ⟨true, false⟩ rest {}
      return .inspect (← a.requireDesign)
  else if name = "resolve" then
    some do
      let a ← Arguments.takeAll ⟨true, true⟩ rest {}
      return .resolve (← a.requireDesign) (String.ofList (a.profiles.getD "[]".toList))
  else if name = "help" then some (.error (helpOn rest))
  else none

/-- What stands before the command takes neither a design nor records. -/
def flagsOnly : Grammar := ⟨false, false⟩

/-- Reads flags up to the command, and then the command. -/
def readCommand (a : Arguments) : List String → Except Refusal Command
  | [] => .error (if a.verbose then .missingCommand else .helpForNothing)
  | s :: rest =>
    if a.escaped then
      .error (if commandNames.contains s then .unknownArgument else .unknownCommand)
    else match command? s rest with
      | some answer => answer
      | none =>
        match Argument.ofString s with
        | .plain _ => .error .unknownCommand
        | _ => do readCommand (← a.take flagsOnly s) rest

/-- The command that the arguments ask for. -/
def Command.ofArguments (arguments : List String) : Except Refusal Command :=
  readCommand {} arguments

example : Command.ofArguments ["resolve", "d", "--profiles=t"] = .ok (.resolve "d" "t") := by rfl
example : Command.ofArguments ["resolve", "-vp=t", "d"] = .ok (.resolve "d" "t") := by rfl
example : Command.ofArguments ["resolve", "d"] = .ok (.resolve "d" "[]") := by rfl
example : Command.ofArguments ["show", "--", "-d"] = .ok (.inspect "-d") := by rfl
example : Command.ofArguments ["resolve", "d", "-p", "-v"] = .error .missingValue := by rfl
example : Command.ofArguments ["resolve", "d", "-pa", "-p", "b"] = .error .repeatedOption := by rfl
example : Command.ofArguments ["show", "d", "e"] = .error .unknownArgument := by rfl
example : Command.ofArguments [] = .error .helpForNothing := by rfl

end Dataflow.CommandLine
