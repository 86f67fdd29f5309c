import Dataflow.CommandLine.Run

/-!
# The program

Prints the answer to the arguments, the lines on standard output and a failure beside them, and exits
with its code.  The log that the flag `-v` asks for is no part of the answer and is not written.
-/

open Dataflow.CommandLine in
/-- Carries out what the arguments ask for. -/
def main (arguments : List String) : IO UInt32 := do
  let answer := run arguments
  IO.print answer.output
  match answer.ending with
  | .ok () => return 0
  | .error f =>
    let words := match f with
      | .usage r => r.kind
      | _ => f.message?.getD "invalid profiling records"
    IO.eprintln words
    return UInt32.ofNat f.code
