import Dataflow.Store

/-!
# The text of a constant

A literal is its own text.  A computed value needs at least one record, and it is the value that
the constant has when its resolution begins, whatever the computation does to the constant.

A chain resolves a further constant with fewer records.  When every chain leaves out at least one
record, the records run out and resolution ends; chains that leave out none may come back to the
same constant with the same records.  The store does not change on the way down, so more steps than
there are pairs of a bound cell and a number of records mean that resolution never ends; then the
constant counts as unbound.
-/

namespace Dataflow.Store

/-- The text that a chain makes of what it finds at its end. -/
def chainText : Except Error String → String
  | .ok text => "<" ++ text ++ ">"
  | .error e => "!" ++ e.message

/-- Sets a constant of a transform to a text; the text of the computation tells what happened. -/
def rebind (s : Store) (owner : Transform) (name text : String) (records : List Profile) :
    String × Store :=
  match owner.constant name with
  | .ok c =>
    ("rebound " ++ c.name ++ " after " ++ toString records.length, s.set c (.literal text))
  | .error e => (e.message, s)

/-- Resolves a constant along at most `steps` chains; `none` if they do not suffice. -/
def resolveWithin (steps : Nat) (s : Store) (c : Constant) (records : List Profile) :
    Option (Except Error String × Store) :=
  match s.value c with
  | .error e => some (.error e, s)
  | .ok (.literal text) => some (.ok text, s)
  | .ok (.computed f) =>
    if records = [] then some (.error (.unboundValue c.name .noRecords), s)
    else match f with
      | .measure m => some (.ok (m records), s)
      | .rebind owner name text =>
        let (answer, s') := s.rebind owner name text records
        some (.ok answer, s')
      | .chain owner name skip =>
        match owner.constant name with
        | .error e => some (.ok (chainText (.error e)), s)
        | .ok d =>
          match steps with
          | 0 => none
          | steps + 1 =>
            (resolveWithin steps s d (records.drop skip)).map fun r => (.ok (chainText r.1), r.2)

/-- As many chains as can follow each other without coming back to a constant with the same
records. -/
def chainLimit (s : Store) (records : List Profile) : Nat := s.cells.size * records.length

/-- The text of a constant for these records, and the store afterwards. -/
def resolve (s : Store) (c : Constant) (records : List Profile) : Except Error String × Store :=
  (s.resolveWithin (s.chainLimit records) c records).getD
    (.error (.unboundValue c.name .circular), s)

end Dataflow.Store
