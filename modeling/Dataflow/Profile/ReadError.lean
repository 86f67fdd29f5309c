import Dataflow.Json.Text
import Dataflow.Profile.Basic
import Dataflow.Text.Quoted

/-!
# Why a text is no list of profiling records

Either the text is not JSON up to the place where reading stopped, or it is JSON of another shape
than a list of records.  Only the second kind of refusal is put into words; a misplaced float has
no words either.
-/

namespace Dataflow.Profile

/-- A value found where another one was due. -/
inductive Found
  | null
  | boolean (b : Bool)
  | integer (n : Int)
  | float
  | string (s : String)
  | sequence
  | map
deriving DecidableEq, Repr

/-- What was due. -/
inductive Expected
  /-- The list of records. -/
  | records
  /-- One record. -/
  | record
  /-- A count of 32 bits. -/
  | count
deriving DecidableEq, Repr

/-- In what way a JSON text differs from a list of records. -/
inductive Misfit
  /-- A record ends without this field. -/
  | missingField (field : Field)
  /-- A record names this field again. -/
  | duplicateField (field : Field)
  /-- A record written as an array ends after so many counts. -/
  | tooShort (counts : Nat)
  /-- A count is negative or exceeds 32 bits. -/
  | countOutOfRange (n : Int)
  /-- A value of another sort than the one that is due. -/
  | wrongSort (found : Found) (expected : Expected)
deriving DecidableEq, Repr

/-- Why reading stopped. -/
inductive ReadError
  /-- The text is not JSON up to here. -/
  | text (fault : Json.Fault)
  /-- The text is JSON up to here, but no list of records. -/
  | misfit (what : Misfit)
deriving DecidableEq, Repr

/-- What was found, unless it is a float. -/
def Found.text? : Found → Option String
  | null => some "null"
  | boolean b => some ("boolean `" ++ toString b ++ "`")
  | integer n => some ("integer `" ++ toString n ++ "`")
  | float => none
  | string s => some ("string " ++ Text.quote s)
  | sequence => some "sequence"
  | map => some "map"

/-- What was due, in words. -/
def Expected.text : Expected → String
  | records => "a sequence"
  | record => "struct VertexProfile"
  | count => "u32"

/-- The difference in words, unless it is a misplaced float. -/
def Misfit.message? : Misfit → Option String
  | missingField f => some ("missing field `" ++ f.name ++ "`")
  | duplicateField f => some ("duplicate field `" ++ f.name ++ "`")
  | tooShort n =>
    some ("invalid length " ++ toString n ++ ", expected struct VertexProfile with 6 elements")
  | countOutOfRange n => some ("invalid value: integer `" ++ toString n ++ "`, expected u32")
  | wrongSort found expected =>
    found.text?.map fun t => "invalid type: " ++ t ++ ", expected " ++ expected.text

namespace ReadError

/-- The class of the refusal. -/
def category : ReadError → String
  | text .truncated => "Eof"
  | text .malformed => "Syntax"
  | misfit _ => "Data"

/-- The refusal in words, where it has any. -/
def message? : ReadError → Option String
  | text _ => none
  | misfit m => m.message?

end ReadError

end Dataflow.Profile
