import Dataflow.Json.Part
import Dataflow.Profile.ReadError

/-!
# Reading profiling records

A list of records is a JSON array.  A record is an object that gives each of the six fields once,
in any order and among any other members, or an array of the six counts in declaration order.

The text is read once from left to right, and the first problem met is the answer: a field named
again is refused before its value is looked at, and a missing field when the object ends.
-/

namespace Dataflow.Profile

open Json (Fault skipSpaces)

/-- A fault of the text itself. -/
def fault {α : Type} (f : Fault) : Except ReadError α := .error (.text f)

/-- A refusal of text that is JSON. -/
def refuse {α : Type} (m : Misfit) : Except ReadError α := .error (.misfit m)

/-- The answer of a scanner that knows nothing of records. -/
def lift {α : Type} : Except Fault α → Except ReadError α
  | .ok a => .ok a
  | .error f => fault f

@[simp] theorem lift_eq_ok {α : Type} {x : Except Fault α} {a : α} :
    lift x = .ok a ↔ x = .ok a := by
  cases x <;> simp [lift, fault]

/-- The sort of the value that begins with the given character.  A string or a number is read to
its end, an array or an object is known by its bracket. -/
def scanSort (c : Char) (rest : List Char) : Except Fault Found :=
  if c = 'n' then (Json.scanWord ['u', 'l', 'l'] rest).map fun _ => .null
  else if c = 't' then (Json.scanWord ['r', 'u', 'e'] rest).map fun _ => .boolean true
  else if c = 'f' then (Json.scanWord ['a', 'l', 's', 'e'] rest).map fun _ => .boolean false
  else if c = '"' then (Json.scanString rest).map fun p => .string (String.ofList p.1)
  else if c = '[' then .ok .sequence
  else if c = '\x7b' then .ok .map
  else if c = '-' ∨ c.isDigit then
    (Json.scanNumber (c :: rest)).map fun p =>
      match p.1 with
      | .integer n => .integer n
      | .float => .float
  else .error .malformed

/-- The refusal of a value that does not begin as it should. -/
def misplaced {α : Type} (expected : Expected) (c : Char) (rest : List Char) :
    Except ReadError α :=
  match scanSort c rest with
  | .ok found => refuse (.wrongSort found expected)
  | .error f => fault f

theorem misplaced_ne_ok {α : Type} {expected : Expected} {c : Char} {rest : List Char} {a : α} :
    misplaced expected c rest ≠ .ok a := by
  unfold misplaced
  split <;> simp [refuse, fault]

/-- A count of 32 bits. -/
def readCount (s : List Char) : Except ReadError (UInt32 × List Char) :=
  match skipSpaces s with
  | [] => fault .truncated
  | c :: rest =>
    if c = '-' ∨ c.isDigit then
      match Json.scanNumber (c :: rest) with
      | .error f => fault f
      | .ok (.float, _) => refuse (.wrongSort .float .count)
      | .ok (.integer n, rest') =>
        if 0 ≤ n ∧ n ≤ 4294967295 then .ok (UInt32.ofNat n.toNat, rest')
        else refuse (.countOutOfRange n)
    else misplaced .count c rest

theorem length_readCount {s r : List Char} {n : UInt32} (h : readCount s = .ok (n, r)) :
    r.length < s.length := by
  unfold readCount at h
  split at h
  · cases h
  · rename_i c rest heq
    have h₁ := Json.length_of_skipSpaces heq
    split at h
    · split at h
      · cases h
      · cases h
      · rename_i n' rest' hn
        have h₂ := Json.length_scanNumber hn
        simp only [List.length_cons] at h₂
        split at h
        · cases h; omega
        · cases h
    · exact absurd h misplaced_ne_ok

/-! ## Records written as arrays -/

/-- So many counts of an array, of which `done` are read before. -/
def readCounts (done : Nat) : Nat → List Char → Except ReadError (List UInt32 × List Char)
  | 0, s => .ok ([], s)
  | left + 1, s =>
    match Json.nextElement (done = 0) s with
    | .error f => fault f
    | .ok (.closed _) => refuse (.tooShort done)
    | .ok (.part s) =>
      match readCount s with
      | .error e => .error e
      | .ok (n, s) => (readCounts (done + 1) left s).map fun p => (n :: p.1, p.2)

/-- The record of six counts in declaration order. -/
def ofCounts? : List UInt32 → Option Profile
  | [a, b, c, d, e, f] => some ⟨a, b, c, d, e, f⟩
  | _ => none

/-- A record written as an array, whose opening bracket is read. -/
def readArray (s : List Char) : Except ReadError (Profile × List Char) :=
  match readCounts 0 6 s with
  | .error e => .error e
  | .ok (counts, s) =>
    match Json.scanArrayEnd s, ofCounts? counts with
    | .error f, _ => fault f
    | .ok s, some p => .ok (p, s)
    | .ok _, none => refuse (.tooShort counts.length)

theorem length_readCounts_le {done left : Nat} {s r : List Char} {ns : List UInt32}
    (h : readCounts done left s = .ok (ns, r)) : r.length ≤ s.length := by
  induction left generalizing done s ns with
  | zero => cases h; exact Nat.le_refl _
  | succ left ih =>
    rw [readCounts] at h
    split at h
    · cases h
    · cases h
    · rename_i s' hn
      have h₁ := Json.length_nextElement_part hn
      split at h
      · cases h
      · rename_i n s'' hc
        have h₂ := length_readCount hc
        cases hr : readCounts (done + 1) left s'' with
        | error e => rw [hr] at h; cases h
        | ok p =>
          obtain ⟨ms, r'⟩ := p
          rw [hr] at h; cases h
          have := ih hr
          omega

theorem length_readArray {s r : List Char} {p : Profile} (h : readArray s = .ok (p, r)) :
    r.length < s.length := by
  unfold readArray at h
  split at h
  · cases h
  · rename_i counts s' hc
    have h₁ := length_readCounts_le hc
    split at h
    · cases h
    · rename_i he _
      have h₂ := Json.length_scanArrayEnd he
      cases h; omega
    · cases h

/-! ## Records written as objects -/

/-- The fields of an object read so far. -/
abbrev Seen := List (Field × UInt32)

/-- The count of a field, which has to be there. -/
def Seen.need (seen : Seen) (f : Field) : Except ReadError UInt32 :=
  match seen.lookup f with
  | some n => .ok n
  | none => refuse (.missingField f)

/-- The record of the fields seen.  Of several missing fields the first is reported. -/
def Seen.record (seen : Seen) : Except ReadError Profile := do
  let elements ← seen.need .elements
  let valids ← seen.need .valids
  let readies ← seen.need .readies
  let transfers ← seen.need .transfers
  let packets ← seen.need .packets
  let cycles ← seen.need .cycles
  return ⟨elements, valids, readies, transfers, packets, cycles⟩

/-- The count of a field that is named for the first time, behind its name. -/
def readField (seen : Seen) (f : Field) (s : List Char) : Except ReadError (Seen × List Char) :=
  if (seen.lookup f).isSome then refuse (.duplicateField f)
  else
    match Json.scanColon s with
    | .error e => fault e
    | .ok s => (readCount s).map fun p => (seen ++ [(f, p.1)], p.2)

/-- A member of another name, behind that name.  Its value has no influence. -/
def skipMember (s : List Char) : Except Fault (List Char) :=
  match Json.scanColon s with
  | .error e => .error e
  | .ok s => Json.skipValue [] s

/-- A member, whose opening quote is read, beside the fields seen before it. -/
def readMember (seen : Seen) (s : List Char) : Except ReadError (Seen × List Char) :=
  match Json.scanString s with
  | .error e => fault e
  | .ok (name, s) =>
    match Field.ofName? (String.ofList name) with
    | some f => readField seen f s
    | none => (lift (skipMember s)).map fun s => (seen, s)

theorem length_readField {seen seen' : Seen} {f : Field} {s r : List Char}
    (h : readField seen f s = .ok (seen', r)) : r.length < s.length := by
  unfold readField at h
  split at h
  · cases h
  · split at h
    · cases h
    · rename_i s' hc
      have h₁ := Json.length_scanColon hc
      cases hr : readCount s' with
      | error e => rw [hr] at h; cases h
      | ok p =>
        rw [hr] at h; cases h
        have := length_readCount (n := p.1) (r := p.2) hr
        omega

theorem length_skipMember {s r : List Char} (h : skipMember s = .ok r) :
    r.length < s.length := by
  unfold skipMember at h
  split at h
  · cases h
  · rename_i s' hc
    have h₁ := Json.length_scanColon hc
    have h₂ := Json.length_skipValue h
    omega

theorem length_readMember {seen seen' : Seen} {s r : List Char}
    (h : readMember seen s = .ok (seen', r)) : r.length < s.length := by
  unfold readMember at h
  split at h
  · cases h
  · rename_i name s' hs
    have h₁ := Json.length_scanString hs
    split at h
    · have h₂ := length_readField h
      omega
    · cases hm : skipMember s' with
      | error e => rw [hm] at h; cases h
      | ok s'' =>
        rw [hm] at h; cases h
        have h₂ := length_skipMember hm
        omega

/-- A record written as an object, whose opening brace and first members are read. -/
def readMembers (first : Bool) (seen : Seen) (s : List Char) :
    Except ReadError (Profile × List Char) :=
  match _h : Json.nextMember first s with
  | .error e => fault e
  | .ok (.closed rest) => seen.record.map fun p => (p, rest)
  | .ok (.part rest) =>
    match _hm : readMember seen rest with
    | .error e => .error e
    | .ok (seen, rest') => readMembers false seen rest'
termination_by s.length
decreasing_by
  have := Json.length_nextMember_part _h
  have := length_readMember _hm
  omega

theorem length_readMembers {first : Bool} {seen : Seen} {s r : List Char} {p : Profile}
    (h : readMembers first seen s = .ok (p, r)) : r.length < s.length := by
  fun_induction readMembers first seen s with
  | case1 => cases h
  | case2 first seen s rest hn =>
    have h₁ := Json.length_nextMember_closed hn
    cases hr : seen.record with
    | error e => rw [hr] at h; cases h
    | ok q => rw [hr] at h; cases h; exact h₁
  | case3 => cases h
  | case4 first seen s rest hn seen' rest' hm ih =>
    have h₁ := Json.length_nextMember_part hn
    have h₂ := length_readMember hm
    have := ih h
    omega

/-! ## Lists of records -/

/-- A record of either form. -/
def readRecord (s : List Char) : Except ReadError (Profile × List Char) :=
  match skipSpaces s with
  | [] => fault .truncated
  | c :: rest =>
    if c = '[' then readArray rest
    else if c = '\x7b' then readMembers true [] rest
    else misplaced .record c rest

theorem length_readRecord {s r : List Char} {p : Profile} (h : readRecord s = .ok (p, r)) :
    r.length < s.length := by
  unfold readRecord at h
  split at h
  · cases h
  · rename_i c rest heq
    have h₁ := Json.length_of_skipSpaces heq
    split at h
    · have := length_readArray h; omega
    · split at h
      · have := length_readMembers h; omega
      · exact absurd h misplaced_ne_ok

/-- The records of the list, whose opening bracket and first records are read. -/
def readRecords (first : Bool) (s : List Char) : Except ReadError (List Profile × List Char) :=
  match _h : Json.nextElement first s with
  | .error e => fault e
  | .ok (.closed rest) => .ok ([], rest)
  | .ok (.part rest) =>
    match _hr : readRecord rest with
    | .error e => .error e
    | .ok (p, rest') => (readRecords false rest').map fun q => (p :: q.1, q.2)
termination_by s.length
decreasing_by
  have := Json.length_nextElement_part _h
  have := length_readRecord _hr
  omega

/-- A whole text that has to be one list of records. -/
def readDocument (s : List Char) : Except ReadError (List Profile) :=
  match skipSpaces s with
  | [] => fault .truncated
  | c :: rest =>
    if c = '[' then
      match readRecords true rest with
      | .error e => .error e
      | .ok (records, rest) => if skipSpaces rest = [] then .ok records else fault .malformed
    else misplaced .records c rest

/-- The profiling records that a text holds. -/
def readAll (text : String) : Except ReadError (List Profile) :=
  readDocument text.toList

end Dataflow.Profile
