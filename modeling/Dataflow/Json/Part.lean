import Dataflow.Json.Skip

/-!
# The parts of an array and of an object

Between two parts stands a comma, and none before the closing bracket.  `nextElement` and
`nextMember` take a reader from one part to the next or out of the enclosure; what they leave is
shorter, except that the next element of an array may begin at once.
-/

namespace Dataflow.Json

/-- What comes next inside an array or an object. -/
inductive Next
  /-- The closing bracket; it is read. -/
  | closed (rest : List Char)
  /-- Another part; the comma before it is read. -/
  | part (rest : List Char)

/-- The next element of an array, or its end. -/
def nextElement (first : Bool) (s : List Char) : Except Fault Next :=
  match skipSpaces s with
  | [] => .error .truncated
  | c :: rest =>
    if c = ']' then .ok (.closed rest)
    else if first then .ok (.part (c :: rest))
    else if c = ',' then
      match skipSpaces rest with
      | [] => .error .truncated
      | d :: rest' => if d = ']' then .error .malformed else .ok (.part (d :: rest'))
    else .error .malformed

/-- The name of the next member of an object, whose opening quote is read, or the object's end. -/
def nextMember (first : Bool) (s : List Char) : Except Fault Next :=
  match skipSpaces s with
  | [] => .error .truncated
  | c :: rest =>
    if c = '\x7d' then .ok (.closed rest)
    else if first then
      if c = '"' then .ok (.part rest) else .error .malformed
    else if c = ',' then
      match skipSpaces rest with
      | [] => .error .truncated
      | d :: rest' => if d = '"' then .ok (.part rest') else .error .malformed
    else .error .malformed

/-- What follows the closing bracket of an array that has no further element. -/
def scanArrayEnd (s : List Char) : Except Fault (List Char) :=
  match skipSpaces s with
  | [] => .error .truncated
  | c :: rest => if c = ']' then .ok rest else .error .malformed

theorem length_nextElement_part {first : Bool} {s r : List Char}
    (h : nextElement first s = .ok (.part r)) : r.length ≤ s.length := by
  unfold nextElement at h
  split at h
  · cases h
  · rename_i c rest heq
    have h₁ := length_of_skipSpaces heq
    split at h
    · cases h
    · split at h
      · cases h; exact h₁
      · split at h
        · split at h
          · cases h
          · rename_i d rest' heq'
            have h₂ := length_of_skipSpaces heq'
            split at h
            · cases h
            · cases h; simp only [List.length_cons]; omega
        · cases h

theorem length_nextMember_closed {first : Bool} {s r : List Char}
    (h : nextMember first s = .ok (.closed r)) : r.length < s.length := by
  unfold nextMember at h
  split at h
  · cases h
  · rename_i c rest heq
    split at h
    · cases h; exact length_of_skipSpaces heq
    · repeat' split at h
      all_goals cases h

theorem length_nextMember_part {first : Bool} {s r : List Char}
    (h : nextMember first s = .ok (.part r)) : r.length < s.length := by
  unfold nextMember at h
  split at h
  · cases h
  · rename_i c rest heq
    have h₁ := length_of_skipSpaces heq
    split at h
    · cases h
    · split at h
      · split at h
        · cases h; exact h₁
        · cases h
      · split at h
        · split at h
          · cases h
          · rename_i d rest' heq'
            have h₂ := length_of_skipSpaces heq'
            split at h
            · cases h; omega
            · cases h
        · cases h

theorem length_scanArrayEnd {s r : List Char} (h : scanArrayEnd s = .ok r) :
    r.length < s.length := by
  unfold scanArrayEnd at h
  split at h
  · cases h
  · rename_i c rest heq
    split at h
    · cases h; exact length_of_skipSpaces heq
    · cases h

end Dataflow.Json
