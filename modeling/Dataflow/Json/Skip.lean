import Dataflow.Json.Number

/-!
# Values of a JSON text that nobody looks at

`skipValue` passes over one value of any shape and depth.  It keeps the arrays and objects that are
still open on a stack, so no depth of nesting is too much for it, and it stops right behind the
value (`length_skipValue`: it reads at least one character).

Nothing is built from such a value, so its numbers may have any magnitude and its escapes may stand
for half a surrogate pair.
-/

namespace Dataflow.Json

/-- What is still open around a value. -/
inductive Enclosure
  | array
  | object
deriving DecidableEq, Repr

/-- The character that closes an enclosure. -/
def Enclosure.closing : Enclosure → Char
  | array => ']'
  | object => '\x7d'

/-- What follows a word that has to stand here, letter by letter. -/
def scanWord : List Char → List Char → Except Fault (List Char)
  | [], s => .ok s
  | _ :: _, [] => .error .truncated
  | w :: word, c :: rest => if c = w then scanWord word rest else .error .malformed

/-- What follows a value without parts, whose first character is given apart. -/
def skipScalar (c : Char) (rest : List Char) : Except Fault (List Char) :=
  if c = '"' then skipString rest
  else if c = '-' then skipNumber rest
  else if c.isDigit then skipNumber (c :: rest)
  else if c = 'n' then scanWord ['u', 'l', 'l'] rest
  else if c = 't' then scanWord ['r', 'u', 'e'] rest
  else if c = 'f' then scanWord ['a', 'l', 's', 'e'] rest
  else .error .malformed

/-- What follows the colon between a name and its value. -/
def scanColon (s : List Char) : Except Fault (List Char) :=
  match skipSpaces s with
  | [] => .error .truncated
  | c :: rest => if c = ':' then .ok rest else .error .malformed

/-- What follows the name of a member and its colon. -/
def skipName (s : List Char) : Except Fault (List Char) :=
  match skipSpaces s with
  | [] => .error .truncated
  | c :: rest => if c = '"' then skipString rest >>= scanColon else .error .malformed

theorem length_scanWord_le {word s r : List Char} (h : scanWord word s = .ok r) :
    r.length ≤ s.length := by
  fun_induction scanWord word s with
  | case1 => cases h; exact Nat.le_refl _
  | case2 => cases h
  | case3 w word rest ih => have := ih h; simp only [List.length_cons]; omega
  | case4 => cases h

theorem length_skipScalar_le {c : Char} {s r : List Char} (h : skipScalar c s = .ok r) :
    r.length ≤ s.length := by
  unfold skipScalar at h
  split at h
  · exact Nat.le_of_lt (length_skipString h)
  · split at h
    · exact Nat.le_of_lt (length_skipNumber h)
    · split at h
      · have := length_skipNumber h
        simp only [List.length_cons] at this; omega
      · repeat' split at h
        all_goals first | exact length_scanWord_le h | cases h

theorem length_scanColon {s r : List Char} (h : scanColon s = .ok r) : r.length < s.length := by
  unfold scanColon at h
  split at h
  · cases h
  · rename_i c rest heq
    split at h
    · cases h; exact length_of_skipSpaces heq
    · cases h

theorem length_skipName {s r : List Char} (h : skipName s = .ok r) : r.length < s.length := by
  unfold skipName at h
  split at h
  · cases h
  · rename_i c rest heq
    have := length_of_skipSpaces heq
    split at h
    · cases hs : skipString rest with
      | error e => rw [hs] at h; cases h
      | ok r' =>
        rw [hs] at h
        have := length_skipString hs
        have := length_scanColon (s := r') h
        omega
    · cases h

/-! ## Values -/

mutual

/-- What follows the value that begins here and the enclosures around it, innermost first. -/
def skipValue (stack : List Enclosure) (s : List Char) : Except Fault (List Char) :=
  match _h : skipSpaces s with
  | [] => .error .truncated
  | c :: rest =>
    if c = '[' then
      match _h' : skipSpaces rest with
      | [] => .error .truncated
      | d :: rest' =>
        if d = ']' then skipEnclosures stack rest' else skipValue (.array :: stack) rest
    else if c = '\x7b' then
      match _h' : skipSpaces rest with
      | [] => .error .truncated
      | d :: rest' =>
        if d = '\x7d' then skipEnclosures stack rest'
        else match _hn : skipName rest with
          | .error e => .error e
          | .ok rest' => skipValue (.object :: stack) rest'
    else match _hs : skipScalar c rest with
      | .error e => .error e
      | .ok rest' => skipEnclosures stack rest'
termination_by s.length
decreasing_by
  · have := length_of_skipSpaces _h
    have := length_of_skipSpaces _h'
    omega
  · exact length_of_skipSpaces _h
  · have := length_of_skipSpaces _h
    have := length_of_skipSpaces _h'
    omega
  · have := length_of_skipSpaces _h
    have := length_skipName _hn
    omega
  · have := length_of_skipSpaces _h
    have := length_skipScalar_le _hs
    omega

/-- What follows the enclosures, innermost first, of which a value has just ended. -/
def skipEnclosures (stack : List Enclosure) (s : List Char) : Except Fault (List Char) :=
  match stack with
  | [] => .ok s
  | frame :: outer =>
    match _h : skipSpaces s with
    | [] => .error .truncated
    | c :: rest =>
      if c = frame.closing then skipEnclosures outer rest
      else if c = ',' then
        match frame with
        | .array => skipValue (frame :: outer) rest
        | .object =>
          match _hn : skipName rest with
          | .error e => .error e
          | .ok rest' => skipValue (frame :: outer) rest'
      else .error .malformed
termination_by s.length
decreasing_by
  · exact length_of_skipSpaces _h
  · exact length_of_skipSpaces _h
  · have := length_of_skipSpaces _h
    have := length_skipName _hn
    omega

end

/-- What is left after skipping is no longer than the text, and shorter when a value was due. -/
theorem length_skip (n : Nat) : ∀ (stack : List Enclosure) (s r : List Char), s.length ≤ n →
    (skipValue stack s = .ok r → r.length < s.length) ∧
      (skipEnclosures stack s = .ok r → r.length ≤ s.length) := by
  induction n with
  | zero =>
    intro stack s r hs
    have : s = [] := List.length_eq_zero_iff.1 (Nat.le_zero.1 hs)
    subst this
    refine ⟨fun h => ?_, fun h => ?_⟩
    · rw [skipValue] at h; cases h
    · cases stack with
      | nil => rw [skipEnclosures] at h; cases h; exact Nat.le_refl _
      | cons frame outer => rw [skipEnclosures] at h; cases h
  | succ n ih =>
    intro stack s r hs
    refine ⟨fun h => ?_, fun h => ?_⟩
    · rw [skipValue] at h
      split at h
      · cases h
      · rename_i c rest heq
        have h₁ := length_of_skipSpaces heq
        split at h
        · split at h
          · cases h
          · rename_i d rest' heq'
            have h₂ := length_of_skipSpaces heq'
            split at h
            · have := (ih stack rest' r (by omega)).2 h; omega
            · have := (ih (.array :: stack) rest r (by omega)).1 h; omega
        · split at h
          · split at h
            · cases h
            · rename_i d rest' heq'
              have h₂ := length_of_skipSpaces heq'
              split at h
              · have := (ih stack rest' r (by omega)).2 h; omega
              · split at h
                · cases h
                · rename_i rest'' hn
                  have h₃ := length_skipName hn
                  have := (ih (.object :: stack) rest'' r (by omega)).1 h; omega
          · split at h
            · cases h
            · rename_i rest' hsc
              have h₃ := length_skipScalar_le hsc
              have := (ih stack rest' r (by omega)).2 h; omega
    · rw [skipEnclosures.eq_def] at h
      split at h
      · cases h; exact Nat.le_refl _
      · rename_i frame outer
        split at h
        · cases h
        · rename_i c rest heq
          have h₁ := length_of_skipSpaces heq
          split at h
          · have := (ih outer rest r (by omega)).2 h; omega
          · split at h
            · split at h
              · have := (ih _ rest r (by omega)).1 h; omega
              · split at h
                · cases h
                · rename_i rest' hn
                  have h₃ := length_skipName hn
                  have := (ih _ rest' r (by omega)).1 h; omega
            · cases h

theorem length_skipValue {stack : List Enclosure} {s r : List Char}
    (h : skipValue stack s = .ok r) : r.length < s.length :=
  (length_skip s.length stack s r (Nat.le_refl _)).1 h

end Dataflow.Json
