/-!
# Strings of a JSON text

A scanner takes the characters that are still to be read and answers with what it read and the
characters that follow, or with the first fault from left to right: the text ends too early, or it
is not JSON.

`scanString` reads a string and undoes its escapes, so the surrogates of a pair have to be
complete.  `skipString` passes over a string that nobody looks at; it checks the form of the
escapes only.  Both leave fewer characters than they were given (`length_scanString`,
`length_skipString`), which is why the scanners built on them come to an end.
-/

namespace Dataflow.Json

/-- Why a text cannot be read on. -/
inductive Fault
  /-- The text ends too early. -/
  | truncated
  /-- The text is not JSON here. -/
  | malformed
deriving DecidableEq, Repr

/-- The four characters that may stand between tokens. -/
def isSpace (c : Char) : Bool := c = ' ' || c = '\n' || c = '\t' || c = '\r'

/-- The characters from the next token on. -/
def skipSpaces (s : List Char) : List Char := s.dropWhile isSpace

theorem length_skipSpaces_le (s : List Char) : (skipSpaces s).length ≤ s.length :=
  (List.dropWhile_sublist isSpace).length_le

theorem length_of_skipSpaces {s r : List Char} {c : Char} (h : skipSpaces s = c :: r) :
    r.length < s.length := by
  have := length_skipSpaces_le s
  rw [h, List.length_cons] at this
  omega

/-- The value of a hexadecimal digit of either case. -/
def hexDigit? (c : Char) : Option Nat :=
  if '0' ≤ c ∧ c ≤ '9' then some (c.toNat - 48)
  else if 'a' ≤ c ∧ c ≤ 'f' then some (c.toNat - 87)
  else if 'A' ≤ c ∧ c ≤ 'F' then some (c.toNat - 55)
  else none

/-- The number of bytes that the characters take in UTF-8. -/
def byteLength : List Char → Nat
  | [] => 0
  | c :: rest => c.utf8Size + byteLength rest

/-- Four hexadecimal digits.  Where fewer than four bytes are left, the text has ended too early,
whatever they are. -/
def scanCodeUnit : List Char → Except Fault (Nat × List Char)
  | a :: b :: c :: d :: rest =>
    match hexDigit? a, hexDigit? b, hexDigit? c, hexDigit? d with
    | some a, some b, some c, some d => .ok (((a * 16 + b) * 16 + c) * 16 + d, rest)
    | _, _, _, _ => .error .malformed
  | s => .error (if byteLength s < 4 then .truncated else .malformed)

/-- The code unit begins a surrogate pair. -/
def isHighSurrogate (n : Nat) : Bool := 0xd800 ≤ n && n ≤ 0xdbff

/-- The code unit ends a surrogate pair. -/
def isLowSurrogate (n : Nat) : Bool := 0xdc00 ≤ n && n ≤ 0xdfff

/-- The character of a surrogate pair. -/
def pairedChar (high low : Nat) : Char :=
  Char.ofNat (0x10000 + (high - 0xd800) * 0x400 + (low - 0xdc00))

/-- The second half of a surrogate pair, which has to follow the first at once. -/
def scanLowSurrogate (high : Nat) : List Char → Except Fault (Char × List Char)
  | [] | ['\\'] => .error .truncated
  | '\\' :: 'u' :: rest => do
    let (low, rest) ← scanCodeUnit rest
    if isLowSurrogate low then .ok (pairedChar high low, rest) else .error .malformed
  | _ => .error .malformed

/-- The character that `\u` and the characters after it stand for. -/
def scanUnicode (s : List Char) : Except Fault (Char × List Char) := do
  let (n, rest) ← scanCodeUnit s
  if isLowSurrogate n then .error .malformed
  else if isHighSurrogate n then scanLowSurrogate n rest
  else .ok (Char.ofNat n, rest)

/-- The character of an escape of one letter. -/
def simpleEscape? : Char → Option Char
  | '"' => some '"'
  | '\\' => some '\\'
  | '/' => some '/'
  | 'b' => some '\x08'
  | 'f' => some '\x0c'
  | 'n' => some '\n'
  | 'r' => some '\r'
  | 't' => some '\t'
  | _ => none

/-- The character that a backslash and the characters after it stand for. -/
def scanEscape : List Char → Except Fault (Char × List Char)
  | [] => .error .truncated
  | c :: rest =>
    if c = 'u' then scanUnicode rest
    else match simpleEscape? c with
      | some d => .ok (d, rest)
      | none => .error .malformed

/-- What follows an escape that nobody looks at. -/
def skipEscape : List Char → Except Fault (List Char)
  | [] => .error .truncated
  | c :: rest =>
    if c = 'u' then (scanCodeUnit rest).map Prod.snd
    else if (simpleEscape? c).isSome then .ok rest
    else .error .malformed

/-! ## Escapes are shorter than the text that holds them -/

theorem length_scanCodeUnit {s r : List Char} {n : Nat} (h : scanCodeUnit s = .ok (n, r)) :
    r.length < s.length := by
  unfold scanCodeUnit at h
  split at h
  · split at h
    · cases h; simp only [List.length_cons]; omega
    · cases h
  · cases h

theorem length_scanLowSurrogate {high : Nat} {s r : List Char} {c : Char}
    (h : scanLowSurrogate high s = .ok (c, r)) : r.length < s.length := by
  unfold scanLowSurrogate at h
  split at h
  · cases h
  · cases h
  · rename_i rest
    cases hu : scanCodeUnit rest with
    | error e => rw [hu] at h; cases h
    | ok p =>
      obtain ⟨low, r'⟩ := p
      have := length_scanCodeUnit hu
      simp only [hu, bind, Except.bind] at h
      split at h
      · simp only [Except.ok.injEq, Prod.mk.injEq] at h
        simp only [← h.2, List.length_cons]; omega
      · cases h
  · cases h

theorem length_scanUnicode {s r : List Char} {c : Char} (h : scanUnicode s = .ok (c, r)) :
    r.length < s.length := by
  unfold scanUnicode at h
  cases hu : scanCodeUnit s with
  | error e => rw [hu] at h; cases h
  | ok p =>
    obtain ⟨n, r'⟩ := p
    have := length_scanCodeUnit hu
    simp only [hu, bind, Except.bind] at h
    split at h
    · cases h
    · split at h
      · have := length_scanLowSurrogate h; omega
      · cases h; assumption

theorem length_scanEscape {s r : List Char} {c : Char} (h : scanEscape s = .ok (c, r)) :
    r.length < s.length := by
  cases s with
  | nil => cases h
  | cons d rest =>
    simp only [scanEscape] at h
    split at h
    · have := length_scanUnicode h
      simp only [List.length_cons]; omega
    · split at h
      · cases h; simp
      · cases h

theorem length_skipEscape {s r : List Char} (h : skipEscape s = .ok r) :
    r.length < s.length := by
  cases s with
  | nil => cases h
  | cons d rest =>
    simp only [skipEscape] at h
    split at h
    · cases hu : scanCodeUnit rest with
      | error e => rw [hu] at h; cases h
      | ok p =>
        rw [hu] at h
        cases h
        have := length_scanCodeUnit (n := p.1) (r := p.2) hu
        simp only [List.length_cons]; omega
    · split at h
      · cases h; simp
      · cases h

/-! ## Strings -/

/-- The rest of a string whose opening quote is read: its characters, with the escapes undone, and
what follows the closing quote. -/
def scanString (s : List Char) : Except Fault (List Char × List Char) :=
  match s with
  | [] => .error .truncated
  | c :: rest =>
    if c = '"' then .ok ([], rest)
    else if c = '\\' then
      match _h : scanEscape rest with
      | .error e => .error e
      | .ok (d, rest') => (scanString rest').map fun p => (d :: p.1, p.2)
    else if c.toNat < 0x20 then .error .malformed
    else (scanString rest).map fun p => (c :: p.1, p.2)
termination_by s.length
decreasing_by
  · have := length_scanEscape _h; simp only [List.length_cons]; omega
  · simp

/-- What follows the closing quote of a string that nobody looks at. -/
def skipString (s : List Char) : Except Fault (List Char) :=
  match s with
  | [] => .error .truncated
  | c :: rest =>
    if c = '"' then .ok rest
    else if c = '\\' then
      match _h : skipEscape rest with
      | .error e => .error e
      | .ok rest' => skipString rest'
    else if c.toNat < 0x20 then .error .malformed
    else skipString rest
termination_by s.length
decreasing_by
  · have := length_skipEscape _h; simp only [List.length_cons]; omega
  · simp

theorem length_scanString {s t r : List Char} (h : scanString s = .ok (t, r)) :
    r.length < s.length := by
  fun_induction scanString s generalizing t r with
  | case1 => cases h
  | case2 rest => cases h; simp
  | case3 => cases h
  | case4 rest d rest' he _ ih =>
    cases hs : scanString rest' with
    | error e => rw [hs] at h; cases h
    | ok p =>
      rw [hs] at h; cases h
      have := ih hs
      have := length_scanEscape he
      simp only [List.length_cons]; omega
  | case5 => cases h
  | case6 c rest _ _ _ ih =>
    cases hs : scanString rest with
    | error e => rw [hs] at h; cases h
    | ok p =>
      rw [hs] at h; cases h
      have := ih hs
      simp only [List.length_cons]; omega

theorem length_skipString {s r : List Char} (h : skipString s = .ok r) :
    r.length < s.length := by
  fun_induction skipString s with
  | case1 => cases h
  | case2 rest => cases h; simp
  | case3 => cases h
  | case4 rest rest' he _ ih =>
    have := ih h
    have := length_skipEscape he
    simp only [List.length_cons]; omega
  | case5 => cases h
  | case6 c rest _ _ _ ih =>
    have := ih h
    simp only [List.length_cons]; omega

end Dataflow.Json
