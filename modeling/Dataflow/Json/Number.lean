import Dataflow.Json.Text

/-!
# Numbers of a JSON text

A number without fraction and exponent that fits 64 bits, signed or unsigned, is an integer.
Every other number is a float: one with a fraction or an exponent, one beyond 64 bits, and minus
zero.  A reader of integers needs no more than this distinction, so a float carries no value.

A float has to be finite as a double.  Only so many leading digits count as fit 64 bits; they and
the power of ten beside them are each rounded to a double before they are multiplied
(`isFinite`).

`scanNumber` reads a number and tells a text that ends too early from one that is no number.
`skipNumber` passes over a number that nobody looks at: it takes any magnitude, and for it the end
of the text is one more character that does not belong to a number.
-/

namespace Dataflow.Json

/-- A number, as far as a reader of integers has to know it. -/
inductive Number
  /-- A whole number of at most 64 bits. -/
  | integer (n : Int)
  /-- Any other number. -/
  | float
deriving DecidableEq, Repr

/-- The leading decimal digits. -/
def leadingDigits (s : List Char) : List Char := s.takeWhile Char.isDigit

/-- What follows the leading decimal digits. -/
def afterDigits (s : List Char) : List Char := s.dropWhile Char.isDigit

/-- The value of a decimal digit. -/
def digitValue (c : Char) : Nat := c.toNat - 48

/-- The number that decimal digits stand for. -/
def decimalValue (digits : List Char) : Nat :=
  digits.foldl (fun n c => n * 10 + digitValue c) 0

/-- The first number that does not fit 64 bits. -/
def wordLimit : Nat := 18446744073709551616

/-- The magnitude of the least signed number of 64 bits. -/
def signLimit : Nat := 9223372036854775808

/-- Appends digits to a number until it would exceed 64 bits; beside it the number of digits that
found no room. -/
def appendDigits (m : Nat) : List Char → Nat × Nat
  | [] => (m, 0)
  | c :: rest =>
    if m * 10 + digitValue c < wordLimit then appendDigits (m * 10 + digitValue c) rest
    else (m, rest.length + 1)

/-- The nearest number of 53 significant bits; of two equally near ones the even. -/
def roundToDouble (n : Nat) : Nat :=
  let unit := 1 <<< (n.log2 + 1 - 53)
  let q := n / unit
  let twice := 2 * (n % unit)
  (if twice > unit ∨ (twice = unit ∧ q % 2 = 1) then q + 1 else q) * unit

/-- The first number that is rounded to infinity: half a step above the largest double. -/
def doubleLimit : Nat := (1 <<< 1024) - (1 <<< 970)

/-- A power of ten. -/
def powerOfTen : Nat → Nat
  | 0 => 1
  | n + 1 => powerOfTen n * 10

/-- The number `m * 10 ^ e` stays below the doubles' upper end, where rounding turns to
infinity. -/
def isFinite (m : Nat) (e : Int) : Bool :=
  m = 0 || e < 0 ||
    (e ≤ 308 && roundToDouble m * roundToDouble (powerOfTen e.toNat) < doubleLimit)

/-- A float with these digits and this exponent, unless it is too large. -/
def float (m : Nat) (e : Int) (rest : List Char) : Except Fault (Number × List Char) :=
  if isFinite m e then .ok (.float, rest) else .error .malformed

/-- Something other than the digits that are needed stands here, or nothing. -/
def missingDigits (s : List Char) : Fault := if s = [] then .truncated else .malformed

/-- The sign that may stand before an exponent, and what follows. -/
def exponentSign : List Char → Int × List Char
  | '+' :: rest => (1, rest)
  | '-' :: rest => (-1, rest)
  | s => (1, s)

/-- The rest of a number after its exponent letter. -/
def scanExponent (m : Nat) (e : Int) (s : List Char) : Except Fault (Number × List Char) :=
  let (sign, s) := exponentSign s
  if leadingDigits s = [] then .error (missingDigits s)
  else float m (e + sign * decimalValue (leadingDigits s)) (afterDigits s)

/-- The rest of a number after its decimal point. -/
def scanFraction (m : Nat) (e : Int) (s : List Char) : Except Fault (Number × List Char) :=
  let digits := leadingDigits s
  if digits = [] then .error (missingDigits s)
  else
    let (m', lost) := appendDigits m digits
    let e' := e - (digits.length - lost : Nat)
    match afterDigits s with
    | 'e' :: rest | 'E' :: rest => scanExponent m' e' rest
    | rest => float m' e' rest

/-- A number that ends after its integer digits, `lost` of which found no room. -/
def wholeNumber (negative : Bool) (m lost : Nat) (rest : List Char) :
    Except Fault (Number × List Char) :=
  if lost ≠ 0 then float m lost rest
  else if negative then
    .ok (if m = 0 ∨ signLimit < m then .float else .integer (-m), rest)
  else .ok (.integer m, rest)

/-- The rest of a number after its integer digits. -/
def scanAfterInteger (negative : Bool) (m lost : Nat) :
    List Char → Except Fault (Number × List Char)
  | '.' :: rest => scanFraction m lost rest
  | 'e' :: rest | 'E' :: rest => scanExponent m lost rest
  | rest => wholeNumber negative m lost rest

/-- The digits of a number, whose sign is read.  A zero stands alone. -/
def scanUnsigned (negative : Bool) : List Char → Except Fault (Number × List Char)
  | [] => .error .truncated
  | c :: rest =>
    if c = '0' then
      if leadingDigits rest = [] then scanAfterInteger negative 0 0 rest else .error .malformed
    else if c.isDigit then
      let (m, lost) := appendDigits 0 (c :: leadingDigits rest)
      scanAfterInteger negative m lost (afterDigits rest)
    else .error .malformed

/-- A number, and what follows it. -/
def scanNumber : List Char → Except Fault (Number × List Char)
  | '-' :: rest => scanUnsigned true rest
  | s => scanUnsigned false s

example : scanNumber ['4', '2', ','] = .ok (.integer 42, [',']) := by rfl
example : scanNumber ['-', '0'] = .ok (.float, []) := by rfl
example : scanNumber ['1', 'e', '2'] = .ok (.float, []) := by rfl
example : scanNumber ['1', 'e', '3', '0', '9'] = .error .malformed := by rfl
example : scanNumber ['0', '1'] = .error .malformed := by rfl
example : scanNumber ['1', '.'] = .error .truncated := by rfl

/-! ## Numbers that nobody looks at -/

/-- What follows one or more digits. -/
def skipDigits : List Char → Except Fault (List Char)
  | [] => .error .malformed
  | c :: rest => if c.isDigit then .ok (afterDigits rest) else .error .malformed

/-- What follows the exponent, if there is one. -/
def skipExponent : List Char → Except Fault (List Char)
  | 'e' :: rest | 'E' :: rest => skipDigits (exponentSign rest).2
  | s => .ok s

/-- What follows the fraction and the exponent, as far as there are any. -/
def skipFraction : List Char → Except Fault (List Char)
  | '.' :: rest => skipDigits rest >>= skipExponent
  | s => skipExponent s

/-- What follows the number, whose sign is read. -/
def skipNumber : List Char → Except Fault (List Char)
  | [] => .error .malformed
  | c :: rest =>
    if c = '0' then
      if leadingDigits rest = [] then skipFraction rest else .error .malformed
    else if c.isDigit then skipFraction (afterDigits rest)
    else .error .malformed

/-! ## Numbers are shorter than the text that holds them -/

theorem length_afterDigits_le (s : List Char) : (afterDigits s).length ≤ s.length :=
  (List.dropWhile_sublist _).length_le

theorem length_exponentSign_le (s : List Char) : (exponentSign s).2.length ≤ s.length := by
  unfold exponentSign
  split <;> simp

theorem length_float {m : Nat} {e : Int} {s r : List Char} {n : Number}
    (h : float m e s = .ok (n, r)) : r = s := by
  unfold float at h
  split at h
  · cases h; rfl
  · cases h

theorem length_scanExponent_le {m : Nat} {e : Int} {s r : List Char} {n : Number}
    (h : scanExponent m e s = .ok (n, r)) : r.length ≤ s.length := by
  simp only [scanExponent] at h
  split at h
  · cases h
  · rw [length_float h]
    exact Nat.le_trans (length_afterDigits_le _) (length_exponentSign_le s)

theorem length_scanFraction_le {m : Nat} {e : Int} {s r : List Char} {n : Number}
    (h : scanFraction m e s = .ok (n, r)) : r.length ≤ s.length := by
  have hle := length_afterDigits_le s
  simp only [scanFraction] at h
  split at h
  · cases h
  · split at h
    · rename_i rest heq
      have := length_scanExponent_le h
      rw [heq, List.length_cons] at hle; omega
    · rename_i rest heq
      have := length_scanExponent_le h
      rw [heq, List.length_cons] at hle; omega
    · rw [length_float h]; exact hle

theorem length_wholeNumber {negative : Bool} {m lost : Nat} {s r : List Char} {n : Number}
    (h : wholeNumber negative m lost s = .ok (n, r)) : r = s := by
  unfold wholeNumber at h
  split at h
  · exact length_float h
  · split at h <;> cases h <;> rfl

theorem length_scanAfterInteger_le {negative : Bool} {m lost : Nat} {s r : List Char} {n : Number}
    (h : scanAfterInteger negative m lost s = .ok (n, r)) : r.length ≤ s.length := by
  unfold scanAfterInteger at h
  split at h
  · have := length_scanFraction_le h; simp only [List.length_cons]; omega
  · have := length_scanExponent_le h; simp only [List.length_cons]; omega
  · have := length_scanExponent_le h; simp only [List.length_cons]; omega
  · exact Nat.le_of_eq (congrArg List.length (length_wholeNumber h))

theorem length_scanUnsigned {negative : Bool} {s r : List Char} {n : Number}
    (h : scanUnsigned negative s = .ok (n, r)) : r.length < s.length := by
  cases s with
  | nil => cases h
  | cons c rest =>
    simp only [scanUnsigned] at h
    split at h
    · split at h
      · have := length_scanAfterInteger_le h; simp only [List.length_cons]; omega
      · cases h
    · split at h
      · have := length_scanAfterInteger_le h
        have := length_afterDigits_le rest
        simp only [List.length_cons]; omega
      · cases h

theorem length_scanNumber {s r : List Char} {n : Number} (h : scanNumber s = .ok (n, r)) :
    r.length < s.length := by
  unfold scanNumber at h
  split at h
  · have := length_scanUnsigned h; simp only [List.length_cons]; omega
  · exact length_scanUnsigned h

theorem length_skipDigits_le {s r : List Char} (h : skipDigits s = .ok r) :
    r.length ≤ s.length := by
  cases s with
  | nil => cases h
  | cons c rest =>
    simp only [skipDigits] at h
    split at h
    · cases h
      have := length_afterDigits_le rest
      simp only [List.length_cons]; omega
    · cases h

theorem length_skipExponent_le {s r : List Char} (h : skipExponent s = .ok r) :
    r.length ≤ s.length := by
  unfold skipExponent at h
  split at h
  · rename_i rest
    have := length_skipDigits_le h
    have := length_exponentSign_le rest
    simp only [List.length_cons]; omega
  · rename_i rest
    have := length_skipDigits_le h
    have := length_exponentSign_le rest
    simp only [List.length_cons]; omega
  · cases h; exact Nat.le_refl _

theorem length_skipFraction_le {s r : List Char} (h : skipFraction s = .ok r) :
    r.length ≤ s.length := by
  unfold skipFraction at h
  split at h
  · rename_i rest
    cases hd : skipDigits rest with
    | error e => rw [hd] at h; cases h
    | ok r' =>
      rw [hd] at h
      have := length_skipDigits_le hd
      have := length_skipExponent_le (s := r') h
      simp only [List.length_cons]; omega
  · exact length_skipExponent_le h

theorem length_skipNumber {s r : List Char} (h : skipNumber s = .ok r) :
    r.length < s.length := by
  cases s with
  | nil => cases h
  | cons c rest =>
    simp only [skipNumber] at h
    split at h
    · split at h
      · have := length_skipFraction_le h; simp only [List.length_cons]; omega
      · cases h
    · split at h
      · have := length_skipFraction_le h
        have := length_afterDigits_le rest
        simp only [List.length_cons]; omega
      · cases h

end Dataflow.Json
