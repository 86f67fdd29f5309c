import Dataflow.Json.Text
import Dataflow.Text.Quoted
import Mathlib.Tactic.SplitIfs

/-!
# Reading quoted text back

`Text.readQuoted` reads a quoted text from the front of whatever it stands in front of.  It goes
through the characters one by one and knows at each where it stands (`Text.Place`): at a character,
behind a backslash, or among the digits of a number.

What quoting writes for a character is read as this character, whatever it is
(`Text.readFrom_escape`).  So the quote at the end of a quoted text is the first one that the reader
takes for an end, and text and surroundings can be told apart (`Text.readQuoted_quote`).
-/

namespace Dataflow.Text

/-! ## The reader -/

/-- Where the reader stands. -/
inductive Place
  /-- At a character, or at the quote at the end. -/
  | plain
  /-- Behind a backslash. -/
  | escape
  /-- Behind the letter that announces a number in braces. -/
  | brace
  /-- Inside the braces; the digits so far make this number. -/
  | number (n : Nat)

/-- What a letter behind a backslash stands for. -/
def escaped? (c : Char) : Option Char :=
  if c = '"' then some '"'
  else if c = '\\' then some '\\'
  else if c = 'n' then some '\n'
  else if c = 'r' then some '\r'
  else if c = 't' then some '\t'
  else if c = '0' then some '\x00'
  else none

/-- A further character in front of the text that was read. -/
def push (c : Char) (r : Option (List Char × List Char)) : Option (List Char × List Char) :=
  r.map fun (text, rest) => (c :: text, rest)

/-- The text up to the quote at its end, and what follows the quote. -/
def readFrom : Place → List Char → Option (List Char × List Char)
  | _, [] => none
  | .plain, c :: rest =>
    if c = '"' then some ([], rest)
    else if c = '\\' then readFrom .escape rest
    else push c (readFrom .plain rest)
  | .escape, c :: rest =>
    if c = 'u' then readFrom .brace rest
    else match escaped? c with
      | some d => push d (readFrom .plain rest)
      | none => none
  | .brace, c :: rest => if c = '\x7b' then readFrom (.number 0) rest else none
  | .number n, c :: rest =>
    if c = '\x7d' then push (Char.ofNat n) (readFrom .plain rest)
    else match Json.hexDigit? c with
      | some d => readFrom (.number (n * 16 + d)) rest
      | none => none

/-- The text between double quotes, and what follows it. -/
def readQuoted : List Char → Option (List Char × List Char)
  | [] => none
  | c :: rest => if c = '"' then readFrom .plain rest else none

/-! ## What is read of what was written -/

theorem hexDigit?_digitChar {d : Nat} (h : d < 16) :
    d.digitChar ≠ '\x7d' ∧ Json.hexDigit? d.digitChar = some d := by
  have hall : ∀ d < 16, d.digitChar ≠ '\x7d' ∧ Json.hexDigit? d.digitChar = some d := by decide
  exact hall d h

theorem readFrom_digitChar (n : Nat) {d : Nat} (h : d < 16) (rest : List Char) :
    readFrom (.number n) (d.digitChar :: rest) = readFrom (.number (n * 16 + d)) rest := by
  obtain ⟨hne, hdigit⟩ := hexDigit?_digitChar h
  rw [readFrom, if_neg hne, hdigit]

/-- **The digits of a number are read as the number**, however many there are. -/
theorem readFrom_toDigits (n : Nat) (rest : List Char) :
    readFrom (.number 0) (Nat.toDigits 16 n ++ rest) = readFrom (.number n) rest := by
  -- all digits but the last are those of a sixteenth of the number
  induction n using Nat.strongRecOn generalizing rest with
  | ind n ih =>
    rcases Nat.lt_or_ge n 16 with hlt | hge
    · rw [Nat.toDigits_of_lt_base hlt, List.singleton_append, readFrom_digitChar 0 hlt, Nat.zero_mul,
        Nat.zero_add]
    · rw [Nat.toDigits_of_base_le (by omega) hge, List.append_assoc, List.singleton_append,
        ih (n / 16) (by omega), readFrom_digitChar _ (Nat.mod_lt n (by omega)), Nat.div_add_mod']

/-- What is written for a character: a letter that stands for it, its number, or itself. -/
theorem escape_cases (c : Char) :
    (∃ letter, letter ≠ 'u' ∧ escaped? letter = some c ∧ escape c = ['\\', letter]) ∨
      escape c = ['\\', 'u', '\x7b'] ++ Nat.toDigits 16 c.toNat ++ ['\x7d'] ∨
      (c ≠ '"' ∧ c ≠ '\\' ∧ escape c = [c]) := by
  unfold escape
  split_ifs with hquote hbackslash hline hreturn htab hzero hnumber
  · exact Or.inl ⟨'"', by decide, by rw [hquote]; rfl, rfl⟩
  · exact Or.inl ⟨'\\', by decide, by rw [hbackslash]; rfl, rfl⟩
  · exact Or.inl ⟨'n', by decide, by rw [hline]; rfl, rfl⟩
  · exact Or.inl ⟨'r', by decide, by rw [hreturn]; rfl, rfl⟩
  · exact Or.inl ⟨'t', by decide, by rw [htab]; rfl, rfl⟩
  · exact Or.inl ⟨'0', by decide, by rw [hzero]; rfl, rfl⟩
  · exact Or.inr (Or.inl rfl)
  · exact Or.inr (Or.inr ⟨hquote, hbackslash, rfl⟩)

theorem readFrom_letter {letter c : Char} (hu : letter ≠ 'u') (h : escaped? letter = some c)
    (rest : List Char) :
    readFrom .plain ('\\' :: letter :: rest) = push c (readFrom .plain rest) := by
  show readFrom .escape (letter :: rest) = _
  rw [readFrom, if_neg hu, h]

theorem readFrom_number (c : Char) (rest : List Char) :
    readFrom .plain (['\\', 'u', '\x7b'] ++ Nat.toDigits 16 c.toNat ++ ['\x7d'] ++ rest) =
      push c (readFrom .plain rest) := by
  rw [List.append_assoc, List.append_assoc]
  show readFrom (.number 0) (Nat.toDigits 16 c.toNat ++ '\x7d' :: rest) = _
  rw [readFrom_toDigits, readFrom, if_pos rfl, Char.ofNat_toNat]

/-- **A character is read from what was written for it.** -/
theorem readFrom_escape (c : Char) (rest : List Char) :
    readFrom .plain (escape c ++ rest) = push c (readFrom .plain rest) := by
  rcases escape_cases c with ⟨letter, hu, hletter, heq⟩ | heq | ⟨hquote, hbackslash, heq⟩
  · rw [heq]
    exact readFrom_letter hu hletter rest
  · rw [heq]
    exact readFrom_number c rest
  · rw [heq, List.singleton_append, readFrom, if_neg hquote, if_neg hbackslash]

theorem readFrom_escapeAll (s rest : List Char) :
    readFrom .plain (escapeAll s ++ '"' :: rest) = some (s, rest) := by
  induction s with
  | nil => rfl
  | cons c s ih => rw [escapeAll_cons, List.append_assoc, readFrom_escape, ih]; rfl

/-- **A quoted text is read back**, whatever follows it. -/
theorem readQuoted_quote (s : String) (rest : List Char) :
    readQuoted ((quote s).toList ++ rest) = some (s.toList, rest) := by
  rw [toList_quote, List.cons_append, List.cons_append, List.append_assoc]
  exact readFrom_escapeAll s.toList rest

example : readQuoted "\"a\\\"\\u\x7b1b\x7d\", rest".toList =
    some (['a', '"', '\x1b'], ", rest".toList) := by rfl

end Dataflow.Text
