import Dataflow.Text.Unprintable

/-!
# Quoted text

`quote` writes a text between double quotes so that it can be read back from any surroundings: a
quote and a backslash get a backslash, the common controls have a letter each, and every other
unprintable character is written by its number, `\u` with hexadecimal digits in braces.  A single
quote stands as it is.
-/

namespace Dataflow.Text

/-- How one character is written inside a quoted text. -/
def escape (c : Char) : List Char :=
  if c = '"' then ['\\', '"']
  else if c = '\\' then ['\\', '\\']
  else if c = '\n' then ['\\', 'n']
  else if c = '\r' then ['\\', 'r']
  else if c = '\t' then ['\\', 't']
  else if c = '\x00' then ['\\', '0']
  else if isUnprintable c then
    ['\\', 'u', '\x7b'] ++ Nat.toDigits 16 c.toNat ++ ['\x7d']
  else [c]

/-- The characters of a text, escaped one by one. -/
def escapeAll (s : List Char) : List Char :=
  s.flatMap escape

/-- The text between double quotes, with its characters escaped. -/
def quote (s : String) : String :=
  String.ofList ('"' :: escapeAll s.toList ++ ['"'])

@[simp] theorem escapeAll_nil : escapeAll [] = [] := rfl

@[simp] theorem escapeAll_cons (c : Char) (s : List Char) :
    escapeAll (c :: s) = escape c ++ escapeAll s := rfl

theorem toList_quote (s : String) : (quote s).toList = '"' :: escapeAll s.toList ++ ['"'] := by
  simp [quote]

example : quote "a\"\n" = "\"a\\\"\\n\"" := by rfl
example : escape '\x1b' = ['\\', 'u', '\x7b', '1', 'b', '\x7d'] := by rfl
example : escape 'é' = ['é'] := by decide +kernel
example : escape '\'' = ['\''] := by rfl

end Dataflow.Text
