/-!
# Blanks at the ends of a text

`isBlank` is the Unicode property White_Space, and `trim` takes the blanks off both ends of a
text.  `Char.isWhitespace` of core knows only four of these characters.
-/

namespace Dataflow.Text

/-- The character has the Unicode property White_Space. -/
def isBlank (c : Char) : Bool :=
  let n := c.toNat
  (0x9 ≤ n && n ≤ 0xd) || n == 0x20 || n == 0x85 || n == 0xa0 || n == 0x1680 ||
    (0x2000 ≤ n && n ≤ 0x200a) || n == 0x2028 || n == 0x2029 || n == 0x202f || n == 0x205f ||
    n == 0x3000

/-- The text without the blanks that it begins with and the blanks that it ends with. -/
def trim (s : List Char) : List Char :=
  ((s.dropWhile isBlank).reverse.dropWhile isBlank).reverse

@[simp] theorem trim_nil : trim [] = [] := rfl

example : trim ['\u3000', 'a', ' ', 'b', '\u0085'] = ['a', ' ', 'b'] := by rfl
example : trim [' ', '\u2003'] = [] := by rfl
example : isBlank '\u200b' = false := by rfl

end Dataflow.Text
