/-!
# Blank characters

The characters that count as white space when a text is trimmed or split: the ASCII blanks, the
four information separators, and every Unicode space and line separator.

`Text.strip` removes them from both ends of a list of characters, `Text.trim` does so on a text, and
`Text.words` splits at runs of them.
-/

namespace Choicebook.Text

/-- A character that trimming removes. -/
def isBlank (c : Char) : Bool :=
  let n := c.toNat
  (9 ≤ n && n ≤ 13) || (28 ≤ n && n ≤ 32) || n == 0x85 || n == 0xA0 || n == 0x1680
    || (0x2000 ≤ n && n ≤ 0x200A) || n == 0x2028 || n == 0x2029 || n == 0x202F || n == 0x205F
    || n == 0x3000

/-- Drops the blanks at the front. -/
def stripFront (cs : List Char) : List Char :=
  cs.dropWhile isBlank

/-- Drops the blanks at the back. -/
def stripBack (cs : List Char) : List Char :=
  (cs.reverse.dropWhile isBlank).reverse

/-- Drops the blanks at both ends. -/
def strip (cs : List Char) : List Char :=
  stripBack (stripFront cs)

/-- A text without the blanks at its ends. -/
def trim (s : String) : String :=
  String.ofList (strip s.toList)

/-- The maximal runs of characters that are not blank, in order. -/
def words (cs : List Char) : List (List Char) :=
  (cs.splitOnP isBlank).filter fun w => !w.isEmpty

end Choicebook.Text
