/-!
# A place in a YAML text

A `Cursor` is what is left of a text together with the place it stands at: how many characters came
before it, on which line it is, and in which column. Everything that reads YAML moves a cursor
forward.

The end of the text reads as the character NUL, which no YAML text may hold.
-/

namespace Choicebook.Yaml

/-- A place in a text. -/
structure Cursor where
  rest : List Char
  index : Nat
  line : Nat
  column : Nat

/-- The line breaks of YAML, except the carriage return. -/
def isNewline (c : Char) : Bool :=
  c = '\n' || c = '\x85' || c = '\u2028' || c = '\u2029'

/-- A character that ends a line. -/
def isBreak (c : Char) : Bool := c = '\r' || isNewline c

/-- A line break or the end of the text. -/
def isBreakEnd (c : Char) : Bool := c = '\x00' || isBreak c

/-- A space, a line break or the end of the text. -/
def isSpaceEnd (c : Char) : Bool := c = ' ' || isBreakEnd c

/-- A space, a tab, a line break or the end of the text. -/
def isBlankEnd (c : Char) : Bool := c = '\t' || isSpaceEnd c

/-- A space or a tab. -/
def isWhite (c : Char) : Bool := c = ' ' || c = '\t'

/-- A character of names: an ASCII letter or digit, a hyphen or an underscore. -/
def isNameChar (c : Char) : Bool := c.isAlphanum || c = '-' || c = '_'

/-- A character that a YAML text may hold. -/
def isAllowed (c : Char) : Bool :=
  c = '\t' || c = '\n' || c = '\r' || ('\x20' ≤ c && c ≤ '\x7e') || c = '\x85'
    || ('\xa0' ≤ c && c ≤ '\ufffd') || 0x10000 ≤ c.toNat

namespace Cursor

/-- The start of a text. -/
def ofList (cs : List Char) : Cursor := ⟨cs, 0, 0, 0⟩

/-- The character `k` places ahead. -/
def peek (c : Cursor) (k : Nat) : Char := (c.rest.drop k).headD '\x00'

/-- The character at the cursor. -/
def here (c : Cursor) : Char := c.rest.headD '\x00'

/-- One character forward. A carriage return in front of a newline does not end the line yet, and a
byte-order mark takes no column. -/
def next (c : Cursor) : Cursor :=
  match c.rest with
  | [] => c
  | ch :: rest =>
    if isNewline ch || (ch = '\r' && rest.headD '\x00' ≠ '\n') then
      ⟨rest, c.index + 1, c.line + 1, 0⟩
    else if ch = '\ufeff' then ⟨rest, c.index + 1, c.line, c.column⟩
    else ⟨rest, c.index + 1, c.line, c.column + 1⟩

/-- `n` characters forward. -/
def forward (c : Cursor) : Nat → Cursor
  | 0 => c
  | n + 1 => c.next.forward n

/-- The characters at the front that satisfy `p`, and the cursor behind them. -/
def span (p : Char → Bool) (c : Cursor) : List Char × Cursor :=
  let taken := c.rest.takeWhile p
  (taken, c.forward taken.length)

/-- The cursor behind the characters that satisfy `p`. -/
def skip (p : Char → Bool) (c : Cursor) : Cursor := (c.span p).2

/-- Behind the spaces. -/
def skipSpaces (c : Cursor) : Cursor := c.skip (· = ' ')

/-- Behind a comment, if one stands here: up to the end of the line. -/
def skipComment (c : Cursor) : Cursor :=
  if c.here = '#' then c.skip (fun ch => !isBreakEnd ch) else c

/-- A line break, if one stands here: what it stands for, and the cursor behind it. All breaks but
the two Unicode separators stand for a newline. -/
def lineBreak (c : Cursor) : List Char × Cursor :=
  if c.here = '\r' ∧ c.peek 1 = '\n' then (['\n'], c.forward 2)
  else if c.here = '\r' ∨ c.here = '\n' ∨ c.here = '\x85' then (['\n'], c.next)
  else if c.here = '\u2028' ∨ c.here = '\u2029' then ([c.here], c.next)
  else ([], c)

/-- Whether three equal characters with a blank behind them stand here. -/
def hasMark (m : Char) (c : Cursor) : Bool :=
  c.here = m && c.peek 1 = m && c.peek 2 = m && isBlankEnd (c.peek 3)

/-- Whether a document starts or ends here, if this is the start of a line. -/
def atSeparator (c : Cursor) : Bool := c.hasMark '-' || c.hasMark '.'

end Cursor

end Choicebook.Yaml
