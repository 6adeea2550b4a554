import Choicebook.Yaml.Scalar

/-!
# Writing YAML scalars

A `Sheet` is a text being written together with what the next piece needs to know about its end.
Lines are broken at single blanks once they are longer than 80 characters.

`Form.of` decides what may be done with a text. It is written plainly if it would read back as what
it is, else between single quotes, and between double quotes if it holds what single ones cannot.
-/

namespace Choicebook.Yaml

/-- A text being written. -/
structure Sheet where
  text : String
  column : Nat
  /-- The last character is a blank, or nothing has been written. -/
  spaced : Bool
  /-- Nothing but indentation and marks of collections stands on the line. -/
  indented : Bool
  /-- The text ends with a plain scalar that stands alone. -/
  openEnded : Bool

namespace Sheet

/-- Nothing written yet. -/
def blank : Sheet := ⟨"", 0, true, true, false⟩

/-- Lines longer than this are broken. -/
def width : Nat := 80

/-- Appends characters. -/
def write (s : Sheet) (cs : List Char) : Sheet :=
  { s with text := s.text ++ String.ofList cs, column := s.column + cs.length }

/-- Appends a line break. -/
def breakWith (s : Sheet) (c : Char) : Sheet :=
  { s with text := s.text.push c, column := 0, spaced := true, indented := true }

/-- Appends a newline. -/
def newline (s : Sheet) : Sheet := s.breakWith '\n'

/-- Goes to a column, on a new line unless the present one is still empty up to there. -/
def toColumn (s : Sheet) (column : Nat) : Sheet :=
  let s :=
    if !s.indented || column < s.column || (s.column = column && !s.spaced) then s.newline else s
  if s.column < column then
    { s.write (List.replicate (column - s.column) ' ') with spaced := true }
  else s

/-- Appends a mark, behind a blank if one is wanted and not there. A mark of a collection leaves
room for more on its line. -/
def mark (s : Sheet) (m : String) (wantsBlank : Bool) (collection : Bool) : Sheet :=
  let cs := if s.spaced || !wantsBlank then m.toList else ' ' :: m.toList
  { s.write cs with spaced := false, indented := s.indented && collection, openEnded := false }

end Sheet

/-- What may be done with a text. -/
structure Form where
  isEmpty : Bool
  hasBreak : Bool
  allowsPlain : Bool
  allowsSingle : Bool
  allowsBlock : Bool

namespace Form

/-- A blank character or the end of a text. -/
def endsWord (next : Option Char) : Bool :=
  match next with
  | none => true
  | some c => isBlankEnd c

/-- A character that only double quotes can hold. -/
def isSpecial (c : Char) : Bool :=
  !(c = '\n' || ('\x20' ≤ c && c ≤ '\x7e')
    || ((c = '\x85' || ('\xa0' ≤ c && c ≤ '\ufffd')
          || (0x10000 ≤ c.toNat && c.toNat < 0x10FFFF)) && c ≠ '\ufeff'))

/-- Whether the first character of a text would be read as a mark. -/
def startsLikeMark (cs : List Char) : Bool :=
  match cs with
  | [] => false
  | c :: rest =>
    "#,[]\x7b\x7d&*!|>'\"%@\x60".toList.contains c
      || ((c = '?' || c = ':' || c = '-') && endsWord rest.head?)
      || (Text.afterPiece? "---".toList cs).isSome || (Text.afterPiece? "...".toList cs).isSome

/-- Whether a colon or a number sign after the first character would be read as a mark. -/
def holdsMark : List Char → Bool
  | before :: c :: rest =>
    (c = ':' && endsWord rest.head?) || (c = '#' && isBlankEnd before) || holdsMark (c :: rest)
  | _ => false

/-- Whether `first` is followed by `second` somewhere. -/
def holdsPair (first second : Char → Bool) : List Char → Bool
  | c :: d :: rest => (first c && second d) || holdsPair first second (d :: rest)
  | _ => false

/-- What may be done with a text. -/
def of (cs : List Char) : Form :=
  if cs.isEmpty then ⟨true, false, true, true, false⟩
  else
    let isSpace (c : Char) : Bool := c = ' '
    let atEdge (p : Char → Bool) : Bool := cs.head?.any p || cs.getLast?.any p
    let hasBreak := cs.any isNewline
    let special := holdsPair isSpace isNewline cs || cs.any isSpecial
    let single := !holdsPair isNewline isSpace cs && !special
    { isEmpty := false
      hasBreak := hasBreak
      allowsPlain := single && !hasBreak && !atEdge isSpace && !startsLikeMark cs && !holdsMark cs
      allowsSingle := single
      allowsBlock := !special && !cs.getLast?.any isSpace }

end Form

namespace Sheet

/-! ### Between single quotes, and plainly -/

/-- Whether two neighbours belong to one run: of blanks, of breaks, or of other characters. Each
quote is a run of its own. -/
def sameRun (c d : Char) : Bool :=
  if c = '\'' || d = '\'' then false
  else (c = ' ') = (d = ' ') && isNewline c = isNewline d

/-- One run between single quotes. A single blank inside a long line becomes a line break. -/
def singleRun (column : Nat) (split isFirst isLast : Bool) (s : Sheet) (run : List Char) : Sheet :=
  match run with
  | [] => s
  | c :: _ =>
    if c = '\'' then s.write ['\'', '\'']
    else if c = ' ' then
      if run.length = 1 && width < s.column && split && !isFirst && !isLast then s.toColumn column
      else s.write run
    else if isNewline c then
      let s := if c = '\n' then s.newline else s
      (run.foldl breakWith s).toColumn column
    else s.write run

/-- The runs after the first between single quotes. -/
def singleRuns (column : Nat) (split : Bool) : (isFirst : Bool) → Sheet → List (List Char) → Sheet
  | _, s, [] => s
  | isFirst, s, run :: rest =>
    singleRuns column split false (s.singleRun column split isFirst rest.isEmpty run) rest

/-- A text between single quotes. -/
def single (s : Sheet) (column : Nat) (split : Bool) (cs : List Char) : Sheet :=
  (singleRuns column split true (s.mark "'" true false) (cs.splitBy sameRun)).mark "'" false false

/-- One run of a plain text. -/
def plainRun (column : Nat) (split : Bool) (s : Sheet) (run : List Char) : Sheet :=
  if run = [' '] && width < s.column && split then
    { s.toColumn column with spaced := false, indented := false }
  else s.write run

/-- A plain text, which is not empty and has no line breaks. -/
def plain (s : Sheet) (column : Nat) (split atRoot : Bool) (cs : List Char) : Sheet :=
  let s := if s.spaced then s else s.write [' ']
  let s := { s with spaced := false, indented := false, openEnded := s.openEnded || atRoot }
  (cs.splitBy sameRun).foldl (plainRun column split) s

/-! ### Between double quotes -/

/-- The letters of the characters that have one. -/
def escapeLetters : List (Char × Char) :=
  [('\x00', '0'), ('\x07', 'a'), ('\x08', 'b'), ('\t', 't'), ('\n', 'n'), ('\x0b', 'v'),
   ('\x0c', 'f'), ('\r', 'r'), ('\x1b', 'e'), ('"', '"'), ('\\', '\\'), ('\x85', 'N'),
   ('\xa0', '_'), ('\u2028', 'L'), ('\u2029', 'P')]

/-- A character that double quotes hold as it is. -/
def isOrdinary (c : Char) : Bool :=
  (('\x20' ≤ c && c ≤ '\x7e') || ('\xa0' ≤ c && c ≤ '\ufffd'))
    && c ≠ '"' && c ≠ '\\' && c ≠ '\u2028' && c ≠ '\u2029' && c ≠ '\ufeff'

/-- The hexadecimal digits of a number, in capitals. -/
def capitalHex (width n : Nat) : List Char :=
  (Text.hexPadded width n).map Char.toUpper

/-- A character that double quotes cannot hold as it is. -/
def escaped (c : Char) : List Char :=
  match escapeLetters.lookup c with
  | some letter => ['\\', letter]
  | none =>
    if c.toNat ≤ 0xFF then '\\' :: 'x' :: capitalHex 2 c.toNat
    else if c.toNat ≤ 0xFFFF then '\\' :: 'u' :: capitalHex 4 c.toNat
    else '\\' :: 'U' :: capitalHex 8 c.toNat

/-- Ends a line between double quotes and goes on with the next; a blank at its start is marked. -/
def foldDouble (s : Sheet) (column : Nat) (next : Char) : Sheet :=
  let s := { (s.write ['\\']).toColumn column with spaced := false, indented := false }
  if next = ' ' then s.write ['\\'] else s

/-- The characters between double quotes; `kept` are, in reverse, those not written yet. -/
def doubleChars (column : Nat) (split : Bool) :
    (isFirst : Bool) → (kept : List Char) → Sheet → List Char → Sheet
  | _, kept, s, [] => s.write kept.reverse
  | isFirst, kept, s, c :: rest =>
    let mayFold := split && !isFirst && !rest.isEmpty
    if isOrdinary c then
      if mayFold && (c = ' ' || kept.isEmpty) && width < s.column + kept.length then
        doubleChars column split false [c] ((s.write kept.reverse).foldDouble column c) rest
      else doubleChars column split false (c :: kept) s rest
    else
      let s := (s.write kept.reverse).write (escaped c)
      let s := if mayFold && width + 1 < s.column then s.foldDouble column (rest.headD ' ') else s
      doubleChars column split false [] s rest

/-- A text between double quotes. -/
def double (s : Sheet) (column : Nat) (split : Bool) (cs : List Char) : Sheet :=
  (doubleChars column split true [] (s.mark "\"" true false) cs).mark "\"" false false

/-! ### As a block of lines -/

/-- The lines of a text as a block. The text ends with a line break. -/
def block (s : Sheet) (column : Nat) (cs : List Char) : Sheet :=
  let lines := (Text.splitOn ['\n'] cs).dropLast
  lines.foldl (fun s line => ((s.toColumn column).write line).newline)
    (s.mark "|" true false).newline

end Sheet

end Choicebook.Yaml
