import Choicebook.Editor.Action
import Choicebook.Text.Blank

/-!
# The text buffer of an editor

A `Buffer` is a text with a cursor, perhaps a selection, and a clipboard. Positions count
characters.

The text can be replaced from outside, and then the cursor and the selection stay where they were.
So a position may lie behind the end of the text, and everything here reads such a position as the
end.
-/

namespace Choicebook

/-- A text buffer. -/
structure Buffer where
  text : List Char
  cursor : Nat
  /-- From where to where the selection goes. -/
  selection : Option (Nat × Nat)
  clipboard : List Char
  deriving DecidableEq, Repr

namespace Buffer

/-- A buffer with a text and a cursor, which is moved into the text. -/
def start (text : String) (cursor : Int) : Buffer :=
  let cs := text.toList
  ⟨cs, min cursor.toNat cs.length, none, []⟩

/-- The characters from one position to another. -/
def slice (cs : List Char) (a b : Nat) : List Char := (cs.take b).drop a

/-- Where the line of the cursor starts. -/
def lineStart (b : Buffer) : Nat :=
  let before := b.text.take b.cursor
  before.length - (before.reverse.takeWhile (· ≠ '\n')).length

/-- Where the line of the cursor ends. -/
def lineEnd (b : Buffer) : Nat :=
  match Text.indexFrom? '\n' b.cursor b.text with
  | some i => i
  | none => b.text.length

/-- The selected characters. -/
def selected (b : Buffer) : List Char :=
  match b.selection with
  | some (s, e) => slice b.text s e
  | none => []

/-- Puts characters in the place of the selection, or at the cursor if nothing is selected. -/
def replaceSelection (b : Buffer) (cs : List Char) : Buffer :=
  let (s, e) := b.selection.getD (b.cursor, b.cursor)
  { b with
    text := b.text.take s ++ cs ++ b.text.drop e
    cursor := s + cs.length
    selection := none }

/-! ### Links -/

/-- The length of a link between double brackets at the front. -/
def bracketLink? (cs : List Char) : Option Nat := do
  let rest ← Text.afterPiece? "[[".toList cs
  let inner := rest.takeWhile (· ≠ ']')
  let _ ← Text.afterPiece? "]]".toList (rest.drop inner.length)
  if inner.isEmpty then none else some (inner.length + 4)

/-- The length of a link with a text in brackets and a target in parentheses at the front. -/
def inlineLink? (cs : List Char) : Option Nat := do
  let rest ← Text.afterPiece? "[".toList cs
  let label := rest.takeWhile (· ≠ ']')
  let rest ← Text.afterPiece? "](".toList (rest.drop label.length)
  let target := rest.takeWhile (· ≠ ')')
  let _ ← Text.afterPiece? ")".toList (rest.drop target.length)
  some (label.length + target.length + 4)

/-- The length of an address at the front. -/
def address? (cs : List Char) : Option Nat := do
  let rest ← (Text.afterPiece? "https://".toList cs).orElse fun _ =>
    Text.afterPiece? "http://".toList cs
  let inner := rest.takeWhile fun c => !Text.isBlank c
  if inner.isEmpty then none else some (cs.length - rest.length + inner.length)

/-- The first link of a line that starts at a position: from where to where it goes. -/
def findLink? (position : Nat) : List Char → Option (Nat × Nat)
  | [] => none
  | c :: cs =>
    let here := (bracketLink? (c :: cs)).orElse fun _ =>
      (inlineLink? (c :: cs)).orElse fun _ => address? (c :: cs)
    match here with
    | some n => some (position, position + n)
    | none => findLink? (position + 1) cs

/-! ### Actions -/

/-- Moves the cursor; nothing is selected any more. -/
def moveTo (b : Buffer) (position : Nat) : Buffer :=
  { b with cursor := position, selection := none }

/-- Does an action. The result is nothing if there is no link to select. -/
def after? (b : Buffer) : EditorAction → Option Buffer
  | .copy => some { b with clipboard := b.selected }
  | .cut => some ({ b with clipboard := b.selected }.replaceSelection [])
  | .paste | .pasteWithFormat => some (b.replaceSelection b.clipboard)
  | .selectLine => some { b with selection := some (b.lineStart, b.lineEnd) }
  | .selectLink =>
    (findLink? b.lineStart (slice b.text b.lineStart b.lineEnd)).map fun l =>
      { b with selection := some l }
  | .moveToStart => some (b.moveTo 0)
  | .moveToEnd => some (b.moveTo b.text.length)
  | .moveToLineStart => some (b.moveTo b.lineStart)
  | .moveToLineEnd => some (b.moveTo b.lineEnd)

/-- The warning when there is no link to select. -/
def noLink : String := "no link on the active line"

/-- Does an action. If there is no link to select, nothing happens, and there is a warning. -/
def apply (b : Buffer) (a : EditorAction) : Buffer × Option String :=
  match b.after? a with
  | some c => (c, none)
  | none => (b, some noLink)

end Buffer

end Choicebook
