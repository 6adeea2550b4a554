import Choicebook.Text.Case
import Choicebook.Text.Search

/-!
# Editor actions

What an editor command does to the text buffer of a host. An action is known by its label, in
letters of any size and with or without the blanks.
-/

namespace Choicebook

/-- What an editor command does. -/
inductive EditorAction where
  | cut
  | copy
  | paste
  | pasteWithFormat
  | selectLine
  | selectLink
  | moveToStart
  | moveToEnd
  | moveToLineStart
  | moveToLineEnd
  deriving DecidableEq, Repr

namespace EditorAction

/-- All actions. -/
def all : List EditorAction :=
  [cut, copy, paste, pasteWithFormat, selectLine, selectLink, moveToStart, moveToEnd,
   moveToLineStart, moveToLineEnd]

/-- The label of an action. -/
def label : EditorAction → String
  | cut => "Cut"
  | copy => "Copy"
  | paste => "Paste"
  | pasteWithFormat => "Paste with format"
  | selectLine => "Select active line"
  | selectLink => "Select link on active line"
  | moveToStart => "Move cursor to file start"
  | moveToEnd => "Move cursor to file end"
  | moveToLineStart => "Move cursor to line start"
  | moveToLineEnd => "Move cursor to line end"

/-- A label without blanks, in small letters. -/
def squeezed (s : String) : String :=
  Text.lower (String.ofList (s.toList.filter (· ≠ ' ')))

/-- The action with a label. -/
def ofText? (s : String) : Option EditorAction :=
  all.find? fun a => s = a.label || squeezed s = squeezed a.label

end EditorAction

end Choicebook
