import Choicebook.Fault
import Choicebook.Text.Quoted
import Choicebook.Value.Text

/-!
# Writing JSON

`Json.write` writes a value either on one line or with one entry per line and two blanks per level.
All characters but quotes, backslashes and controls stand for themselves. Keys that are null, truth
values or numbers are written as texts; other keys, and values that JSON has no form for, are
refused, and so are numbers that are too long.
-/

namespace Choicebook.Json

/-- One character of a written text. -/
def writeChar (c : Char) : List Char :=
  if c = '"' ∨ c = '\\' then ['\\', c]
  else if c = '\n' then ['\\', 'n']
  else if c = '\r' then ['\\', 'r']
  else if c = '\t' then ['\\', 't']
  else if c = '\x08' then ['\\', 'b']
  else if c = '\x0c' then ['\\', 'f']
  else if c.toNat < 32 then '\\' :: 'u' :: Text.hexPadded 4 c.toNat
  else [c]

/-- A text between quotes. -/
def writeText (s : String) : String :=
  String.ofList ('"' :: (s.toList.flatMap writeChar ++ ['"']))

/-- How the parts of a container are set apart. -/
inductive Style where
  | oneLine
  /-- One part per line, at the given level. -/
  | lines (level : Nat)

namespace Style

/-- What stands between the opening bracket and the first part. -/
def opening : Style → String
  | oneLine => ""
  | lines level => "\n" ++ String.ofList (List.replicate (2 * (level + 1)) ' ')

/-- What stands between two parts. -/
def between : Style → String
  | oneLine => ", "
  | lines level => ",\n" ++ String.ofList (List.replicate (2 * (level + 1)) ' ')

/-- What stands between the last part and the closing bracket. -/
def closing : Style → String
  | oneLine => ""
  | lines level => "\n" ++ String.ofList (List.replicate (2 * level) ' ')

/-- The style of the parts of a container. -/
def inner : Style → Style
  | oneLine => oneLine
  | lines level => lines (level + 1)

end Style

/-- A double. -/
def writeDouble (x : Double) : String := x.render .json

/-- A whole number. -/
def writeInt (n : Int) : Except Fault String :=
  if Number.isWritable n then .ok (toString n) else .error (.misuse .badValue)

/-- A key, as a text. -/
def keyText : Value → Except Fault String
  | .text s => .ok s
  | .float x => .ok (writeDouble x)
  | .bool b => .ok (if b then "true" else "false")
  | .null => .ok "null"
  | .int n => writeInt n
  | _ => .error (.misuse .wrongType)

/-- A container from its written parts. -/
def bracket (style : Style) (left right : String) (parts : List String) : String :=
  if parts.isEmpty then left ++ right
  else left ++ style.opening ++ String.intercalate style.between parts ++ style.closing ++ right

mutual

/-- A value in a style. -/
def writeStyled (style : Style) : Value → Except Fault String
  | .null => .ok "null"
  | .bool b => .ok (if b then "true" else "false")
  | .int n => writeInt n
  | .float x => .ok (writeDouble x)
  | .text s => .ok (writeText s)
  | .list xs | .tuple xs => (writeItems style.inner xs).map (bracket style "[" "]")
  | .map es => (writeEntries style.inner es).map (bracket style "\x7b" "\x7d")
  | _ => .error (.misuse .wrongType)

/-- The items of a list. -/
def writeItems (style : Style) : List Value → Except Fault (List String)
  | [] => .ok []
  | x :: xs => do
    let first ← writeStyled style x
    let others ← writeItems style xs
    .ok (first :: others)

/-- The entries of a mapping. -/
def writeEntries (style : Style) : List (Value × Value) → Except Fault (List String)
  | [] => .ok []
  | (k, v) :: es => do
    let key ← keyText k
    let value ← writeStyled style v
    let others ← writeEntries style es
    .ok ((writeText key ++ ": " ++ value) :: others)

end

/-- A value as JSON, over several lines if `pretty`. -/
def write (pretty : Bool) (v : Value) : Except Fault String :=
  writeStyled (if pretty then .lines 0 else .oneLine) v

end Choicebook.Json
