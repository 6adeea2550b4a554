import Choicebook.Files.Path
import Choicebook.Json.Writer
import Choicebook.Text.Case
import Choicebook.Toml.Reader
import Choicebook.Yaml.Reader
import Choicebook.Yaml.Writer

/-!
# Document formats

`Encoding.read` turns a document into a value, and `Encoding.write` turns a value into a document.
The format is given by name, or found from the ending of a path, or from the first character.

A document that claims to be JSON and is not may still be YAML, unless it has a number that is too
long. Writing reduces a value to lists, mappings with text keys, and scalars first.
-/

namespace Choicebook.Encoding

/-- The format that the ending of a path stands for. -/
def ofEnding? (path : String) : Option Format :=
  let ending := Text.lower (Files.Path.ofText path).ending
  if ending = ".json" then some .json
  else if ending = ".yaml" || ending = ".yml" then some .yaml
  else if ending = ".toml" then some .toml
  else none

/-- The format that a document looks like: JSON if it starts with a brace or a bracket,
else YAML. -/
def ofLooks (document : String) : Format :=
  match (Text.stripFront document.toList).head? with
  | some '{' => .json
  | some '[' => .json
  | _ => .yaml

/-- The format found from a path or, if that tells nothing, from a document. -/
def detect? (path document : Option String) : Option Format :=
  match path.bind ofEnding? with
  | some f => some f
  | none => document.map ofLooks

/-- The text of a document given as any value. -/
def documentText : Value → String
  | .bytes bs => Text.decodeLossy bs
  | v => v.display

/-- Reads YAML; `claimed` is the format that a malformed document is said to be. -/
def readYaml (claimed : Format) (s : String) : Except Fault Value :=
  match Yaml.read s with
  | .ok v => .ok v
  | .error .malformed => .error (.invalidDocument claimed)
  | .error (.misuse m) => .error (.misuse m)

/-- Reads a document in a format. -/
def readAs (f : Format) (s : String) : Except Fault Value :=
  match f with
  | .json => match Json.read s with
    | .ok v => .ok v
    | .error .malformed => readYaml .json s
    | .error .tooLong => .error (.misuse .badValue)
  | .yaml => readYaml .yaml s
  | .toml => match Toml.read? s with
    | some v => .ok v
    | none => .error (.invalidDocument .toml)

/-- The format with a name; small letters only. -/
def named? (name : String) : Option Format :=
  [Format.json, .yaml, .toml].find? fun f => f.name = name

/-- Reads a document. An empty name of a format counts as none. -/
def read (name : Option String) (path : Option String) (document : Value) : Except Fault Value :=
  let s := documentText document
  match name.filter (· ≠ "") with
  | some n => match named? n with
    | some f => readAs f s
    | none => .error (.unsupportedFormat (Text.quoted n))
  | none => readAs ((path.bind ofEnding?).getD (ofLooks s)) s

mutual

/-- Tuples become lists and keys become texts, as deep as lists and mappings go. -/
def plain : Value → Value
  | .list xs => .list (plainItems xs)
  | .tuple xs => .list (plainItems xs)
  | .map es => .map (Entries.ofPairs (plainEntries es))
  | v => v

/-- The items of a list, made plain. -/
def plainItems : List Value → List Value
  | [] => []
  | x :: xs => plain x :: plainItems xs

/-- The entries of a mapping, made plain. -/
def plainEntries : List (Value × Value) → List (Value × Value)
  | [] => []
  | (k, v) :: es => (.text k.display, plain v) :: plainEntries es

end

mutual

/-- Whether the keys that become texts can all be written. -/
def hasWritableKeys : Value → Bool
  | .list xs | .tuple xs => itemsHaveWritableKeys xs
  | .map es => entriesHaveWritableKeys es
  | _ => true

/-- Whether the keys in the items of a list can all be written. -/
def itemsHaveWritableKeys : List Value → Bool
  | [] => true
  | x :: xs => hasWritableKeys x && itemsHaveWritableKeys xs

/-- Whether the keys of entries, and those in their values, can all be written. -/
def entriesHaveWritableKeys : List (Value × Value) → Bool
  | [] => true
  | (k, v) :: es => k.isWritable && hasWritableKeys v && entriesHaveWritableKeys es

end

/-- Writes a value in the format with a name, in letters of any size. -/
def write (name : Option String) (pretty : Bool) (v : Value) : Except Fault String :=
  let wanted := Text.lower (name.getD "")
  if !hasWritableKeys v then .error (.misuse .badValue)
  else if wanted = "json" then Json.write pretty (plain v)
  else if wanted = "yaml" then Yaml.write (plain v)
  else if wanted = "toml" then .error .cannotWriteToml
  else .error (.cannotWriteFormat ((name.map Text.quoted).getD "None"))

end Choicebook.Encoding
