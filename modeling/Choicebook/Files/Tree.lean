import Choicebook.Fault
import Choicebook.Files.Path
import Choicebook.Text.Utf8
import Choicebook.Value.Basic

/-!
# Files

A `Tree` is what a program sees of a file system: files and directories, each under the names that
lead there from the root, the working directory, and the home directories of users. `Tree.find`
follows a path and says what stands at its end, or why there is nothing.

Some files may not be written, and in some directories nothing may be made. What fails leaves all
files as they are.
-/

namespace Choicebook.Files

/-- A script as it stands in a file: its text, the members that it defines, in order, and the
failure that it ends with, if it does. A member can be marked as defined elsewhere. -/
structure ScriptFile where
  source : String
  members : List (String × Bool × Value)
  failure : Option (String × String)

/-- The content of a file. -/
inductive Body where
  | text (s : String)
  | bytes (bs : List UInt8)
  | script (f : ScriptFile)

/-- The names that lead from the root to a place. -/
abbrev Location := List String

/-- What a program sees of a file system. -/
structure Tree where
  files : List (Location × Body)
  directories : List Location
  /-- The working directory. -/
  working : Location
  /-- The home directories of users by their names; one's own has no name. -/
  homes : List (String × Location)
  /-- The files that may not be written, and the directories in which nothing may be made. -/
  locked : List Location

/-- What stands at the end of a path. -/
inductive Spot where
  | file (at_ : Location) (body : Body)
  | directory
  /-- Nothing, in a directory that is there. -/
  | free (at_ : Location)
  /-- Nothing, and there is no such directory either. -/
  | missing
  /-- A file stands where a directory is needed. -/
  | blocked

namespace Tree

/-- The directories that lead to a place. -/
def above (l : Location) : List Location :=
  (List.range (l.length - 1)).map fun n => l.take (n + 1)

/-- An empty working directory, with the directories that lead to it. -/
def empty (working : Location) (homes : List (String × Location)) : Tree :=
  ⟨[], above working ++ [working], working, homes, []⟩

/-- The file at a location. -/
def fileAt? (t : Tree) (l : Location) : Option Body := t.files.lookup l

/-- Whether there is a directory at a location. -/
def hasDirectory (t : Tree) (l : Location) : Bool := l.isEmpty || t.directories.contains l

/-- What stands at the end of some names, as seen from a directory. The root is its own parent. -/
def follow (t : Tree) : (current : Location) → List String → Spot
  | _, [] => .directory
  | current, n :: rest =>
    if n = ".." then follow t current.dropLast rest
    else
      let next := current ++ [n]
      if t.hasDirectory next then follow t next rest
      else match t.fileAt? next with
        | some body => if rest.isEmpty then .file next body else .blocked
        | none => if rest.isEmpty then .free next else .missing

/-- Where a path starts. -/
def start (t : Tree) (b : Base) : Location :=
  match b with
  | .relative | .working _ => t.working
  | .root => []

/-- What stands at the end of a path. -/
def find (t : Tree) (p : Path) : Spot := t.follow (t.start p.base) p.names

/-- Whether a path leads to a file. -/
def isFile (t : Tree) (p : Path) : Bool :=
  match t.find p with
  | .file .. => true
  | _ => false

/-- Whether a path leads to a file or a directory. -/
def holds (t : Tree) (p : Path) : Bool :=
  match t.find p with
  | .file .. | .directory => true
  | _ => false

/-- The content of the file at the end of a path. -/
def read (t : Tree) (p : Path) : Except Fault Body :=
  match t.find p with
  | .file _ body => .ok body
  | .directory => .error (.misuse .isDirectory)
  | .free _ | .missing => .error (.misuse .missingFile)
  | .blocked => .error (.misuse .notDirectory)

/-- Carriage returns in front of newlines are dropped, and other ones become newlines. -/
def normalBreaks : List Char → List Char
  | '\r' :: '\n' :: cs => '\n' :: normalBreaks cs
  | '\r' :: cs => '\n' :: normalBreaks cs
  | c :: cs => c :: normalBreaks cs
  | [] => []

/-- The text of the file at the end of a path. -/
def readText (t : Tree) (p : Path) : Except Fault String := do
  match ← t.read p with
  | .text s => .ok (String.ofList (normalBreaks s.toList))
  | .bytes bs => match Text.decodeUtf8? bs with
    | some cs => .ok (String.ofList (normalBreaks cs))
    | none => .error (.misuse .undecodable)
  | .script f => .ok (String.ofList (normalBreaks f.source.toList))

/-- The content of the file at the end of a path, as a value: a text or bytes. -/
def readRaw (t : Tree) (p : Path) : Except Fault Value := do
  match ← t.read p with
  | .text s => .ok (.text s)
  | .bytes bs => .ok (.bytes bs)
  | .script f => .ok (.text f.source)

/-- Puts a file at a location. -/
def putAt (t : Tree) (l : Location) (body : Body) : Tree :=
  if (t.fileAt? l).isSome then
    { t with files := t.files.map fun e => if e.1 = l then (l, body) else e }
  else { t with files := t.files ++ [(l, body)] }

/-- Writes a text to the end of a path; the directory has to be there. -/
def writeText (t : Tree) (p : Path) (s : String) : Except Fault Tree :=
  match t.find p with
  | .file l _ =>
    if t.locked.contains l then .error (.misuse .forbidden) else .ok (t.putAt l (.text s))
  | .free l =>
    if t.locked.contains l.dropLast then .error (.misuse .forbidden)
    else .ok (t.putAt l (.text s))
  | .directory => .error (.misuse .isDirectory)
  | .missing => .error (.misuse .missingFile)
  | .blocked => .error (.misuse .notDirectory)

/-- Makes a directory in one that is there. -/
def makeAt (t : Tree) (l : Location) : Except Fault Tree :=
  if t.locked.contains l.dropLast then .error (.misuse .forbidden)
  else .ok { t with directories := t.directories ++ [l] }

/-- Makes the directory at the end of a path, and those that lead there; `count` names are left. -/
def makeDirectories (t : Tree) : (count : Nat) → Path → Except Fault Tree
  | 0, _ => .ok t
  | count + 1, p =>
    match t.find p with
    | .directory => .ok t
    | .file .. => .error (.misuse .fileInTheWay)
    | .blocked => .error (.misuse .notDirectory)
    | .free l => t.makeAt l
    | .missing => do
      let t ← t.makeDirectories count p.parent
      match t.find p with
      | .free l => t.makeAt l
      | .directory => .ok t
      | _ => .error (.misuse .missingFile)

/-- Makes the directory at the end of a path, and those that lead there. -/
def withDirectory (t : Tree) (p : Path) : Except Fault Tree :=
  t.makeDirectories p.names.length p

/-- Puts a file into the tree with all directories that lead to it. -/
def plant (t : Tree) (l : Location) (body : Body) : Tree :=
  let new := (above l).filter fun d => !t.directories.contains d
  { t with directories := t.directories ++ new }.putAt l body

/-- The location that a text spells, as seen from the working directory. Double dots take a name
back, whether or not there is such a directory. -/
def locationOf (t : Tree) (text : String) : Location :=
  let p := Path.ofText text
  (Path.collapse ⟨.root, t.start p.base ++ p.names⟩).names

/-- The text of a location, as seen from the working directory. -/
def textOf (t : Tree) (l : Location) : String :=
  if t.working.isPrefixOf l then Text.join "/" (l.drop t.working.length) else "/" ++ Text.join "/" l

/-- The files that one tree has and another one has not, or has with another text. -/
def changes (before after : Tree) : List (String × String) :=
  let written := after.files.filterMap fun (l, body) =>
    match body with
    | .text s =>
      match before.fileAt? l with
      | some (.text old) => if old = s then none else some (before.textOf l, s)
      | _ => some (before.textOf l, s)
    | _ => none
  written.mergeSort fun a b => decide (a.1 ≤ b.1)

end Tree

end Choicebook.Files
