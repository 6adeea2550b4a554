import Choicebook.Text.Search

/-!
# Paths

A path is a list of names with the place it starts from: the working directory, left open
(`relative`) or written out (`working`), or the root of the file system. Empty names and single dots
are dropped when a path is read; double dots stay, because what they mean depends on the directories
that exist.
-/

namespace Choicebook.Files

/-- Where a path starts. -/
inductive Base where
  | relative
  /-- The working directory, as it is written out. -/
  | working (written : String)
  /-- The root of the file system. -/
  | root
  deriving DecidableEq, Repr

/-- A path. -/
structure Path where
  base : Base
  names : List String
  deriving DecidableEq, Repr

namespace Path

/-- The working directory itself. -/
def here : Path := ⟨.relative, []⟩

/-- The working directory, as it is written out. -/
def working (written : String) : Path := ⟨.working written, []⟩

/-- The names between the slashes of a text. -/
def namesOf (s : String) : List String :=
  ((Text.splitOn ['/'] s.toList).map String.ofList).filter fun n => n ≠ "" && n ≠ "."

/-- The path that a text spells. -/
def ofText (s : String) : Path :=
  ⟨if Text.startsWith s "/" then .root else .relative, namesOf s⟩

/-- The text of a path. -/
def text (p : Path) : String :=
  match p.base with
  | .relative => if p.names.isEmpty then "." else Text.join "/" p.names
  | .working written => Text.join "/" (written :: p.names)
  | .root => "/" ++ Text.join "/" p.names

/-- `q` as seen from `p`. -/
def join (p q : Path) : Path :=
  match q.base with
  | .relative => ⟨p.base, p.names ++ q.names⟩
  | _ => q

/-- The last name. -/
def name (p : Path) : String := p.names.getLastD ""

/-- The path without its last name. -/
def parent (p : Path) : Path := { p with names := p.names.dropLast }

/-- The last point of a name, unless it is the first or the last character: what comes before it,
and the rest from the point on. -/
def splitName (name : String) : String × String :=
  let behind := name.toList.reverse.takeWhile (· ≠ '.')
  let before := (name.toList.reverse.drop (behind.length + 1)).reverse
  if behind.isEmpty || before.isEmpty || behind.length = name.length then (name, "")
  else (String.ofList before, String.ofList ('.' :: behind.reverse))

/-- The last name without its ending. -/
def stem (p : Path) : String := (splitName p.name).1

/-- The ending of the last name, with its point. -/
def ending (p : Path) : String := (splitName p.name).2

/-- The name of the user in whose home directory a path starts; empty for one's own. -/
def homeOf? (p : Path) : Option String :=
  match p.base, p.names with
  | .relative, first :: _ =>
    if Text.startsWith first "~" then some (String.ofList (first.toList.drop 1)) else none
  | _, _ => none

/-- Drops each double dot together with the name before it, whether or not there is such a
directory. -/
def collapse (p : Path) : Path :=
  let names := p.names.foldl
    (fun done n =>
      if n = ".." ∧ done.getLast?.any (· ≠ "..") then done.dropLast
      else if n = ".." ∧ done.isEmpty ∧ p.base = .root then []
      else done ++ [n]) []
  ⟨p.base, names⟩

end Path

end Choicebook.Files
