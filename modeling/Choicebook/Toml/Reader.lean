import Choicebook.Toml.Scalar

/-!
# Reading TOML

`Toml.read?` reads a text as one mapping. Statements fill it one after the other: `key = value` sets
an entry of the present table, `[name]` chooses a table, and `[[name]]` appends a table to a list.

Nothing is set twice. Tables named by a header, or by the front of a dotted key, are not named
again, and what stands in brackets or braces as a value is closed for good. `Progress` keeps account
of this.
-/

namespace Choicebook.Toml

/-- The names that lead to a table or an entry. -/
abbrev Path := List String

/-- What has been read so far. -/
structure Progress where
  root : Entries
  /-- Tables that no header and no dotted key may name again. -/
  named : List Path
  /-- Tables that become such at the next header. -/
  pending : List Path
  /-- Values that nothing may be added to. -/
  closed : List Path
  /-- The present table. -/
  header : Path

namespace Progress

/-- Whether a path leads to or into a closed value. -/
def isClosed (p : Progress) (path : Path) : Bool :=
  p.closed.any fun c => c.isPrefixOf path

def isNamed (p : Progress) (path : Path) : Bool := p.named.contains path

end Progress

/-- Changes the table at a path, which is made if there is none. A list of tables stands for its
last one, if `throughLists`. -/
def updateTable (throughLists : Bool) (f : Entries → Option Entries) :
    Path → Entries → Option Entries
  | [], m => f m
  | k :: path, m => do
    let inner (es : Entries) : Option Value := (updateTable throughLists f path es).map Value.map
    let v ← match m.field? k with
      | none => inner []
      | some (.map es) => inner es
      | some (.list xs) =>
        match throughLists, xs.getLast? with
        | true, some (.map es) => (inner es).map fun t => .list (xs.dropLast ++ [t])
        | _, _ => none
      | some _ => none
    some (m.insert (.text k) v)

/-- Adds an entry, which must be new. -/
def addEntry (name : String) (v : Value) (m : Entries) : Option Entries :=
  if m.has (.text name) then none else some (m.insert (.text name) v)

/-- Appends an empty table to the list at the end of a path. -/
def appendTable (name : String) (m : Entries) : Option Entries :=
  match m.field? name with
  | none => some (m.insert (.text name) (.list [.map []]))
  | some (.list xs) => some (m.insert (.text name) (.list (xs ++ [.map []])))
  | some _ => none

/-! ### Keys -/

/-- A character of keys without quotes. -/
def isBare (c : Char) : Bool := c.isAlphanum || c = '-' || c = '_'

/-- One part of a key. -/
def keyPart? : Reader String := fun cs =>
  match cs with
  | c :: _ =>
    if isBare c then some (String.ofList (cs.takeWhile isBare), cs.dropWhile isBare)
    else lineText? cs
  | [] => none

/-- A key with the blanks behind it. -/
def key? : (fuel : Nat) → Reader Path
  | 0, _ => none
  | fuel + 1, cs => do
    let (part, rest) ← keyPart? cs
    match skipSpaces rest with
    | '.' :: more =>
      let (parts, rest) ← key? fuel (skipSpaces more)
      some (part :: parts, rest)
    | rest => some ([part], rest)

/-- A dotted key. -/
def path? : Reader Path := fun cs => key? (cs.length + 1) cs

/-- Behind a comment, if one stands here: at the end of the line. -/
def skipComment? (cs : List Char) : Option (List Char) :=
  match cs with
  | '#' :: rest =>
    if (rest.takeWhile (· ≠ '\n')).any isControl then none else some (rest.dropWhile (· ≠ '\n'))
  | _ => some cs

/-- Behind blanks, line breaks and comments, as they may stand between brackets. -/
def skipFiller? : (fuel : Nat) → List Char → Option (List Char)
  | 0, cs => some cs
  | fuel + 1, cs =>
    let rest := cs.dropWhile fun c => isSpace c || c = '\n'
    match rest with
    | '#' :: _ => (skipComment? rest).bind (skipFiller? fuel)
    | _ => some rest

/-- Behind blanks, line breaks and comments. -/
def skip? (cs : List Char) : Option (List Char) := skipFiller? (cs.length + 1) cs

/-! ### Values -/

/-- A table in braces while it is read: its entries and the values that are closed. -/
structure Inline where
  entries : Entries
  closed : List Path

/-- Whether nothing may be added to a value once it is set. -/
def closes : Value → Bool
  | .map _ | .list _ => true
  | _ => false

/-- Adds an entry to a table in braces. -/
def Inline.add (t : Inline) (path : Path) (v : Value) : Option Inline :=
  if t.closed.any fun c => c.isPrefixOf path then none
  else do
    let es ← updateTable false (addEntry (path.getLastD "") v) path.dropLast t.entries
    some ⟨es, if closes v then path :: t.closed else t.closed⟩

mutual

/-- A value. -/
def value? : (fuel : Nat) → Reader Value
  | 0, _ => none
  | fuel + 1, cs =>
    match cs with
    | '"' :: _ => (text? cs).map fun r => (.text r.1, r.2)
    | '\'' :: _ => (text? cs).map fun r => (.text r.1, r.2)
    | '[' :: rest => do
      let rest ← skip? rest
      let (items, rest) ← items? fuel rest
      some (.list items, rest)
    | '{' :: rest =>
      match skipSpaces rest with
      | '}' :: rest => some (.map [], rest)
      | rest => (inline? fuel ⟨[], []⟩ rest).map fun r => (.map r.1, r.2)
    | _ => scalar? cs

/-- The items of a list up to and with its closing bracket. -/
def items? : (fuel : Nat) → Reader (List Value)
  | 0, _ => none
  | fuel + 1, cs =>
    match cs with
    | ']' :: rest => some ([], rest)
    | _ => do
      let (v, rest) ← value? fuel cs
      match ← skip? rest with
      | ']' :: rest => some ([v], rest)
      | ',' :: rest =>
        let rest ← skip? rest
        let (vs, rest) ← items? fuel rest
        some (v :: vs, rest)
      | _ => none

/-- A key, an equals sign and a value. -/
def pair? : (fuel : Nat) → Reader (Path × Value)
  | 0, _ => none
  | fuel + 1, cs => do
    let (path, rest) ← path? cs
    match rest with
    | '=' :: rest =>
      let (v, rest) ← value? fuel (skipSpaces rest)
      some ((path, v), rest)
    | _ => none

/-- The entries of a table in braces up to and with the closing one. -/
def inline? : (fuel : Nat) → Inline → Reader Entries
  | 0, _, _ => none
  | fuel + 1, t, cs => do
    let ((path, v), rest) ← pair? fuel cs
    let t ← t.add path v
    match skipSpaces rest with
    | '}' :: rest => some (t.entries, rest)
    | ',' :: rest => inline? fuel t (skipSpaces rest)
    | _ => none

end

/-! ### Statements -/

namespace Progress

/-- Sets an entry of the present table. -/
def assign (p : Progress) (path : Path) (v : Value) : Option Progress :=
  let fronts := (List.range (path.length - 1)).map fun i => p.header ++ path.take (i + 1)
  let table := p.header ++ path.dropLast
  if fronts.any p.isNamed || p.isClosed table then none
  else do
    let root ← updateTable true (addEntry (path.getLastD "") v) table p.root
    some { p with
      root := root
      pending := fronts ++ p.pending
      closed := if closes v then (p.header ++ path) :: p.closed else p.closed }

/-- What a header does before anything else. -/
def settle (p : Progress) : Progress :=
  { p with named := p.pending ++ p.named, pending := [] }

/-- Chooses a table, which no header has named before. -/
def openTable (p : Progress) (path : Path) : Option Progress :=
  if p.isNamed path || p.isClosed path then none
  else do
    let root ← updateTable true some path p.root
    some { p with root := root, named := path :: p.named, header := path }

/-- Appends a table to a list and chooses it. What was said about tables inside the last one is
forgotten. -/
def openItem (p : Progress) (path : Path) : Option Progress :=
  if p.isClosed path then none
  else do
    let root ← updateTable true (appendTable (path.getLastD "")) path.dropLast p.root
    let inside (q : Path) : Bool := path.isPrefixOf q
    some { p with
      root := root
      named := path :: p.named.filter fun q => !inside q
      closed := p.closed.filter fun q => !inside q
      header := path }

end Progress

/-- A statement: what it makes of the progress, and what follows it. -/
def statement? (p : Progress) (cs : List Char) : Option (Progress × List Char) :=
  match cs with
  | '[' :: '[' :: rest => do
    let (path, rest) ← path? (skipSpaces rest)
    let p ← p.settle.openItem path
    match rest with
    | ']' :: ']' :: rest => some (p, skipSpaces rest)
    | _ => none
  | '[' :: rest => do
    let (path, rest) ← path? (skipSpaces rest)
    let p ← p.settle.openTable path
    match rest with
    | ']' :: rest => some (p, skipSpaces rest)
    | _ => none
  | '#' :: _ => some (p, cs)
  | _ => do
    let ((path, v), rest) ← pair? (cs.length + 1) cs
    let p ← p.assign path v
    some (p, skipSpaces rest)

/-- All statements. -/
def statements? : (fuel : Nat) → Progress → List Char → Option Progress
  | 0, _, _ => none
  | fuel + 1, p, cs =>
    match skipSpaces cs with
    | [] => some p
    | '\n' :: rest => statements? fuel p rest
    | cs => do
      let (p, rest) ← statement? p cs
      match ← skipComment? rest with
      | [] => some p
      | '\n' :: rest => statements? fuel p rest
      | _ => none

/-- Reads a text as one mapping. -/
def read? (s : String) : Option Value :=
  let cs := Text.replace ['\r', '\n'] ['\n'] s.toList
  (statements? (cs.length + 2) ⟨[], [], [], [], []⟩ cs).map fun p => .map p.root

end Choicebook.Toml
