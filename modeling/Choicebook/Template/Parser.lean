import Choicebook.Fault
import Choicebook.Text.Blank
import Choicebook.Text.Search

/-!
# Parsing templates

A template is a text with tags between delimiters, which are double braces unless a tag changes
them. `Template.parse` turns it into `Piece`s.

A tag that does not stand for a text and has a line for itself takes the whole line with it. A
section that is never closed swallows what came before it.
-/

namespace Choicebook.Template

/-- What opens and what closes a tag. -/
structure Delimiters where
  opening : List Char
  closing : List Char
  deriving DecidableEq, Repr

namespace Delimiters

/-- Double braces. -/
def braces : Delimiters := ⟨['{', '{'], ['}', '}']⟩

end Delimiters

/-- A part of a template. -/
inductive Piece where
  | text (s : List Char)
  /-- The value of a name. -/
  | value (name : String)
  /-- A part for each item of a value; a function gets its source instead. -/
  | forEach (name : String) (inner : List Piece) (source : List Char) (d : Delimiters)
  /-- A part for a value that counts as false. -/
  | unless (name : String) (inner : List Piece)
  /-- Another template, each line behind an indentation. -/
  | inclusion (name : String) (indent : List Char)

/-- What a tag does. -/
inductive Kind where
  | value
  | comment
  | delimiters
  | forEach
  | unless
  | close
  | inclusion
  deriving DecidableEq, Repr

/-- A tag that has been found: what it does, its name, and what follows it. -/
structure Found where
  kind : Kind
  name : List Char
  rest : List Char

/-! ### Tags -/

/-- The characters that say what a tag does. -/
def kindOf? (c : Char) : Option Kind :=
  [('!', Kind.comment), ('>', .inclusion), ('&', .value), ('/', .close), ('#', .forEach),
   ('^', .unless)].lookup c

/-- What follows some blanks and a piece. -/
def afterBlanks? (piece cs : List Char) : Option (List Char) :=
  Text.afterPiece? piece (cs.dropWhile Text.isBlank)

/-- The shortest name that is not empty and is followed by an end, and what follows that. -/
def name? (ends : List Char → Option (List Char)) (allowsNewline : Bool) :
    List Char → Option (List Char × List Char)
  | [] => none
  | c :: cs =>
    if c = '\n' && !allowsNewline then none
    else match ends cs with
      | some rest => some ([c], rest)
      | none => (name? ends allowsNewline cs).map fun r => (c :: r.1, r.2)

/-- The places behind the blanks at the front, the last one first, down to the front itself. -/
def starts (cs : List Char) : List (List Char) :=
  let n := (cs.takeWhile Text.isBlank).length
  (List.range (n + 1)).reverse.map cs.drop

/-- A tag, after what opens it. -/
def found? (d : Delimiters) (cs : List Char) : Option Found :=
  let close := afterBlanks? d.closing
  let closeAfter (c : Char) (rest : List Char) : Option (List Char) :=
    (afterBlanks? [c] rest).bind close
  let from? (kind : Kind) (ends : List Char → Option (List Char)) (allowsNewline : Bool)
      (places : List (List Char)) : Option Found :=
    places.findSome? fun p => (name? ends allowsNewline p).map fun r => ⟨kind, r.1, r.2⟩
  let marked : Option Found :=
    match cs.dropWhile Text.isBlank with
    | [] => none
    | c :: rest =>
      if c = '=' then from? .delimiters (closeAfter '=') false (starts rest)
      else if c = '{' then from? .value (closeAfter '}') false (starts rest)
      else match kindOf? c with
        | some kind => from? kind close true (starts rest)
        | none => none
  marked.orElse fun _ => from? .value close true (starts cs)

/-- The first tag: what stands before it, the spaces and tabs right in front of it, and the tag. -/
def nextTag? (d : Delimiters) : List Char → Option (List Char × List Char × Found)
  | [] => none
  | c :: cs =>
    let space := (c :: cs).takeWhile fun c => c = ' ' || c = '\t'
    let here := (Text.afterPiece? d.opening ((c :: cs).drop space.length)).bind (found? d)
    match here with
    | some f => some ([], space, f)
    | none => (nextTag? d cs).map fun r => (c :: r.1, r.2.1, r.2.2)

/-! ### The whole template -/

/-- A section that is still open: what kind it is, the name of the one around it, the template from
its start on, and the pieces before it. -/
structure Open where
  kind : Kind
  outerName : Option (List Char)
  source : List Char
  outer : List Piece

/-- The state of parsing: what is left, the character before that, and the pieces of the innermost
section so far. -/
structure Progress where
  rest : List Char
  before : Option Char
  d : Delimiters
  name : Option (List Char)
  pieces : List Piece
  sections : List Open

/-- Whether a place next to a character is at the edge of a line. -/
def isEdge (c : Option Char) : Bool :=
  match c with
  | none => true
  | some c => c = '\r' || c = '\n'

/-- Behind the end of a line, if one is here. -/
def dropLineEnd (cs : List Char) : List Char :=
  let cs := match cs with
    | '\r' :: rest => rest
    | _ => cs
  match cs with
  | '\n' :: rest => rest
  | _ => cs

/-- A text as a piece, unless it is empty. -/
def textPiece (cs : List Char) : List Piece := if cs.isEmpty then [] else [.text cs]

/-- The delimiters that a tag asks for. -/
def delimitersOf (name : List Char) : Except Fault Delimiters :=
  match Text.words name with
  | a :: b :: _ => .ok ⟨a, b⟩
  | _ => .error (.misuse .missingIndex)

/-- What a tag does to the state. The text in front of the tag is among the pieces already; `source`
is the template from the tag on. -/
def Progress.take (p : Progress) (kind : Kind) (name indent source : List Char) :
    Except Fault Progress :=
  let key := String.ofList name
  match kind with
  | .value => .ok { p with pieces := p.pieces ++ [.value key] }
  | .comment => .ok p
  | .inclusion => .ok { p with pieces := p.pieces ++ [.inclusion key indent] }
  | .delimiters => (delimitersOf name).map fun d => { p with d := d }
  | .forEach | .unless =>
    .ok { p with
      name := some name
      pieces := []
      sections := ⟨kind, p.name, p.rest, p.pieces⟩ :: p.sections }
  | .close =>
    match p.sections with
    | [] => .error (.misuse .malformedTemplate)
    | s :: outer =>
      if p.name ≠ some name then .error (.misuse .malformedTemplate)
      else
        let piece : Piece :=
          if s.kind = .unless then .unless key p.pieces
          else .forEach key p.pieces (s.source.take (s.source.length - source.length)) p.d
        .ok { p with name := s.outerName, pieces := s.outer ++ [piece], sections := outer }

/-- Parses up to the end. -/
def parseFrom : (fuel : Nat) → Progress → Except Fault (List Piece)
  | 0, p => .ok p.pieces
  | fuel + 1, p =>
    match nextTag? p.d p.rest with
    | none => .ok (p.pieces ++ textPiece p.rest)
    | some (text, space, f) => do
      let startsLine := isEdge (match text.getLast? with
        | some c => some c
        | none => p.before)
      let ownLine := startsLine && isEdge f.rest.head? && f.kind ≠ .value
      let shown := if ownLine then text else text ++ space
      let after := if ownLine then dropLineEnd f.rest else f.rest
      let q := { p with
        rest := after
        before := if after.length < f.rest.length then some '\n' else p.d.closing.getLast?
        pieces := p.pieces ++ textPiece shown }
      let q ← q.take f.kind f.name (if ownLine then space else []) (p.rest.drop shown.length)
      parseFrom fuel q

/-- Parses a template with the given delimiters. -/
def parse (d : Delimiters) (cs : List Char) : Except Fault (List Piece) :=
  parseFrom (cs.length + 1) ⟨cs, none, d, none, [], []⟩

end Choicebook.Template
