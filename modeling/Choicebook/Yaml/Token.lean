import Choicebook.Yaml.Cursor
import Choicebook.Fault
import Choicebook.Json.Reader
import Choicebook.Text.Utf8

/-!
# YAML tokens

`Token.scan` turns a text into tokens. Indentation becomes tokens too: where a block collection
starts and where it ends.

A key needs no mark in front of it, so that something is a key shows only at the colon behind it.
Whatever might turn out to be a key is remembered as a `PendingKey`, one for each depth of brackets,
and the key token goes in front of it when the colon comes. A pending key goes stale at the end of
its line, or after 1024 characters.
-/

namespace Choicebook.Yaml

/-- Why a text is no YAML document. -/
inductive Problem where
  | malformed
  /-- A value that is well-formed and still cannot be built. -/
  | misuse (m : Misuse)
  deriving DecidableEq, Repr

/-- A tag as it is written: a handle and what follows it. -/
structure WrittenTag where
  handle : Option String
  suffix : String
  deriving DecidableEq, Repr

/-- A token of a YAML text. -/
inductive Token where
  | streamEnd
  | version (major : Nat)
  | tagHandle (handle expansion : String)
  | otherDirective
  | documentStart
  | documentEnd
  | blockSequenceStart
  | blockMappingStart
  | blockEnd
  | flowSequenceStart
  | flowSequenceEnd
  | flowMappingStart
  | flowMappingEnd
  | flowEntry
  | blockEntry
  | key
  | value
  | alias (name : String)
  | anchor (name : String)
  | tag (t : WrittenTag)
  | scalar (text : String) (plain : Bool)
  deriving DecidableEq, Repr

namespace Token

/-- Something that may turn out to be a key: the number of its first token and its place. -/
structure PendingKey where
  tokenNumber : Nat
  required : Bool
  index : Nat
  line : Nat
  column : Nat

/-- The state of reading tokens. -/
structure Scan where
  cursor : Cursor
  tokens : Array Token
  /-- How many brackets are open. -/
  flowLevel : Nat
  /-- The column of the innermost block collection, `-1` outside of all. -/
  indent : Int
  indents : List Int
  /-- Whether a key may start here. -/
  keyAllowed : Bool
  /-- The pending keys with their depth of brackets. -/
  pending : List (Nat × PendingKey)

abbrev Scanned := Except Problem

namespace Scan

def fail {α : Type} : Scanned α := .error .malformed

/-- Appends a token. -/
def push (s : Scan) (t : Token) : Scan := { s with tokens := s.tokens.push t }

def column (s : Scan) : Int := s.cursor.column

/-- Drops the pending keys that have gone stale; a required one that does is an error. -/
def dropStale (s : Scan) : Scanned Scan :=
  let stale (k : PendingKey) : Bool :=
    k.line ≠ s.cursor.line || s.cursor.index - k.index > 1024
  if s.pending.any fun p => stale p.2 && p.2.required then fail
  else .ok { s with pending := s.pending.filter fun p => !stale p.2 }

/-- Drops the pending key of the present depth; a required one is an error. -/
def dropPending (s : Scan) : Scanned Scan :=
  if s.pending.any fun p => p.1 = s.flowLevel && p.2.required then fail
  else .ok { s with pending := s.pending.filter fun p => p.1 ≠ s.flowLevel }

/-- Remembers that a key may start here. -/
def savePending (s : Scan) : Scanned Scan :=
  if s.keyAllowed then do
    let s ← s.dropPending
    let candidate : PendingKey :=
      { tokenNumber := s.tokens.size
        required := s.flowLevel = 0 && s.indent = s.column
        index := s.cursor.index
        line := s.cursor.line
        column := s.cursor.column }
    .ok { s with pending := s.pending ++ [(s.flowLevel, candidate)] }
  else .ok s

/-- Ends the block collections that are indented deeper than `column`. -/
def unwindTo (column : Int) : List Int → Scan → Scan
  | [], s => s
  | outer :: more, s =>
    if column < s.indent then
      unwindTo column more
        { s with indent := outer, indents := more, tokens := s.tokens.push .blockEnd }
    else s

/-- Ends the block collections that are indented deeper than `column`; brackets hide indentation. -/
def unwind (s : Scan) (column : Int) : Scan :=
  if s.flowLevel = 0 then unwindTo column s.indents s else s

/-- Starts a block collection at `column`, if that is deeper than the present one. -/
def indentTo (s : Scan) (column : Int) : Bool × Scan :=
  if s.indent < column then (true, { s with indent := column, indents := s.indent :: s.indents })
  else (false, s)

/-! ### Directives, anchors and tags -/

/-- A name of letters, digits, hyphens and underscores. -/
def name (c : Cursor) : Scanned (String × Cursor) :=
  match c.span isNameChar with
  | ([], _) => fail
  | (cs, c) => .ok (String.ofList cs, c)

/-- A character that may stand in a tag. -/
def isUriChar (c : Char) : Bool :=
  c.isAlphanum || "-;/?:@&=+$,_.!~*'()[]".toList.contains c

/-- Bytes written as a percent sign and two hexadecimal digits, one after the other. -/
def escapedBytes : (fuel : Nat) → Cursor → Scanned (List UInt8 × Cursor)
  | 0, c => .ok ([], c)
  | fuel + 1, c =>
    if c.here = '%' then
      match Json.hexValue? (c.peek 1), Json.hexValue? (c.peek 2) with
      | some a, some b => do
        let (bytes, c) ← escapedBytes fuel (c.forward 3)
        .ok (UInt8.ofNat (16 * a + b) :: bytes, c)
      | _, _ => fail
    else .ok ([], c)

/-- The characters of a tag. -/
def uriChars : (fuel : Nat) → Cursor → Scanned (List Char × Cursor)
  | 0, c => .ok ([], c)
  | fuel + 1, c =>
    if c.here = '%' then do
      let (bytes, c) ← escapedBytes c.rest.length c
      match Text.decodeUtf8? bytes with
      | none => fail
      | some cs =>
        let (more, c) ← uriChars fuel c
        .ok (cs ++ more, c)
    else if isUriChar c.here then do
      let ch := c.here
      let (more, c) ← uriChars fuel c.next
      .ok (ch :: more, c)
    else .ok ([], c)

/-- A part of a tag; it is not empty. -/
def uri (c : Cursor) : Scanned (String × Cursor) := do
  let (cs, d) ← uriChars c.rest.length c
  if c.index = d.index then fail else .ok (String.ofList cs, d)

/-- A tag handle: an exclamation mark, or a name between two of them. -/
def handle (c : Cursor) : Scanned (String × Cursor) :=
  if c.here ≠ '!' then fail
  else if c.peek 1 = ' ' then .ok ("!", c.next)
  else
    let (cs, d) := c.next.span isNameChar
    if d.here = '!' then .ok (String.ofList ('!' :: (cs ++ ['!'])), d.next) else fail

/-- The rest of a directive's line, which may only hold a comment. -/
def endOfDirective (c : Cursor) : Scanned Cursor :=
  let c := c.skipSpaces.skipComment
  if isBreakEnd c.here then .ok c.lineBreak.2 else fail

/-- A number of ASCII digits. -/
def number (c : Cursor) : Scanned (Nat × Cursor) :=
  match c.span Char.isDigit with
  | ([], _) => fail
  | (cs, c) => .ok (Json.natOf cs, c)

/-- A directive, after its percent sign. -/
def directive (c : Cursor) : Scanned (Token × Cursor) := do
  let (word, c) ← name c
  if !isSpaceEnd c.here then fail
  else if word = "YAML" then
    let (major, c) ← number c.skipSpaces
    if c.here ≠ '.' then fail
    else
      let (_, c) ← number c.next
      if !isSpaceEnd c.here then fail
      else
        let c ← endOfDirective c
        .ok (.version major, c)
  else if word = "TAG" then
    let (h, c) ← handle c.skipSpaces
    if c.here ≠ ' ' then fail
    else
      let (expansion, c) ← uri c.skipSpaces
      if !isSpaceEnd c.here then fail
      else
        let c ← endOfDirective c
        .ok (.tagHandle h expansion, c)
  else
    let c ← endOfDirective (c.skip fun ch => !isBreakEnd ch)
    .ok (.otherDirective, c)

/-- The name of an anchor or an alias, after its mark. -/
def anchorName (c : Cursor) : Scanned (String × Cursor) := do
  let (word, c) ← name c
  if isBlankEnd c.here || "?:,]\x7d%@\x60".toList.contains c.here then .ok (word, c) else fail

/-- Whether an exclamation mark comes before the next blank. -/
def hasHandle (cs : List Char) : Bool :=
  (cs.takeWhile fun c => !isSpaceEnd c).contains '!'

/-- A tag, at its exclamation mark. -/
def writtenTag (c : Cursor) : Scanned (WrittenTag × Cursor) := do
  let (t, c) ←
    if c.peek 1 = '<' then do
      let (suffix, c) ← uri (c.forward 2)
      if c.here = '>' then .ok (⟨none, suffix⟩, c.next) else fail
    else if isBlankEnd (c.peek 1) then .ok (⟨none, "!"⟩, c.next)
    else if hasHandle (c.rest.drop 1) then do
      let (h, c) ← handle c
      let (suffix, c) ← uri c
      .ok (⟨some h, suffix⟩, c)
    else do
      let (suffix, c) ← uri c.next
      .ok (⟨some "!", suffix⟩, c)
  if isSpaceEnd c.here then .ok (t, c) else fail

/-! ### Scalars -/

/-- The breaks of a quoted scalar: what they stand for. A document separator is not allowed. -/
def quotedBreaks : (fuel : Nat) → Cursor → Scanned (List Char × Cursor)
  | 0, c => .ok ([], c)
  | fuel + 1, c =>
    if c.atSeparator then fail
    else
      let c := c.skip isWhite
      if isBreak c.here then do
        let (b, c) := c.lineBreak
        let (more, c) ← quotedBreaks fuel c
        .ok (b ++ more, c)
      else .ok ([], c)

/-- What a line break followed by further breaks stands for: one break alone is a space. -/
def foldedBreak (first further : List Char) : List Char :=
  if first ≠ ['\n'] then first ++ further
  else if further.isEmpty then [' '] else further

/-- Blanks inside a quoted scalar. -/
def quotedSpaces (c : Cursor) : Scanned (List Char × Cursor) :=
  let (whites, c) := c.span isWhite
  if c.here = '\x00' then fail
  else if isBreak c.here then do
    let (b, c) := c.lineBreak
    let (more, c) ← quotedBreaks (c.rest.length + 1) c
    .ok (foldedBreak b more, c)
  else .ok (whites, c)

/-- The characters that one-letter escapes stand for. -/
def escapes : List (Char × Char) :=
  [('0', '\x00'), ('a', '\x07'), ('b', '\x08'), ('t', '\t'), ('\t', '\t'), ('n', '\n'),
   ('v', '\x0b'), ('f', '\x0c'), ('r', '\r'), ('e', '\x1b'), (' ', ' '), ('"', '"'),
   ('\\', '\\'), ('/', '/'), ('N', '\x85'), ('_', '\xa0'), ('L', '\u2028'), ('P', '\u2029')]

/-- How many hexadecimal digits follow an escape letter. -/
def escapeWidth? (c : Char) : Option Nat :=
  if c = 'x' then some 2 else if c = 'u' then some 4 else if c = 'U' then some 8 else none

/-- A number of exactly `width` hexadecimal digits. -/
def hexNumber? (width : Nat) (c : Cursor) : Option (Nat × Cursor) :=
  match (c.rest.take width).mapM Json.hexValue? with
  | none => none
  | some ds =>
    if ds.length < width then none
    else some (ds.foldl (fun n d => 16 * n + d) 0, c.forward width)

/-- The second half of a character, if it stands here as an escape of its own. -/
def lowHalf? (c : Cursor) : Option (Nat × Cursor) :=
  if c.here = '\\' ∧ c.peek 1 = 'u' then
    (hexNumber? 4 (c.forward 2)).filter fun r => Json.isLowHalf r.1
  else none

/-- A character given by number; two halves in a row make one character. -/
def numberedChar (width : Nat) (c : Cursor) : Scanned (Char × Cursor) :=
  match hexNumber? width c with
  | none => fail
  | some (n, c) =>
    if 0x7FFFFFFF < n then .error (.misuse .tooLarge)
    else if 0x10FFFF < n then .error (.misuse .badValue)
    else match (if Json.isHighHalf n then lowHalf? c else none) with
      | some (m, d) => .ok (Json.joinHalves n m, d)
      | none => .ok (Json.charOf n, c)

/-- The inside of a quoted scalar up to its closing quote. -/
def quotedBody (double : Bool) : (fuel : Nat) → Cursor → Scanned (List Char × Cursor)
  | 0, _ => fail
  | fuel + 1, c =>
    let ch := c.here
    let proceed (piece : List Char) (c : Cursor) : Scanned (List Char × Cursor) := do
      let (more, c) ← quotedBody double fuel c
      .ok (piece ++ more, c)
    if ch = (if double then '"' else '\'') then
      if !double && c.peek 1 = '\'' then proceed ['\''] (c.forward 2)
      else .ok ([], c.next)
    else if ch = '\x00' || isWhite ch || isBreak ch then do
      let (piece, c) ← quotedSpaces c
      proceed piece c
    else if double && ch = '\\' then
      let c := c.next
      match escapes.lookup c.here, escapeWidth? c.here with
      | some d, _ => if c.rest.isEmpty then fail else proceed [d] c.next
      | none, some width => do
        let (d, c) ← numberedChar width c.next
        proceed [d] c
      | none, none =>
        if isBreak c.here then do
          let (piece, c) ← quotedBreaks (c.rest.length + 1) c.lineBreak.2
          proceed piece c
        else fail
    else proceed [ch] c.next

/-- A quoted scalar, at its opening quote. -/
def quotedScalar (double : Bool) (c : Cursor) : Scanned (String × Cursor) := do
  let (cs, c) ← quotedBody double (c.rest.length + 1) c.next
  .ok (String.ofList cs, c)

/-- How a block scalar ends: its last break is dropped, kept once, or kept with all that follow. -/
inductive Chomp where
  | strip
  | clip
  | keep
  deriving DecidableEq

/-- The sign for how a block scalar ends. -/
def chomp? (c : Char) : Option Chomp :=
  if c = '+' then some .keep else if c = '-' then some .strip else none

/-- The digit for the indentation of a block scalar; zero is not allowed. -/
def increment (c : Cursor) : Scanned (Option Nat × Cursor) :=
  if c.here.isDigit then
    if c.here = '0' then fail else .ok (some (c.here.toNat - 48), c.next)
  else .ok (none, c)

/-- The head of a block scalar: how it ends and how it is indented, in either order. -/
def blockHead (c : Cursor) : Scanned (Chomp × Option Nat × Cursor) := do
  let (ending, inc, c) ← match chomp? c.here with
    | some ending => do
      let (inc, c) ← increment c.next
      .ok (ending, inc, c)
    | none => do
      let (inc, c) ← increment c
      match inc, chomp? c.here with
      | some _, some ending => .ok (ending, inc, c.next)
      | _, _ => .ok (.clip, inc, c)
  if isSpaceEnd c.here then .ok (ending, inc, c) else fail

/-- The empty lines in front of a block scalar: their breaks, and the greatest column reached. -/
def leadingLines : (fuel : Nat) → Nat → Cursor → List Char × Nat × Cursor
  | 0, deepest, c => ([], deepest, c)
  | fuel + 1, deepest, c =>
    if c.here = ' ' then
      let c := c.next
      leadingLines fuel (max deepest c.column) c
    else if isBreak c.here then
      let (b, c) := c.lineBreak
      let (more, deepest, c) := leadingLines fuel deepest c
      (b ++ more, deepest, c)
    else ([], deepest, c)

/-- Moves over spaces up to a column. -/
def toColumn (column : Nat) : (fuel : Nat) → Cursor → Cursor
  | 0, c => c
  | fuel + 1, c => if c.column < column ∧ c.here = ' ' then toColumn column fuel c.next else c

/-- The breaks between two lines of a block scalar. -/
def blockBreaks (column : Nat) : (fuel : Nat) → Cursor → List Char × Cursor
  | 0, c => ([], c)
  | fuel + 1, c =>
    let c := toColumn column c.rest.length c
    if isBreak c.here then
      let (b, c) := c.lineBreak
      let (more, c) := blockBreaks column fuel c
      (b ++ more, c)
    else ([], c)

/-- The lines of a block scalar. `breaks` stand in front of the next line, `last` is the break
behind the line before. The result ends with the breaks behind the last line. -/
def blockLines (folded : Bool) (column : Nat) :
    (fuel : Nat) → (breaks last : List Char) → Cursor → List Char × List Char × List Char × Cursor
  | 0, breaks, last, c => ([], last, breaks, c)
  | fuel + 1, breaks, last, c =>
    if c.column = column ∧ c.here ≠ '\x00' then
      let firstSolid := !isWhite c.here
      let (line, c) := c.span fun ch => !isBreakEnd ch
      let (b, c) := c.lineBreak
      let (breaks', c) := blockBreaks column (c.rest.length + 1) c
      let glue :=
        if c.column = column ∧ c.here ≠ '\x00' then
          if folded ∧ b = ['\n'] ∧ firstSolid ∧ !isWhite c.here then
            if breaks'.isEmpty then [' '] else []
          else b
        else []
      let (more, last', breaks'', c) := blockLines folded column fuel breaks' b c
      (breaks ++ line ++ glue ++ more, last', breaks'', c)
    else ([], last, breaks, c)

/-- A block scalar, at its mark. -/
def blockScalar (folded : Bool) (indent : Int) (c : Cursor) : Scanned (String × Cursor) := do
  let (ending, inc, c) ← blockHead c.next
  let c := c.skipSpaces.skipComment
  if !isBreakEnd c.here then fail
  else
    let c := c.lineBreak.2
    let least := (max (indent + 1) 1).toNat
    let (breaks, column, c) := match inc with
      | none =>
        let (breaks, deepest, c) := leadingLines (c.rest.length + 1) 0 c
        (breaks, max least deepest, c)
      | some n =>
        let column := least + n - 1
        let (breaks, c) := blockBreaks column (c.rest.length + 1) c
        (breaks, column, c)
    let (body, last, breaks, c) := blockLines folded column (c.rest.length + 1) breaks [] c
    let tail := match ending with
      | .strip => []
      | .clip => last
      | .keep => last ++ breaks
    .ok (String.ofList (body ++ tail), c)

/-- Blanks inside a plain scalar: what they stand for, the cursor behind them, and whether a line
ended. Nothing stands for blanks in front of a document separator. -/
def plainBreaks : (fuel : Nat) → Cursor → Option (List Char) × Cursor
  | 0, c => (some [], c)
  | fuel + 1, c =>
    if c.here = ' ' then plainBreaks fuel c.next
    else if isBreak c.here then
      let (b, c) := c.lineBreak
      if c.atSeparator then (none, c)
      else match plainBreaks fuel c with
        | (some more, c) => (some (b ++ more), c)
        | (none, c) => (none, c)
    else (some [], c)

/-- Blanks behind a piece of a plain scalar. -/
def plainSpaces (c : Cursor) : List Char × Bool × Cursor :=
  let (whites, c) := c.span (· = ' ')
  if isBreak c.here then
    let (b, c) := c.lineBreak
    if c.atSeparator then ([], true, c)
    else match plainBreaks (c.rest.length + 1) c with
      | (some more, c) => (foldedBreak b more, true, c)
      | (none, c) => ([], true, c)
  else (whites, false, c)

/-- How many characters the piece of a plain scalar at the front has. A colon with a blank behind it
ends it, and inside brackets so do the characters that have a meaning there. -/
def plainLength (inFlow : Bool) : List Char → Nat
  | [] => 0
  | c :: rest =>
    let after := rest.headD '\x00'
    if isBlankEnd c
        || (c = ':' && (isBlankEnd after || (inFlow && ",[]\x7b\x7d".toList.contains after)))
        || (inFlow && ",?[]\x7b\x7d".toList.contains c) then 0
    else plainLength inFlow rest + 1

/-- A plain scalar: its text, the cursor behind it, and whether a key may start there. `spaces`
stand between the piece before and the next. -/
def plainPieces (inFlow : Bool) (indent : Int) :
    (fuel : Nat) → (spaces : List Char) → (keyAllowed : Bool) → Cursor → List Char × Bool × Cursor
  | 0, _, keyAllowed, c => ([], keyAllowed, c)
  | fuel + 1, spaces, keyAllowed, c =>
    if c.here = '#' then ([], keyAllowed, c)
    else
      let n := plainLength inFlow c.rest
      if n = 0 then ([], keyAllowed, c)
      else
        let piece := spaces ++ c.rest.take n
        let (spaces', ended, c) := plainSpaces (c.forward n)
        if spaces'.isEmpty || c.here = '#' || (!inFlow && (c.column : Int) < indent) then
          (piece, ended, c)
        else
          let (more, keyAllowed, c) := plainPieces inFlow indent fuel spaces' ended c
          (piece ++ more, keyAllowed, c)

/-! ### One token after the other -/

/-- Behind spaces, comments and line breaks. Outside of brackets a key may start on a new line. -/
def skipToToken : (fuel : Nat) → Scan → Scan
  | 0, s => s
  | fuel + 1, s =>
    let c := s.cursor.skipSpaces.skipComment
    if isBreak c.here then
      skipToToken fuel
        { s with cursor := c.lineBreak.2, keyAllowed := s.keyAllowed || s.flowLevel = 0 }
    else { s with cursor := c }

/-- A start or end mark of a document. -/
def documentMark (s : Scan) (t : Token) : Scanned Scan := do
  let s ← (s.unwind (-1)).dropPending
  .ok { s.push t with keyAllowed := false, cursor := s.cursor.forward 3 }

/-- An opening bracket. -/
def flowStart (s : Scan) (t : Token) : Scanned Scan := do
  let s ← s.savePending
  .ok { s.push t with flowLevel := s.flowLevel + 1, keyAllowed := true, cursor := s.cursor.next }

/-- A closing bracket. -/
def flowEnd (s : Scan) (t : Token) : Scanned Scan := do
  let s ← s.dropPending
  .ok { s.push t with flowLevel := s.flowLevel - 1, keyAllowed := false, cursor := s.cursor.next }

/-- A comma. -/
def flowEntry (s : Scan) : Scanned Scan := do
  let s ← { s with keyAllowed := true }.dropPending
  .ok { s.push .flowEntry with cursor := s.cursor.next }

/-- Starts a block collection at the cursor with the given token, if it is indented deeper. -/
def openBlock (s : Scan) (t : Token) : Scan :=
  match s.indentTo s.column with
  | (true, s) => s.push t
  | (false, s) => s

/-- A hyphen that starts an item. -/
def blockEntry (s : Scan) : Scanned Scan :=
  if s.flowLevel = 0 ∧ !s.keyAllowed then fail
  else do
    let s := if s.flowLevel = 0 then s.openBlock .blockSequenceStart else s
    let s ← { s with keyAllowed := true }.dropPending
    .ok { s.push .blockEntry with cursor := s.cursor.next }

/-- A question mark that starts a key. -/
def explicitKey (s : Scan) : Scanned Scan :=
  if s.flowLevel = 0 ∧ !s.keyAllowed then fail
  else do
    let s := if s.flowLevel = 0 then s.openBlock .blockMappingStart else s
    let s ← { s with keyAllowed := s.flowLevel = 0 }.dropPending
    .ok { s.push .key with cursor := s.cursor.next }

/-- Puts tokens in front of the token with the given number. -/
def insertAt (tokens : Array Token) (n : Nat) (new : List Token) : Array Token :=
  (tokens.toList.take n ++ new ++ tokens.toList.drop n).toArray

/-- A colon: the pending key of this depth becomes a key, and if there is none, the key was an
explicit one or is missing. -/
def valueMark (s : Scan) : Scanned Scan := do
  let s ← match s.pending.find? fun p => p.1 = s.flowLevel with
    | some (_, found) =>
      let s := { s with pending := s.pending.filter fun p => p.1 ≠ s.flowLevel }
      let (opened, s) := if s.flowLevel = 0 then s.indentTo found.column else (false, s)
      let new := if opened then [Token.blockMappingStart, .key] else [.key]
      .ok { s with tokens := insertAt s.tokens found.tokenNumber new, keyAllowed := false }
    | none =>
      if s.flowLevel = 0 ∧ !s.keyAllowed then fail
      else
        let s := if s.flowLevel = 0 then s.openBlock .blockMappingStart else s
        { s with keyAllowed := s.flowLevel = 0 }.dropPending
  .ok { s.push .value with cursor := s.cursor.next }

/-- A token that may be a key and behind which no key starts. -/
def keyLike (s : Scan) (read : Cursor → Scanned (Token × Cursor)) : Scanned Scan := do
  let s ← s.savePending
  let (t, c) ← read s.cursor
  .ok { s.push t with keyAllowed := false, cursor := c }

/-- A block scalar; a key may follow it. -/
def blockText (s : Scan) (folded : Bool) : Scanned Scan := do
  let s ← { s with keyAllowed := true }.dropPending
  let (text, c) ← blockScalar folded s.indent s.cursor
  .ok { s.push (.scalar text false) with cursor := c }

/-- A plain scalar; a key may follow it on a new line. -/
def plainText (s : Scan) : Scanned Scan := do
  let s ← s.savePending
  let c := s.cursor
  let (cs, keyAllowed, c) :=
    plainPieces (s.flowLevel ≠ 0) (s.indent + 1) (c.rest.length + 1) [] false c
  .ok { s.push (.scalar (String.ofList cs) true) with keyAllowed := keyAllowed, cursor := c }

/-- Whether a plain scalar can start here. -/
def plainStarts (s : Scan) : Bool :=
  let ch := s.cursor.here
  let special := "-?:,[]\x7b\x7d#&*!|>'\"%@\x60".toList.contains ch
  (!isBlankEnd ch && !special)
    || (!isBlankEnd (s.cursor.peek 1) && (ch = '-' || (s.flowLevel = 0 && (ch = '?' || ch = ':'))))

/-- Whether the mark at the cursor counts: always inside brackets, elsewhere if a blank follows. -/
def markCounts (s : Scan) : Bool := s.flowLevel ≠ 0 || isBlankEnd (s.cursor.peek 1)

/-- One step: `true` with the state behind the end of the text. -/
def step (s : Scan) : Scanned (Bool × Scan) := do
  let s := skipToToken (s.cursor.rest.length + 1) s
  let s ← s.dropStale
  let s := s.unwind s.column
  let c := s.cursor
  let more (r : Scanned Scan) : Scanned (Bool × Scan) := r.map fun s => (false, s)
  if c.rest.isEmpty then
    let s ← (s.unwind (-1)).dropPending
    .ok (true, s.push .streamEnd)
  else if c.here = '%' ∧ c.column = 0 then
    let s ← (s.unwind (-1)).dropPending
    let (t, c) ← directive c.next
    .ok (false, { s.push t with keyAllowed := false, cursor := c })
  else if c.column = 0 ∧ c.hasMark '-' then more (s.documentMark .documentStart)
  else if c.column = 0 ∧ c.hasMark '.' then more (s.documentMark .documentEnd)
  else match c.here with
    | '[' => more (s.flowStart .flowSequenceStart)
    | '{' => more (s.flowStart .flowMappingStart)
    | ']' => more (s.flowEnd .flowSequenceEnd)
    | '}' => more (s.flowEnd .flowMappingEnd)
    | ',' => more s.flowEntry
    | '*' => more (s.keyLike fun c => (anchorName c.next).map fun r => (.alias r.1, r.2))
    | '&' => more (s.keyLike fun c => (anchorName c.next).map fun r => (.anchor r.1, r.2))
    | '!' => more (s.keyLike fun c => (writtenTag c).map fun r => (.tag r.1, r.2))
    | '\'' => more (s.keyLike fun c => (quotedScalar false c).map fun r => (.scalar r.1 false, r.2))
    | '"' => more (s.keyLike fun c => (quotedScalar true c).map fun r => (.scalar r.1 false, r.2))
    | ch =>
      if ch = '-' ∧ isBlankEnd (c.peek 1) then more s.blockEntry
      else if ch = '?' ∧ s.markCounts then more s.explicitKey
      else if ch = ':' ∧ s.markCounts then more s.valueMark
      else if ch = '|' ∧ s.flowLevel = 0 then more (s.blockText false)
      else if ch = '>' ∧ s.flowLevel = 0 then more (s.blockText true)
      else if s.plainStarts then more s.plainText
      else fail

/-- All steps. -/
def run : (fuel : Nat) → Scan → Scanned (Array Token)
  | 0, _ => fail
  | fuel + 1, s => do
    let (ended, s) ← s.step
    if ended then .ok s.tokens else run fuel s

/-- The state in front of the first token. A byte-order mark is passed over. -/
def start (cs : List Char) : Scan :=
  let c := Cursor.ofList cs
  { cursor := if c.here = '\ufeff' then c.next else c
    tokens := #[], flowLevel := 0, indent := -1, indents := [], keyAllowed := true, pending := [] }

end Scan

/-- The tokens of a text. -/
def scan (s : String) : Except Problem (List Token) :=
  let cs := s.toList
  if cs.all isAllowed then (Scan.run (cs.length + 2) (Scan.start cs)).map Array.toList
  else .error .malformed

end Token

end Choicebook.Yaml
