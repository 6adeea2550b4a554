import Choicebook.Calendar
import Choicebook.Json.Reader
import Choicebook.Text.Search

/-!
# TOML scalars

Texts in their four forms, numbers, dates and times. Each reader takes the characters from the first
character of the scalar on, and gives the value and what follows it.
-/

namespace Choicebook.Toml

/-- A reader of the front of a text. -/
abbrev Reader (α : Type) := List Char → Option (α × List Char)

/-- A space or a tab. -/
def isSpace (c : Char) : Bool := c = ' ' || c = '\t'

/-- Behind spaces and tabs. -/
def skipSpaces (cs : List Char) : List Char := cs.dropWhile isSpace

/-- A control character that may stand nowhere; tabs are allowed. -/
def isControl (c : Char) : Bool := (c.toNat < 32 && c ≠ '\t') || c.toNat = 127

/-! ### Texts -/

/-- The characters that one-letter escapes stand for. -/
def escapes : List (Char × Char) :=
  [('b', '\x08'), ('t', '\t'), ('n', '\n'), ('f', '\x0c'), ('r', '\r'), ('"', '"'), ('\\', '\\')]

/-- A character by number. -/
def numbered? (width : Nat) : Reader Char := fun cs => do
  let ds ← (cs.take width).mapM Json.hexValue?
  if ds.length < width then none
  else
    let n := ds.foldl (fun n d => 16 * n + d) 0
    if n < 0xD800 ∨ (0xE000 ≤ n ∧ n ≤ 0x10FFFF) then some (Char.ofNat n, cs.drop width) else none

/-- What a backslash at the end of a line hides: blanks and line breaks up to the next character.
Blanks may stand between the backslash and the line break. -/
def lineEnd? (cs : List Char) : Option (List Char) :=
  let blank (c : Char) : Bool := isSpace c || c = '\n'
  match cs with
  | c :: rest =>
    if c = '\n' then some (rest.dropWhile blank)
    else if isSpace c then
      match skipSpaces rest with
      | '\n' :: rest => some (rest.dropWhile blank)
      | [] => some []
      | _ => none
    else none
  | [] => none

/-- What an escape stands for, after its backslash. -/
def escape? (multiline : Bool) : Reader (List Char) := fun cs =>
  match (if multiline then lineEnd? cs else none) with
  | some rest => some ([], rest)
  | none =>
    match cs with
    | 'u' :: rest => (numbered? 4 rest).map fun r => ([r.1], r.2)
    | 'U' :: rest => (numbered? 8 rest).map fun r => ([r.1], r.2)
    | c :: rest => (escapes.lookup c).map fun d => ([d], rest)
    | [] => none

/-- A text with escapes, after its opening quote; `acc` holds in reverse what has been read. -/
def escaped? (multiline : Bool) : (fuel : Nat) → (acc : List Char) → Reader (List Char)
  | 0, _, _ => none
  | _, _, [] => none
  | fuel + 1, acc, c :: cs =>
    if c = '"' then
      if !multiline then some (acc.reverse, cs)
      else match cs with
        | '"' :: '"' :: rest => some (acc.reverse, rest)
        | _ => escaped? multiline fuel ('"' :: acc) cs
    else if c = '\\' then
      match escape? multiline cs with
      | some (piece, rest) => escaped? multiline fuel (piece.reverse ++ acc) rest
      | none => none
    else if isControl c && !(multiline && c = '\n') then none
    else escaped? multiline fuel (c :: acc) cs

/-- A text without escapes on one line, after its opening quote. -/
def literal? (acc : List Char) : Reader (List Char)
  | [] => none
  | c :: cs =>
    if c = '\'' then some (acc.reverse, cs)
    else if isControl c then none
    else literal? (c :: acc) cs

/-- A text without escapes on several lines, after its opening quotes. -/
def longLiteral? (acc : List Char) : Reader (List Char)
  | [] => none
  | '\'' :: '\'' :: '\'' :: cs => some (acc.reverse, cs)
  | c :: cs => if isControl c && c ≠ '\n' then none else longLiteral? (c :: acc) cs

/-- One or two quotes behind the three that end a text belong to the text. -/
def extraQuotes (quote : Char) (text : List Char) : List Char → List Char × List Char
  | c :: d :: cs =>
    if c ≠ quote then (text, c :: d :: cs)
    else if d = quote then (text ++ [quote, quote], cs)
    else (text ++ [quote], d :: cs)
  | [c] => if c = quote then (text ++ [quote], []) else (text, [c])
  | [] => (text, [])

/-- Without a line break at the very front. -/
def dropNewline : List Char → List Char
  | '\n' :: cs => cs
  | cs => cs

/-- A text on one line, at its opening quote. -/
def lineText? : Reader String := fun cs =>
  match cs with
  | '"' :: rest => (escaped? false (rest.length + 1) [] rest).map fun r => (String.ofList r.1, r.2)
  | '\'' :: rest => (literal? [] rest).map fun r => (String.ofList r.1, r.2)
  | _ => none

/-- A text, at its opening quote. -/
def text? : Reader String := fun cs =>
  let long (quote : Char) (r : Option (List Char × List Char)) : Option (String × List Char) :=
    r.map fun (body, rest) =>
      let (body, rest) := extraQuotes quote body rest
      (String.ofList body, rest)
  match cs with
  | '"' :: '"' :: '"' :: rest =>
    let rest := dropNewline rest
    long '"' (escaped? true (rest.length + 1) [] rest)
  | '\'' :: '\'' :: '\'' :: rest => long '\'' (longLiteral? [] (dropNewline rest))
  | _ => lineText? cs

/-! ### Numbers -/

/-- Digits of a kind, with single underscores between them. -/
def digits? (isDigit : Char → Bool) : List Char → Option (List Char × List Char)
  | c :: '_' :: d :: cs =>
    if !isDigit c then none
    else if isDigit d then (digits? isDigit (d :: cs)).map fun r => (c :: r.1, r.2)
    else some ([c], '_' :: d :: cs)
  | c :: d :: cs =>
    if !isDigit c then none
    else if isDigit d then (digits? isDigit (d :: cs)).map fun r => (c :: r.1, r.2)
    else some ([c], d :: cs)
  | [c] => if isDigit c then some ([c], []) else none
  | [] => none

/-- A whole number in base 16, 2 or 8, after the mark of its base. -/
def inBase? (base : Nat) : Reader Value := fun cs => do
  let below (c : Char) : Bool := (Json.hexValue? c).any (· < base)
  let (ds, rest) ← digits? below cs
  some (.int (ds.foldl (fun n d => base * n + (Json.hexValue? d).getD 0) (0 : Nat)), rest)

/-- The whole part of a decimal number: a zero alone, or digits that do not begin with one. -/
def whole? (cs : List Char) : Option (List Char × List Char) :=
  match cs with
  | '0' :: rest => some (['0'], rest)
  | _ => digits? Char.isDigit cs

/-- The digits behind a point, if there are any. -/
def fraction (cs : List Char) : Option (List Char) × List Char :=
  match cs with
  | '.' :: rest =>
    match digits? Char.isDigit rest with
    | some (ds, rest) => (some ds, rest)
    | none => (none, cs)
  | _ => (none, cs)

/-- An exponent, if there is one. -/
def exponent (cs : List Char) : Option Int × List Char :=
  match cs with
  | e :: rest =>
    if e = 'e' ∨ e = 'E' then
      let (negative, digits) := Number.readSign rest
      match digits? Char.isDigit digits with
      | some (ds, rest) => (some (if negative then -(Json.natOf ds : Int) else Json.natOf ds), rest)
      | none => (none, cs)
    else (none, cs)
  | [] => (none, cs)

/-- A decimal number. -/
def decimal? : Reader Value := fun cs => do
  let (negative, unsigned) := Number.readSign cs
  let (ds, rest) ← whole? unsigned
  let (fs, rest) := fraction rest
  let (x, rest) := exponent rest
  if fs.isNone && x.isNone then
    some (.int (if negative then -(Json.natOf ds : Int) else Json.natOf ds), rest)
  else
    let fs := fs.getD []
    some (.float (Double.ofDecimal negative (Json.natOf (ds ++ fs)) (x.getD 0 - fs.length)), rest)

/-- A number of any form. -/
def number? : Reader Value := fun cs =>
  let based := match cs with
    | '0' :: 'x' :: rest => inBase? 16 rest
    | '0' :: 'b' :: rest => inBase? 2 rest
    | '0' :: 'o' :: rest => inBase? 8 rest
    | _ => none
  based.orElse fun _ => decimal? cs

/-- An infinity, or not a number. -/
def special? : Reader Value := fun cs =>
  let (negative, unsigned) := Number.readSign cs
  match unsigned with
  | 'i' :: 'n' :: 'f' :: rest => some (.float (.infinite negative), rest)
  | 'n' :: 'a' :: 'n' :: rest => some (.float .nan, rest)
  | _ => none

/-! ### Dates and times -/

/-- Two digits for a number within bounds. -/
def twoDigits? (least greatest : Nat) : Reader Nat := fun cs => do
  let (n, rest) ← Calendar.digits? 2 cs
  if least ≤ n ∧ n ≤ greatest then some (n, rest) else none

/-- A time of day without offset. Of a fraction only six digits count. -/
def time? : Reader ClockTime := fun cs => do
  let (h, cs) ← twoDigits? 0 23 cs
  let cs ← Calendar.mark? ':' cs
  let (m, cs) ← twoDigits? 0 59 cs
  let cs ← Calendar.mark? ':' cs
  let (s, cs) ← twoDigits? 0 59 cs
  let ds := match cs with
    | '.' :: rest => rest.takeWhile Char.isDigit
    | _ => []
  let micro := Json.natOf ((ds ++ List.replicate 6 '0').take 6)
  some (⟨h, m, s, micro, none⟩, if ds.isEmpty then cs else cs.drop (ds.length + 1))

/-- An offset from universal time, if there is one. -/
def offset (cs : List Char) : Option Int × List Char :=
  match cs with
  | [] => (none, [])
  | c :: rest =>
    if c = 'Z' ∨ c = 'z' then (some 0, rest)
    else if c = '+' ∨ c = '-' then
      let read : Option (Int × List Char) := do
        let (h, rest) ← twoDigits? 0 23 rest
        let rest ← Calendar.mark? ':' rest
        let (m, rest) ← twoDigits? 0 59 rest
        let distance : Int := (h * 60 + m : Nat)
        some (if c = '-' then -distance else distance, rest)
      match read with
      | some (o, rest) => (some o, rest)
      | none => (none, cs)
    else (none, cs)

/-- The form of a date. -/
def date? : Reader Date := fun cs => do
  let (y, cs) ← Calendar.digits? 4 cs
  let cs ← Calendar.mark? '-' cs
  let (m, cs) ← twoDigits? 1 12 cs
  let cs ← Calendar.mark? '-' cs
  let (d, cs) ← twoDigits? 1 31 cs
  some (⟨y, m, d⟩, cs)

/-- A date or a date with a time; there is none if the text has not the form of a date, and nothing
inside if the calendar has no such date. -/
def dateTime? (cs : List Char) : Option (Option (Value × List Char)) :=
  (date? cs).map fun (d, rest) =>
    if !d.isValid then none
    else
      let timed := match rest with
        | c :: more => if c = 'T' || c = 't' || c = ' ' then time? more else none
        | [] => none
      match timed with
      | some (t, rest) =>
        let (o, rest) := offset rest
        some (.dateTime ⟨d, { t with offset := o }⟩, rest)
      | none => some (.date d, rest)

/-- A scalar that is no text. -/
def scalar? : Reader Value := fun cs =>
  match cs with
  | 't' :: 'r' :: 'u' :: 'e' :: rest => some (.bool true, rest)
  | 'f' :: 'a' :: 'l' :: 's' :: 'e' :: rest => some (.bool false, rest)
  | _ =>
    match dateTime? cs with
    | some r => r
    | none =>
      match time? cs with
      | some (t, rest) => some (.time t, rest)
      | none => (number? cs).orElse fun _ => special? cs

end Choicebook.Toml
