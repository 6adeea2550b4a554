import Choicebook.Choice.Writer
import Choicebook.Text.Digit
import Choicebook.Text.Search

/-!
# The options of the command line

A command line names a document, perhaps a choice, and flags. `Options.ofArguments` reads it in two
steps: each argument becomes a `Word`, and the words are scanned from left to right.

A flag may be shortened as long as only one flag starts that way, its value may follow an equals
sign, and flags of one letter may share a dash. Behind a double dash everything is plain. The choice
has to follow the document directly, with nothing but a double dash between them.
-/

namespace Choicebook

/-- What the command line asks for. -/
structure Options where
  document : String
  choice : String
  /-- A reference to a macro, or to a member of its script. -/
  reference : String
  wantsListing : Bool
  wantsDump : Bool
  /-- Variables with their values, an equals sign between the two. -/
  vars : List String
  skipsStartup : Bool
  isVerbose : Bool
  deriving DecidableEq, Repr

namespace Options

/-- Nothing asked for. -/
def preset : Options := ⟨"", "", "", false, false, [], false, false⟩

/-- A flag. -/
inductive Flag where
  | help
  | reference
  | listing
  | dump
  | setVariable
  | skipStartup
  | verbose
  deriving DecidableEq, Repr

namespace Flag

/-- The spellings of the flags. -/
def spellings : List (String × Flag) :=
  [("-h", help), ("--help", help), ("--macro", reference), ("--list", listing), ("--dump", dump),
   ("--var", setVariable), ("--no-startup", skipStartup), ("-v", verbose), ("--verbose", verbose)]

/-- Whether a flag has a value. -/
def takesValue : Flag → Bool
  | reference | setVariable => true
  | _ => false

end Flag

/-- Why a command line does not lead to a run. -/
inductive Refusal where
  | wantsHelp
  | malformed
  deriving DecidableEq, Repr

/-! ### Words -/

/-- What an argument is. -/
inductive Word where
  | plain (s : String)
  /-- The double dash. -/
  | divider
  /-- A flag, and the value that stands in the same argument. -/
  | flag (f : Flag) (value : Option String)
  /-- Flags of one letter that share a dash, and whether all the letters are known. -/
  | letters (fs : List Flag) (isComplete : Bool)
  | unknown
  /-- A flag with a value that it does not take. -/
  | misused
  deriving DecidableEq, Repr

/-- What stands before the first equals sign, and what stands behind it if there is one. -/
def splitAtEquals (s : String) : String × Option String :=
  let before := s.toList.takeWhile (· ≠ '=')
  match s.toList.drop before.length with
  | [] => (s, none)
  | _ :: value => (String.ofList before, some (String.ofList value))

/-- Whether a text spells a number below zero. -/
def isNegativeNumber (s : String) : Bool :=
  let isDigit (c : Char) : Bool := (Text.digitValue c).isSome
  match s.toList with
  | '-' :: cs =>
    match cs.dropWhile isDigit with
    | [] => !cs.isEmpty
    | '.' :: rest => !rest.isEmpty && rest.all isDigit
    | _ => false
  | _ => false

/-- Letters behind a flag of one letter, up to one that is not known. -/
def moreLetters (done : List Flag) : List Char → Word
  | [] => .letters done true
  | '-' :: _ => .misused
  | c :: cs =>
    match Flag.spellings.lookup (String.ofList ['-', c]) with
    | none => .letters done false
    | some f => if cs.head? = some '=' then .misused else moreLetters (done ++ [f]) cs

/-- A flag with the value behind an equals sign. -/
def withValue (f : Flag) (value : String) : Word :=
  if f.takesValue then .flag f (some value) else .misused

/-- An argument that starts with a dash and spells no flag in full. -/
def abbreviation (s : String) : Except Refusal Word :=
  let (name, value) := splitAtEquals s
  let other : Word :=
    if isNegativeNumber s || Text.contains s " " then .plain s else .unknown
  match value, Flag.spellings.lookup name with
  | some v, some f => .ok (withValue f v)
  | _, _ =>
    if Text.startsWith s "--" then
      match Flag.spellings.filter fun e => Text.startsWith e.1 name with
      | [] => .ok other
      | [(_, f)] =>
        match value with
        | some v => .ok (withValue f v)
        | none => .ok (.flag f none)
      | _ => .error .malformed
    else
      match Flag.spellings.lookup (String.ofList (s.toList.take 2)) with
      | some f => .ok (moreLetters [f] (s.toList.drop 2))
      | none => .ok other

/-- What an argument in front of the double dash is. -/
def word (s : String) : Except Refusal Word :=
  if !Text.startsWith s "-" || s = "-" then .ok (.plain s)
  else match Flag.spellings.lookup s with
    | some f => .ok (.flag f none)
    | none => abbreviation s

/-- What the arguments are. -/
def words : List String → Except Refusal (List Word)
  | [] => .ok []
  | s :: rest =>
    if s = "--" then .ok (.divider :: rest.map .plain)
    else do
      let w ← word s
      let ws ← words rest
      .ok (w :: ws)

/-! ### Scanning -/

/-- How far the document and the choice have been found. -/
inductive Stage where
  | start
  /-- Right behind the document. -/
  | named
  /-- Right behind the choice. -/
  | chosen
  | closed
  deriving DecidableEq, Repr

/-- The state of scanning. -/
structure Scan where
  options : Options
  stage : Stage
  /-- Whether there was a word that nothing has a use for. -/
  hasSurplus : Bool

namespace Scan

/-- Takes a plain word. In the place of the choice a double dash stands for none. -/
def plain (s : Scan) (text : String) : Scan :=
  match s.stage with
  | .start => { s with options := { s.options with document := text }, stage := .named }
  | .named =>
    let choice := if text = "--" then "" else text
    { s with options := { s.options with choice := choice }, stage := .chosen }
  | .chosen | .closed => { s with stage := .closed, hasSurplus := true }

/-- Takes the double dash. -/
def divider (s : Scan) : Scan :=
  match s.stage with
  | .closed => { s with hasSurplus := true }
  | _ => s

/-- Goes past a flag. The document and the choice cannot be on different sides of it. -/
def pastFlag (s : Scan) : Scan :=
  if s.stage = .start then s else { s with stage := .closed }

/-- Goes past a word that nothing has a use for. -/
def surplus (s : Scan) : Scan := { s.pastFlag with hasSurplus := true }

/-- Takes a flag. -/
def flag (s : Scan) (f : Flag) (value : String) : Except Refusal Scan :=
  let o := s.options
  let s := s.pastFlag
  match f with
  | .help => .error .wantsHelp
  | .reference => .ok { s with options := { o with reference := value } }
  | .listing => .ok { s with options := { o with wantsListing := true } }
  | .dump => .ok { s with options := { o with wantsDump := true } }
  | .setVariable => .ok { s with options := { o with vars := o.vars ++ [value] } }
  | .skipStartup => .ok { s with options := { o with skipsStartup := true } }
  | .verbose => .ok { s with options := { o with isVerbose := true } }

/-- Scans the words. -/
def run (s : Scan) : List Word → Except Refusal Scan
  | [] => .ok s
  | .plain text :: rest => (s.plain text).run rest
  | .divider :: rest => s.divider.run rest
  | .unknown :: rest => s.surplus.run rest
  | .misused :: _ => .error .malformed
  | .letters fs isComplete :: rest => do
    let t ← fs.foldlM (fun s f => s.flag f "") s
    (if isComplete then t else t.surplus).run rest
  | .flag f (some value) :: rest => do (← s.flag f value).run rest
  | .flag f none :: rest => do
    if f.takesValue then
      match rest with
      | .plain value :: rest => (← s.flag f value).run rest
      | _ => .error .malformed
    else (← s.flag f "").run rest

end Scan

/-- The options that the arguments spell. -/
def ofArguments (arguments : List String) : Except Refusal Options := do
  let s ← Scan.run ⟨preset, .start, false⟩ (← words arguments)
  if s.stage = .start || s.hasSurplus then .error .malformed else .ok s.options

/-- What the command line can be. -/
def usage : String :=
  "usage: choicebook [-h] [--macro NAME] [--list] [--dump] [--var KEY=VALUE] [--no-startup] [-v]"
    ++ " document [choice]"

/-! ### Variables -/

/-- The variables that texts set, a name before the first equals sign and a value behind it. -/
def variablesOf (texts : List String) : Except Fault Entries :=
  texts.foldlM
    (fun (m : Entries) text =>
      match splitAtEquals text with
      | (name, some value) =>
        if Text.trim name = "" then .error (.malformedVariable (Text.quoted text))
        else .ok (m.insert (.text (Text.trim name)) (.text value))
      | (_, none) => .error (.malformedVariable (Text.quoted text))) []

end Options

end Choicebook
