import Choicebook.Editor.Buffer
import Choicebook.Files.Tree
import Choicebook.Session.Call

/-!
# The console

A `Console` is a host in a terminal: it prints, reads lines, has a text buffer as its editor, and
works on files. Its state says what will be typed, so that a session in a console is a function like
any other.

All access to files goes through `Console.visit`, which keeps the paths. So one who holds only a
part of the files can see which paths a session depends on.

A command of the host is one of three for the buffer, or a function. Functions are called without
arguments, so they reach nothing: the host they run in is `Console.bare`.
-/

namespace Choicebook

/-- A command that a console knows. -/
inductive ConsoleCommand where
  | printBuffer
  | printClipboard
  /-- Empties the text of the buffer. The cursor and the selection stay where they are. -/
  | clearBuffer
  | script (f : Value)

/-- The state of a console. -/
structure Console where
  today : Date
  /-- Where relative paths start, those of scripts too. -/
  root : Files.Path
  tree : Files.Tree
  buffer : Buffer
  /-- The commands by their ids; of two with the same id the first one counts. -/
  commands : List (String × ConsoleCommand)
  /-- The lines to come. Nothing instead of a line is an end of the input. -/
  lines : List (Option String)
  /-- Whether prompts are printed; otherwise they are events. -/
  printsPrompts : Bool
  output : String
  errors : String
  opened : List String
  visited : List Files.Path
  /-- Whether a line was asked for when there was none left. -/
  isStarved : Bool

namespace Console

/-- The commands that all consoles have. -/
def builtIn : List (String × ConsoleCommand) :=
  [("editor:print-buffer", .printBuffer), ("editor:print-clipboard", .printClipboard),
   ("editor:clear-buffer", .clearBuffer)]

/-- A console that has not done anything yet. -/
def start (today : Date) (root : Files.Path) (tree : Files.Tree) (lines : List (Option String))
    (printsPrompts : Bool) : Console :=
  { today := today, root := root, tree := tree, buffer := .start "" 0, commands := builtIn
    lines := lines, printsPrompts := printsPrompts, output := "", errors := "", opened := []
    visited := [], isStarved := false }

/-- Changes the state of the console. -/
def change (f : Console → Console) : Act Console Unit :=
  modify fun s => { s with host := f s.host }

/-- Prints a text. -/
def print (text : String) : Act Console Unit :=
  change fun c => { c with output := c.output ++ text }

/-- Prints a line. -/
def printLine (text : String) : Act Console Unit := print (text ++ "\n")

/-- Prints a line among the errors. -/
def printError (text : String) : Act Console Unit :=
  change fun c => { c with errors := c.errors ++ text ++ "\n" }

/-- Takes the next line; nothing at the end of the input. -/
def nextLine : Act Console (Option String) := do
  match (← get).host.lines with
  | [] =>
    change fun c => { c with isStarved := true }
    return none
  | line :: rest =>
    change fun c => { c with lines := rest }
    return line

/-- Reads a line behind a prompt; nothing at the end of the input. -/
def readLine (prompt : String) : Act Console (Option String) := do
  if (← get).host.printsPrompts then print prompt else Act.note (.read prompt)
  nextLine

/-! ### Selections and prompts -/

/-- The position that an answer selects: a number counts from one, and a label stands for its first
occurrence. -/
def chosen? (labels : List Value) (count : Nat) (answer : String) : Except Fault (Option Nat) := do
  let number ← Value.position? answer
  match number.filter fun n => 1 ≤ n && n ≤ count with
  | some n => .ok (some (n - 1))
  | none =>
    match labels.findIdx? fun l => l.same (.text answer) with
    | none => .ok none
    | some i => if i < count then .ok (some i) else .error (.misuse .missingIndex)

/-- What comes of a line that answers: an empty one and `q` give up, and after one that selects
nothing the console asks again. -/
def onAnswer (labels : List Value) (count : Nat) (askAgain : Act Console (Option Nat))
    (line : Option String) : Act Console (Option Nat) := do
  let answer := Text.trim (line.getD "")
  if answer = "" || answer = "q" then return none
  else
    match ← Act.lift (chosen? labels count answer) with
    | some i => return some i
    | none =>
      printLine ("Invalid selection: " ++ answer)
      askAgain

/-- Asks until the answer selects something or gives up. -/
def askUntilChosen (labels : List Value) (count : Nat) : (fuel : Nat) → Act Console (Option Nat)
  | 0 => return none
  | fuel + 1 => do onAnswer labels count (askUntilChosen labels count fuel) (← readLine "> ")

/-- Prints a numbered list, with a line before it unless that is empty. -/
def showItems (labels : List Value) (placeholder : Value) : Act Console Unit := do
  if placeholder.isTruthy then printLine placeholder.display
  for (label, i) in labels.zipIdx do
    printLine ("  " ++ toString (i + 1) ++ ". " ++ label.display)

/-- Lets the user select from a numbered list. Every answer takes a line, so the lines bound how
often the console asks. -/
def suggest (labels : List Value) (count : Nat) (placeholder : Value) :
    Act Console (Option Nat) := do
  showItems labels placeholder
  askUntilChosen labels count ((← get).host.lines.length + 1)

/-- Asks for a text. An empty answer stands for the preset. -/
def prompt (header : String) (preset : Option String) : Act Console (Option Value) := do
  let preset := preset.getD ""
  let offer := if preset = "" then "" else " [" ++ preset ++ "]"
  match ← readLine (header ++ offer ++ ": ") with
  | none => return none
  | some answer => return some (.text (if answer = "" then preset else answer))

/-- Asks for a text. The end of the input is a cancellation. -/
def require (header : String) : Act Console String := do
  match ← readLine (header ++ ": ") with
  | some answer => return answer
  | none => throw .inputCancelled

/-! ### Files -/

/-- The files as they are now, for a look at a path. -/
def visit (p : Files.Path) : Act Console Files.Tree := do
  change fun c => { c with visited := p :: c.visited }
  return (← get).host.tree

/-- Whether a path leads to a file. -/
def isFile (p : Files.Path) : Act Console Bool := return (← visit p).isFile p

/-- Whether a path leads to anything. -/
def holds (p : Files.Path) : Act Console Bool := return (← visit p).holds p

/-- The text of a file. -/
def readText (p : Files.Path) : Act Console String := do
  Act.lift ((← visit p).readText p)

/-- The content of a file. -/
def readRaw (p : Files.Path) : Act Console Value := do
  Act.lift ((← visit p).readRaw p)

/-- Makes the directory of a file. -/
def makeDirectory (p : Files.Path) : Act Console Unit := do
  let tree ← Act.lift ((← visit p).withDirectory p.parent)
  change fun c => { c with tree := tree }

/-- Writes a file; its directory has to be there. -/
def writeText (p : Files.Path) (text : String) : Act Console Unit := do
  let tree ← Act.lift ((← visit p).writeText p text)
  change fun c => { c with tree := tree }

/-- A path behind the home directory that it starts with, if it starts with one; there has to be
such a directory. -/
def atHome (p : Files.Path) : Act Console (Option Files.Path) := do
  match p.homeOf? with
  | none => return some p
  | some user =>
    return ((← get).host.tree.homes.lookup user).map fun home => ⟨.root, home ++ p.names.tail⟩

/-- The path that a text spells, as seen from the root. -/
def resolve (text : String) : Act Console Files.Path := do
  match ← atHome (.ofText text) with
  | some p => return (← get).host.root.join p
  | none => throw (.misuse .missingHome)

/-- Opens a file. -/
def openPath (path : String) : Act Console Unit := do
  change fun c => { c with opened := c.opened ++ [path] }
  printLine ("open " ++ path)

/-! ### Editor and commands -/

/-- Does an action of the editor. -/
def edit (action : EditorAction) : Act Console Unit := do
  let (buffer, warning) := (← get).host.buffer.apply action
  change fun c => { c with buffer := buffer }
  match warning with
  | some w => Act.logWarning w
  | none => return ()

/-- The name of a console as a host. -/
def hostName : String := "ConsoleHost"

/-- A host that offers nothing. -/
def bare : Host Console where
  name := hostName
  runCommand id := throw (.unknownHostCommand id)
  suggest _ _ _ := return none
  patience _ := 0
  edit _ := return ()
  runTemplate _ _ := return ()
  runCapture _ _ := return ()
  loadScript _ := return .null
  prompt _ _ := throw (.cannotPrompt hostName)
  runAssistant _ _ _ := throw (.noAssistant hostName)
  openFile _ _ _ := throw (.cannotOpenFiles hostName)
  notify _ := return ()
  skipsPauses := true

/-- Runs a command by its id. -/
def runCommand (id : String) : Act Console Unit := do
  let c := (← get).host
  match c.commands.lookup id with
  | none => throw (.unknownHostCommand id)
  | some .printBuffer => printLine (String.ofList c.buffer.text)
  | some .printClipboard => printLine (String.ofList c.buffer.clipboard)
  | some .clearBuffer => change fun c => { c with buffer := { c.buffer with text := [] } }
  | some (.script f) =>
    let _ ← Act.aside (f.call bare (fun _ => return ()) .none)
    return ()

end Console

end Choicebook
