import Choicebook.Console.Basic
import Choicebook.Template.Render

/-!
# Notes from templates and captures

A template choice makes a new file from a template; a capture choice puts a text into a file, which
need not be there yet. Names, places and texts are templates themselves. They see the date of today
and the shared variables, and a few names that only one of them sees.

What renders templates is given from outside.
-/

namespace Choicebook.Console

/-! ### Rendering -/

/-- What renders templates in a console. -/
abbrev Renderer := Template.Renderer (Act Console)

/-- Calls a function that stands in a template. It gets the source of its section, if it has one,
and nothing that leads to a session. -/
def callInTemplate (v : Value) (source : Option String) : Act Console Value :=
  let count := if source.isSome then 1 else 0
  Act.aside do
    match v with
    | .function _ arity steps =>
      match arity.bound? count with
      | none => throw (.misuse .wrongType)
      | some n =>
        (·.getD .null) <$> Call.runSteps bare (fun _ => return ()) ⟨n, false, false, none⟩ steps
    | v => v.call bare (fun _ => return ()) (if count = 0 then .none else .parameters false)

/-- A template in the working directory, empty if there is none. -/
def inclusion (name : String) : Act Console String := do
  let p := Files.Path.ofText (name ++ ".mustache")
  if ← holds p then
    match ← readRaw p with
    | .bytes bs => match Text.decodeUtf8? bs with
      | some cs => return String.ofList cs
      | none => throw (.misuse .undecodable)
    | v => return v.display
  else return ""

variable (r : Renderer)

/-- Renders a template with variables and with names that come before them. -/
def render (template : String) (vars extra : Entries) : Act Console String := do
  let today : Entries := [(.text "date", .text (← get).host.today.iso)]
  r.render ⟨callInTemplate, inclusion⟩ template
    (.map ((today.update vars).update extra))

/-- Renders a template with the shared variables. -/
def renderShared (template : String) (extra : Entries) : Act Console String := do
  render r template (← get).shared extra

/-- The format under a key of the payload, if it is not empty: a text, or the entry `format` of a
mapping that is enabled. -/
def formatOf? (payload : Entries) (key : String) : Option Value :=
  let format : Option Value := match payload.field? key with
    | some (.text s) => some (.text s)
    | some (.map es) =>
      if ((Entries.field? es "enabled").getD .null).isTruthy then Entries.field? es "format"
      else none
    | _ => none
  format.filter Value.isTruthy

/-! ### Templates -/

/-- The first item of a value. -/
def firstOf (v : Value) : Except Fault Value :=
  match v with
  | .list (x :: _) | .tuple (x :: _) => .ok x
  | .text s => .ok (.text (String.ofList (s.toList.take 1)))
  | .bytes (b :: _) => .ok (.int b.toNat)
  | .map es => match Entries.get? es (.int 0) with
    | some w => .ok w
    | none => .error (.misuse .missingKey)
  | _ => .error (.misuse .wrongType)

/-- The folder that a value names, unless it names none. -/
def namedFolder? (folder : Value) : Except Fault (Option String) :=
  if !folder.isTruthy then .ok none
  else match folder with
    | .text s => .ok (some s)
    | _ => .error (.misuse .wrongType)

/-- The folder for a new file, if the payload names one: itself, or as the first of the folders that
are enabled. -/
def folderOf? (payload : Entries) : Except Fault (Option String) := do
  let folder ← match payload.field? "folder" with
    | some (.map es) =>
      let folders := (Entries.field? es "folders").getD .null
      if ((Entries.field? es "enabled").getD .null).isTruthy && folders.isTruthy then
        firstOf folders
      else .ok .null
    | v => .ok (v.getD .null)
  namedFolder? folder

/-- The name for a new file: rendered from its format, or asked for. -/
def givenName (payload : Entries) : Act Console String :=
  match formatOf? payload "fileNameFormat" with
  | some (.text format) => renderShared r format []
  | some _ => throw (.misuse .missingTemplate)
  | none => require "File name"

/-- The name of a new file. Its ending is that of a note. -/
def newFileName (payload : Entries) : Act Console String := do
  let name ← givenName r payload
  return if Text.endsWith name ".md" then name else name ++ ".md"

/-- Where a new file is to be, as seen from the root. -/
def newFilePath (payload : Entries) : Act Console Files.Path := do
  let name ← newFileName r payload
  match ← Act.lift (folderOf? payload) with
  | some folder => resolve ((Files.Path.ofText folder).join (.ofText name)).text
  | none => resolve name

/-- Makes a file from the template at `source`, unless there is one already that is to stay. -/
def createFrom (source target : Files.Path) (owner : String) (payload : Entries) :
    Act Console Unit := do
  let mode := (payload.field? "fileExistsMode").getD .null
  let mayOverwrite := mode.same (.text "Overwrite the file")
  if (← holds target) && !mayOverwrite then
    Act.logWarning ("file '" ++ target.text ++ "' already exists; template choice '" ++ owner
      ++ "' left it alone")
  else
    let body ← renderShared r (← readText source) [(.text "title", .text target.stem)]
    makeDirectory target
    writeText target body
    if ((payload.field? "openFile").getD .null).isTruthy then openPath target.text

/-- The template of a template choice, if there is one. -/
def templateOf? (owner : String) (payload : Entries) : Act Console (Option Files.Path) := do
  let path := (payload.field? "templatePath").getD .null
  if !path.isTruthy then
    Act.logFailure ("template choice '" ++ owner ++ "' has no template path")
    return none
  else match path with
    | .text path =>
      let source ← resolve path
      if ← isFile source then return some source
      else
        Act.logFailure ("template '" ++ path ++ "' for choice '" ++ owner ++ "' does not exist")
        return none
    | _ => throw (.misuse .wrongType)

/-- Runs a template choice. -/
def runTemplate (head : ChoiceHead) (payload : Entries) : Act Console Unit := do
  let owner := head.name.display
  match ← templateOf? owner payload with
  | none => return ()
  | some source => createFrom r source (← newFilePath r payload) owner payload

/-! ### Captures -/

/-- Whether a format has a place for the captured value. -/
def takesValue (format : String) : Bool :=
  Text.contains (String.ofList (format.toList.filter (· ≠ ' '))) "\x7b\x7bvalue\x7d\x7d"

/-- The text that a capture choice adds. The user is asked for a value unless the format has no
place for one. -/
def capturedText (head : ChoiceHead) (payload : Entries) : Act Console String := do
  let header := if head.name.isTruthy then head.name.display else "Capture"
  match formatOf? payload "format" with
  | some (.text format) =>
    if takesValue format then
      let value ← require header
      renderShared r format [(.text "value", .text value)]
    else renderShared r format []
  | some (.bytes _) => throw (.misuse .wrongType)
  | some _ => throw (.misuse .noAttribute)
  | none => require header

/-- Two texts, with a newline between them unless the first one is empty or ends with one. -/
def onNewLine (first second : String) : String :=
  if first = "" || Text.endsWith first "\n" then first ++ second else first ++ "\n" ++ second

/-- A text with another one added at its end or at its front. -/
def added (toFront : Bool) (existing text : String) : String :=
  if !toFront then onNewLine existing text
  else if existing = "" || Text.endsWith text "\n" then text ++ existing
  else text ++ "\n" ++ existing

/-- The file that a capture choice is for, as seen from the root, if it names one. -/
def captureTarget? (owner : String) (payload : Entries) : Act Console (Option Files.Path) := do
  let place := (payload.field? "captureTo").getD .null
  if !place.isTruthy then
    Act.logFailure ("capture choice '" ++ owner ++ "' has no capture target")
    return none
  else
    let place ← renderShared r (← Act.lift place.written) []
    return some (← resolve place)

/-- The text of a file, which need not be there yet. -/
def textOf (target : Files.Path) : Act Console String := do
  if ← holds target then readText target else return ""

/-- Adds a text to a file, which need not be there yet. -/
def addTo (target : Files.Path) (toFront : Bool) (text : String) : Act Console Unit := do
  makeDirectory target
  let existing ← textOf target
  writeText target (added toFront existing text)

/-- Runs a capture choice. -/
def runCapture (head : ChoiceHead) (payload : Entries) : Act Console Unit := do
  match ← captureTarget? r head.name.display payload with
  | none => return ()
  | some target =>
    let text ← capturedText r head payload
    addTo target ((payload.field? "prepend").getD .null).isTruthy text

end Choicebook.Console
