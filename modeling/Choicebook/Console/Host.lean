import Choicebook.Console.Notes

/-!
# The console as a host

What is left for a session to run in a console: loading scripts from files, and the record of
everything the console does for a session, `Console.host`.
-/

namespace Choicebook

namespace Files.ScriptFile

/-- The ending of the names of scripts. -/
def ending : String := ".py"

/-- The members of a script by their names; of two with one name the last one counts. -/
def namespaceOf (f : ScriptFile) : List (String × Bool × Value) :=
  f.members.foldl
    (fun done m =>
      if done.any fun d => d.1 = m.1 then done.map fun d => if d.1 = m.1 then m else d
      else done ++ [m]) []

/-- Whether a member of a script belongs to what it exports: its name does not start with an
underscore, it is no library, and it is no function or kind from elsewhere. -/
def isPublic : String × Bool × Value → Bool
  | (name, isImported, v) =>
    let isLibrary := match v with
      | .library _ => true
      | _ => false
    !(Text.startsWith name "_") && !isLibrary && !(isImported && v.isCallable)

/-- What a script exports: its member `exports` if it has one, else `default`, else a mapping of its
public members. -/
def exported (f : ScriptFile) : Value :=
  let members := f.namespaceOf
  match members.lookup "exports", members.lookup "default" with
  | some (_, v), _ => v
  | none, some (_, v) => v
  | none, none => .map ((members.filter isPublic).map fun (name, _, v) => (.text name, v))

end Files.ScriptFile

namespace Console

/-- Where the script with a path is, as seen from the root. The home directory of nobody is a name
like any other. -/
def scriptPath (path : String) : Act Console Files.Path := do
  let p := Files.Path.ofText path
  if Text.startsWith path "~" then return (← atHome p).getD p
  else return ((← get).host.root.join p).collapse

/-- What a script exports. Without a script at the path it is null, and there is a failure
to log. -/
def loadScript (path : String) : Act Console Value := do
  let p ← scriptPath path
  match (← visit p).read p with
  | .error _ =>
    Act.logFailure ("failed to load file " ++ path ++ ".")
    return .null
  | .ok body =>
    match body, Text.endsWith p.name Files.ScriptFile.ending with
    | .script f, true =>
      match f.failure with
      | some (kind, message) => throw (.ofRaise kind message)
      | none => return f.exported
    | _, _ =>
      Act.logFailure ("failed to load user script " ++ path ++ ".")
      return .null

/-- A console as a host, given what renders templates and whether pauses are only noted. -/
def host (r : Renderer) (skipsPauses : Bool) : Host Console where
  name := hostName
  runCommand := runCommand
  suggest := suggest
  patience c := c.lines.length
  edit := edit
  runTemplate := runTemplate r
  runCapture := runCapture r
  loadScript := loadScript
  prompt := prompt
  runAssistant _ _ _ := throw (.noAssistant hostName)
  openFile path _ _ := openPath path
  notify := printError
  skipsPauses := skipsPauses

end Console

end Choicebook
