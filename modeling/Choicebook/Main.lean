import Choicebook.CommandLine.Run
import Choicebook.Proofs.Template.Rendering
import Choicebook.Script.Notation
import Std.Time.Zoned

/-!
# The program

A run is a function of the files and of the lines that are typed. So the program runs again whenever
a run turns out to depend on a file that has not been read or on a line that has not been typed yet.
What a run prints begins with what the run before it printed, and only the rest is shown. Files are
written at the end.
-/

namespace Choicebook.Terminal

/-- What is known of the surroundings. -/
structure Surroundings where
  today : Date
  /-- The working directory as it is written out. -/
  directory : String
  tree : Files.Tree
  /-- The paths whose files and directories are in the tree, if there are any. -/
  known : List Files.Path
  lines : List (Option String)

/-- The run in these surroundings. -/
def Surroundings.run (s : Surroundings) (o : Options) : Except Fault Ending × Session Console :=
  (o.runToEnd (Console.host .standard false)).runOn (.start .preset .empty .start
    (.start s.today (.working s.directory) s.tree s.lines true))

/-- The content of a file. Scripts are read as such. -/
def bodyOf (name : String) (bytes : List UInt8) : Files.Body :=
  let script : Option Files.Body :=
    if Text.endsWith name Files.ScriptFile.ending then
      (Text.decodeUtf8? bytes).bind fun cs => (Json.read (String.ofList cs)).toOption.map fun v =>
        .script { Script.fileOf v with source := String.ofList cs }
    else none
  script.getD (.bytes bytes)

/-- The surroundings as they are when the program starts. -/
def look : IO Surroundings := do
  let d ← Std.Time.PlainDate.now
  let today : Date := ⟨d.year.toInt.toNat, d.month.val.toNat, d.day.val.toNat⟩
  let directory := toString (← IO.currentDir)
  let homes := (← IO.getEnv "HOME").toList.map fun home => ("", Files.Path.namesOf home)
  return ⟨today, directory, .empty (Files.Path.namesOf directory) homes, [], []⟩

/-- Reads the file at a path, if there is one, or notes that there is a directory. -/
def Surroundings.fetch (s : Surroundings) (p : Files.Path) : IO Surroundings := do
  let s := { s with known := p :: s.known }
  let l := s.tree.locationOf p.text
  let name := "/" ++ Text.join "/" l
  try
    let bytes ← IO.FS.readBinFile name
    return { s with tree := s.tree.plant l (bodyOf name bytes.toList) }
  catch _ => pure ()
  try
    let _ ← IO.FS.Handle.mk name .read
    let found := Files.Tree.above l ++ [l]
    return { s with tree := { s.tree with directories := s.tree.directories ++ found } }
  catch _ => return s

/-- Reads a line; nothing at the end of the input. -/
def typedLine : IO (Option String) := do
  let line ← (← IO.getStdin).getLine
  if line.isEmpty then return none
  else return some (if Text.endsWith line "\n" then String.ofList line.toList.dropLast else line)

/-- Writes a file. -/
def save (name text : String) : IO Unit := do
  let folder := (Files.Path.ofText name).parent
  if !folder.names.isEmpty then IO.FS.createDirAll folder.text
  IO.FS.writeFile name text

/-- Says how a run has ended, in detail if asked to, and writes the files. -/
def finish (isVerbose : Bool) (before : Files.Tree) (result : Except Fault Ending)
    (s : Session Console) : IO UInt32 := do
  if isVerbose then
    for line in s.trail.reverse.filterMap Moment.line? do IO.eprintln ("DEBUG: " ++ line)
  for e in s.events do
    match e with
    | .warning text => IO.eprintln ("WARNING: " ++ text)
    | .failure text => IO.eprintln ("ERROR: " ++ text)
    | _ => pure ()
  IO.eprint s.host.errors
  for (name, text) in before.changes s.host.tree do save name text
  match result with
  | .ok (.status code) => return code.toUInt32
  | .ok (.message text) =>
    IO.eprintln text
    return 1
  | .error f =>
    IO.eprintln f.described
    return 1

/-- Runs what the options ask for. -/
def serve (o : Options) : IO UInt32 := do
  let mut s ← look
  let mut shown := 0
  repeat
    let (result, after) := s.run o
    let console := after.host
    match console.visited.filter fun p => !s.known.contains p with
    | p :: _ => s ← s.fetch p
    | [] =>
      IO.print (String.ofList (console.output.toList.drop shown))
      (← IO.getStdout).flush
      shown := console.output.length
      let line ← if console.isStarved then typedLine else pure none
      match line with
      | some text => s := { s with lines := s.lines ++ [some text] }
      | none => return ← finish o.isVerbose s.tree result after
  return 0

end Choicebook.Terminal

/-- The command line of the program. -/
def main (args : List String) : IO UInt32 := do
  match Choicebook.Options.ofArguments args with
  | .ok o => Choicebook.Terminal.serve o
  | .error .wantsHelp =>
    IO.println Choicebook.Options.usage
    return 0
  | .error .malformed =>
    IO.eprintln Choicebook.Options.usage
    return 2
