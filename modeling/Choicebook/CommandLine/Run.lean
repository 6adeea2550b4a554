import Choicebook.CommandLine.Options
import Choicebook.Console.Host
import Choicebook.Encoding
import Choicebook.Choice.Listing
import Choicebook.Session.Entry

/-!
# A run from the command line

`Options.run` loads the document, and then lists it, dumps it, or runs the macro or the choice that
the options name in a console. Without a name the user selects one of the choices.

What goes wrong before anything runs is told and ends with status 1. A cancellation ends with status
2. A malformed variable ends the run with a text instead of a status, and so does a script that ends
the program. Any other fault, in settings for instance, is a fault of the run.
-/

namespace Choicebook

/-- How a run from the command line ends. -/
inductive Ending where
  | status (code : Nat)
  | message (text : String)
  deriving DecidableEq, Repr

namespace Ending

/-- An ending without trouble. -/
def fine : Ending := .status 0

end Ending

namespace Options

open Console hiding host

variable (host : Host Console)

/-- Prints an error and ends. -/
def stop (code : Nat) (text : String) : Act Console Ending := do
  printError text
  return .status code

/-- Reads the document. What the reading warns of is logged even if it fails. -/
def load (path : String) : Act Console Unit := do
  let p := Files.Path.ofText path
  let v ← Act.lift (Encoding.read none (some p.text) (← readRaw p))
  let s ← get
  let (d, reading) := Id.run (StateT.run (ExceptT.run (Document.ofValue v)) s.reading)
  set { s with reading := { reading with warnings := [] } }
  for w in reading.warnings do Act.logWarning w
  let d ← Act.lift d
  modify fun s => { s with document := d }

/-- Whether a fault means that a document cannot be read. -/
def isMalformed (f : Fault) : Bool :=
  match f with
  | .misuse .undecodable => true
  | f => f.kind = Fault.kind .notADocument

/-- Runs the macro that a reference names and prints its output. -/
def runReference (reference : String) : Act Console Ending := do
  match ← Act.attempt (SingleMacro.run host reference) with
  | .ok output =>
    if output ≠ "" then printLine output
    return .fine
  | .error f =>
    if f.isCancelled then stop 2 ("Aborted: " ++ f.logged) else stop 1 ("Error: " ++ f.logged)

/-- Runs a choice with the variables set so far. -/
def runChoice (isVerbose : Bool) (p : Placed) : Act Console Ending := do
  let r ← Runner.run host (some p) (← get).shared
  let told := r.outcome.report (r.fault.map Fault.logged)
  match r.outcome with
  | .failed => stop 1 told
  | .aborted => stop 2 told
  | .success =>
    if isVerbose && !r.vars.isEmpty then printLine ((Value.map r.vars).listing ⟨2, 0⟩)
    return .fine

/-- Runs the choice that is named, or selected if none is. -/
def runNamed (o : Options) : Act Console Ending := do
  let d := (← get).document
  if o.choice ≠ "" then
    match Placed.withName? d (.text o.choice) with
    | some p => runChoice host o.isVerbose p
    | none => stop 1 ("Error: no choice named '" ++ o.choice ++ "'")
  else if d.choices.isEmpty then stop 0 "No choices defined."
  else
    let chosen ← suggest (d.choices.map Choice.name) d.choices.length (.text "Choose")
    match chosen.bind fun i => d.choices[i]?.map fun c => (⟨c, some [i]⟩ : Placed) with
    | some p => runChoice host o.isVerbose p
    | none => return .fine

/-- Runs the startup macros. -/
def runStartup : Act Console Unit := do
  Startup.run host (← get).config.isolateStartup.isTruthy

/-- Runs what the options name in a session that is set up for it. -/
def runSession (o : Options) : Act Console Ending := do
  let s ← get
  let config ← Act.lift (Config.ofValue (.map s.document.settings))
  let folder := (Files.Path.ofText o.document).parent
  set { s with
    config := config
    host := { s.host with root := (s.host.root.join folder).collapse } }
  match variablesOf o.vars with
  | .error f => return .message f.logged
  | .ok vars =>
    Act.updateShared vars
    match ← Act.attempt (if o.skipsStartup then return () else runStartup host) with
    | .error f => stop 1 ("Error: startup macro failed: " ++ f.logged)
    | .ok () => if o.reference ≠ "" then runReference host o.reference else runNamed host o

/-- Does what the options ask for. -/
def run (o : Options) : Act Console Ending := do
  match ← Act.attempt (load o.document) with
  | .error f =>
    if f = .misuse .missingFile then stop 1 ("Error: file not found: " ++ o.document)
    else if isMalformed f then stop 1 ("Error: " ++ f.logged)
    else throw f
  | .ok () =>
    let d := (← get).document
    if o.wantsListing then
      printLine (← Act.lift (d.listing ⟨2, 0⟩))
      return .fine
    else if o.wantsDump then
      print (← Act.lift (d.write "yaml"))
      return .fine
    else runSession host o

/-- Does what the options ask for. A script can end the program with a text. -/
def runToEnd (o : Options) : Act Console Ending := fun s =>
  match (run host o).runOn s with
  | (.error (.raised "SystemExit" text), t) => (.ok (.message text), t)
  | ended => ended

end Options

end Choicebook
