import Choicebook.Session.Interpreter

/-!
# Ways into a session

`Runner.run` runs a choice from a clean slate and reports the outcome instead of failing.
`SingleMacro.run` runs one macro by a reference and gives its output as a text; the reference may
lead to a member of what the script of the macro exports. `Startup.run` runs the macros marked for
the start.
-/

namespace Choicebook

variable {σ : Type}

/-! ### Running a choice -/

/-- How a run ended. -/
inductive Outcome where
  | success
  | aborted
  | failed
  deriving DecidableEq, Repr

namespace Outcome

/-- The name of an outcome. -/
def name : Outcome → String
  | success => "success"
  | aborted => "aborted"
  | failed => "error"

/-- What to tell the user about an outcome with a message. -/
def report (o : Outcome) (message : Option String) : String :=
  let given := message.filter (· ≠ "")
  match o with
  | success => ""
  | aborted => "Aborted: " ++ given.getD "Choice execution aborted"
  | failed => given.getD "Unknown error"

end Outcome

/-- The report of a run. -/
structure RunReport where
  choiceName : Value
  fault : Option Fault
  vars : Entries

namespace RunReport

/-- How the run ended. -/
def outcome (r : RunReport) : Outcome :=
  match r.fault with
  | none => .success
  | some f => if f.isCancelled then .aborted else .failed

end RunReport

namespace Runner

/-- Runs a choice with fresh variables. A fault or a cancellation becomes the outcome; without a
choice the run itself fails. -/
def run (host : Host σ) (choice : Option Placed) (vars : Entries) : Act σ RunReport := do
  modify fun s => { s with shared := Entries.update [] vars, pending := none }
  match choice with
  | none => Act.fail (.misuse .noAttribute)
  | some p =>
    let name := p.choice.name
    match ← Act.attempt (Choice.execute host p) with
    | .ok () =>
      let pending ← Act.takePending
      return ⟨name, pending.map .cancelled, (← get).shared⟩
    | .error f =>
      if !f.isCancelled then
        Act.logFailure ("choice '" ++ name.display ++ "' failed: " ++ f.logged)
      return ⟨name, some f, (← get).shared⟩

end Runner

/-! ### Running one macro -/

namespace SingleMacro

/-- The name of a choice without blanks around it; an empty name of any sort is the empty text. -/
def bareName (v : Value) : Except Fault String :=
  match v with
  | .text s => .ok (Text.trim s)
  | v => if v.isTruthy then .error (.misuse .noAttribute) else .ok ""

/-- The first choice with exactly this name. -/
def exactly? (wanted : String) : List Choice → Except Fault (Option Choice)
  | [] => .ok none
  | c :: cs => do
    let name ← bareName c.name
    if name = wanted then .ok (some c) else exactly? wanted cs

/-- The macro choice with a name. If no name is exactly this one, capitals do not matter, as long as
there is only one such choice. -/
def find (name reference : String) : Act σ Choice := do
  let choices := (Choice.flattenAll (← get).document.choices).filter Choice.isMacro
  let wanted := Text.trim name
  match ← Act.expect (exactly? wanted choices) with
  | some c => return c
  | none =>
    let alike := choices.filter fun c =>
      match bareName c.name with
      | .ok n => Text.lower n = Text.lower wanted
      | .error _ => false
    match alike with
    | [c] => return c
    | [] =>
      Act.logFailure ("macro '" ++ reference ++ "' does not exist.")
      Act.fail (.unknownReference reference)
    | _ =>
      Act.logFailure ("Ambiguous macro reference '" ++ reference
        ++ "'. Multiple choices match when ignoring case.")
      Act.fail (.ambiguousReference reference)

/-- Logs a fault and fails with it. -/
def refuse {α : Type} (f : Fault) : Act σ α := do
  Act.logFailure f.logged
  Act.fail f

/-- The path, settings and slot of the first script command. -/
def firstScript? (commands : List Command) : Option (String × Entries × Nat) :=
  commands.findSome? fun
    | .script _ path settings slot => some (path, settings, slot)
    | _ => none

/-- The member that a reference leads to, called if it can be. The presets that the script declares
become settings of the command first, and stay so. -/
def runMember (host : Host σ) (c : Choice) (path : List String) : Act σ Value := do
  let owner := c.name.display
  let commands := (c.body?.map Macro.commands).getD []
  if commands.isEmpty then refuse (.noCommands owner)
  else match firstScript? commands with
    | none => refuse (.noScript owner)
    | some (file, settings, slot) =>
      let exported ← Act.ask (.load file) (host.loadScript file)
      if exported.isNull then refuse (.scriptNotLoaded owner)
      else
        let fill : Entries → Entries :=
          match exported.declaredSettings? with
          | some declared => Entries.withPresets declared
          | none => id
        modify fun s => { s with document := s.document.mapSettings slot fill }
        match exported.follow owner path with
        | .error f =>
          if f.message?.isSome then Act.logFailure f.logged
          Act.fail f
        | .ok m =>
          let call : Act σ Value :=
            if m.isCallable then
              m.callWithSettings host (Choice.execute host) true (some (fill settings))
            else pure m
          let (r, frame) ← Act.inFrame (← get).shared call
          Act.updateShared frame
          return r

/-- Runs the macro that a reference names, and gives its output as a text. A function as output is
called first. -/
def run (host : Host σ) (reference : String) : Act σ String := do
  let (name, path) := splitReference reference
  let c ← find (name.getD "") reference
  if path.isEmpty then
    let r : Running σ := ⟨host, Choice.execute host, c.name⟩
    let (output, _) ← Act.inFrame (← get).shared (r.runBody c.body?)
    if output.isCallable then
      let (result, _) ← Act.inFrame [] (output.call host (Choice.execute host) .none)
      Act.expect result.resultText
    else Act.expect output.resultText
  else
    let result ← runMember host c path
    Act.expect result.resultText

end SingleMacro

/-! ### Startup -/

namespace Startup

/-- Runs the commands of a macro. -/
def runMacro (host : Host σ) (m : Macro) : Act σ Unit := do
  modify fun s => { s with reading := { s.reading with ids := s.reading.ids + 1 } }
  let r : Running σ := ⟨host, Choice.execute host, m.name⟩
  let _ ← Act.inFrame (← get).shared (r.runCommands m.commands none)

/-- Runs macros one after the other. If they are isolated, a failing one does not keep the others
from running. -/
def runAll (host : Host σ) (isolate : Bool) : List Macro → Act σ Unit
  | [] => return ()
  | m :: ms => do
    if isolate then
      match ← Act.attempt (runMacro host m) with
      | .ok () => pure ()
      | .error f =>
        Act.logFailure ("startup macro '" ++ m.name.display ++ "' failed: " ++ f.logged)
    else runMacro host m
    runAll host isolate ms

/-- Runs the macros of the document that are marked for the start. -/
def run (host : Host σ) (isolate : Bool) : Act σ Unit := do
  let macros ← Act.expect (← get).document.allMacros
  runAll host isolate (macros.filter Macro.runOnStartup)

end Startup

end Choicebook
