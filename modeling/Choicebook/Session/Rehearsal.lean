import Choicebook.Session.Basic

/-!
# Rehearsals

A rehearsal is a host that does nothing and records everything. Selections and prompts are answered
from a queue. Commands can be told to fail or to be cancelled, and so can templates and captures,
through the entry `fake` of their payload.
-/

namespace Choicebook

/-- The state of a rehearsal. -/
structure Rehearsal where
  scripts : List (String × Value)
  /-- The answers to come. -/
  answers : List Value
  failing : List String
  /-- Commands that are cancelled, with the reasons. -/
  cancelling : List (String × Option String)
  canPrompt : Bool
  /-- What the assistant answers, if there is one. -/
  assistant : Option Value
  canOpen : Bool

namespace Rehearsal

/-- Takes the next answer, null if there is none left. -/
def nextAnswer : Act Rehearsal Value := do
  match (← get).host.answers with
  | [] => return .null
  | a :: rest =>
    modify fun s => { s with host := { s.host with answers := rest } }
    return a

/-- The position that an answer selects: that of the first such label, or the one that it names. -/
def selected (labels : List Value) (count : Nat) (answer : Value) : Option Nat :=
  let position : Option Nat := match answer with
    | .text _ => labels.findIdx? fun l => l.same answer
    | .int n => if 0 ≤ n then some n.toNat else none
    | _ => none
  position.filter (· < count)

/-- Lets the user select. -/
def suggest (labels : List Value) (count : Nat) (placeholder : Value) :
    Act Rehearsal (Option Nat) := do
  Act.note (.suggest labels placeholder)
  return selected labels count (← nextAnswer)

/-- Runs a command of the host. -/
def runCommand (id : String) : Act Rehearsal Unit := do
  Act.note (.command id)
  let h := (← get).host
  if h.failing.contains id then throw (.raised "RuntimeError" ("command failed: " ++ id))
  else match h.cancelling.lookup id with
    | some reason => throw (.cancellation reason)
    | none => return ()

/-- The entries of a setting that is a mapping. -/
def entriesOf (fake : Entries) (name : String) : Entries :=
  ((fake.field? name).bind Value.asMap?).getD []

/-- Does what the payload of a template or a capture says under `fake`. -/
def pretend (payload : Entries) : Act Rehearsal Unit := do
  let fake := entriesOf payload "fake"
  Act.updateShared (entriesOf fake "set")
  match fake.field? "abort", fake.field? "raise" with
  | some reason, _ => throw (.cancellation reason.asText?)
  | none, some text => throw (.raised "OSError" text.display)
  | none, none => return ()

/-- Asks the user. -/
def prompt (header : String) (preset : Option String) : Act Rehearsal (Option Value) := do
  if (← get).host.canPrompt then
    Act.note (.prompt header preset)
    let answer ← nextAnswer
    return if answer.isNull then none else some answer
  else throw (.cannotPrompt "FakeHost")

/-- Asks the assistant. -/
def runAssistant (name : Value) (payload vars : Entries) : Act Rehearsal Value := do
  match (← get).host.assistant with
  | some answer =>
    Act.note (.assistant name payload vars)
    return answer
  | none => throw (.noAssistant "FakeHost")

/-- Opens a file. -/
def openFile (path : String) (inNewTab : Bool) (direction : Value) : Act Rehearsal Unit := do
  if (← get).host.canOpen then Act.note (.openFile path inNewTab direction)
  else throw (.cannotOpenFiles "FakeHost")

/-- What a script exports. -/
def loadScript (path : String) : Act Rehearsal Value := do
  Act.note (.load path)
  return ((← get).host.scripts.lookup path).getD .null

/-- The host of a rehearsal. -/
def host : Host Rehearsal where
  name := "FakeHost"
  runCommand := runCommand
  suggest := suggest
  patience h := h.answers.length
  edit action := Act.note (.edit action.label)
  runTemplate h payload := do
    Act.note (.template h.name payload (← get).shared)
    pretend payload
  runCapture h payload := do
    Act.note (.capture h.name payload (← get).shared)
    pretend payload
  loadScript := loadScript
  prompt := prompt
  runAssistant := runAssistant
  openFile := openFile
  notify text := Act.note (.notify text)
  skipsPauses := true

end Rehearsal

end Choicebook
