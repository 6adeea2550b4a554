import Choicebook.Script.Export
import Choicebook.Session.Basic

/-!
# Running scripts

A script is called with no arguments, with the parameters of the running macro, or with those and
the settings of its command. The parameters give access to the variables of the macro, and, inside a
session, to the host and to the other choices. What runs another choice is given from outside as
`execute`.

A failing step ends the script unless an `attempt` step is around it. What a script has done to the
variables by then stays done.
-/

namespace Choicebook

/-- How a function has been called. -/
structure Call where
  /-- How many arguments there are. -/
  count : Nat
  hasParameters : Bool
  /-- Whether the parameters lead to the host and the other choices. -/
  inSession : Bool
  settings : Option Entries

namespace Call

variable {σ : Type}

/-- What a missing part of a call is worth: nothing can be asked of it. -/
def need (present : Bool) : Act σ Unit :=
  if present then return () else Act.fail (.misuse .noAttribute)

/-- What a step computes with. -/
def operand (c : Call) : Operand → Act σ Value
  | .literal v => return v
  | .named name => do
    need c.hasParameters
    return ((← get).frame.field? name).getD .null
  | .setting key =>
    match c.settings with
    | none => Act.fail (.misuse .wrongType)
    | some m => match m.field? key with
      | some v => return v
      | none => Act.fail (.misuse .missingKey)
  | .argumentCount => return .int c.count

/-- Sets a variable of the running macro. -/
def assign (c : Call) (name : String) (v : Value) : Act σ Unit := do
  need c.hasParameters
  Act.changeFrame (·.insert (.text name) v)

/-- The keys of a mapping in order; keys other than texts have none. -/
def sortedKeys (m : Entries) : Except Fault Value :=
  let names := m.filterMap fun e => e.1.asText?
  if names.length = m.length then
    .ok (.list ((names.mergeSort fun a b => decide (a ≤ b)).map Value.text))
  else if m.length = 1 then .ok (.list (m.map (·.1)))
  else .error (.misuse .wrongType)

/-- What a parameter is: a mapping's keys, or the name of what kind of thing it is. -/
def inspected (host : Host σ) (c : Call) (key : String) : Act σ Value := do
  if !c.hasParameters then Act.fail (.misuse .wrongType)
  else match key with
    | "app" => return .text (if c.inSession then host.name else "NoneType")
    | "quickadd_api" => return .text (if c.inSession then "ScriptApi" else "NoneType")
    | "variables" => Act.expect (sortedKeys (← get).frame)
    | "abort" => return .text "method"
    | _ => Act.fail (.missingParameter key)

/-- Hands variables to the choice that runs next, if there are any. -/
def handOver (vars : Value) : Act σ Unit := do
  if vars.isTruthy then Act.updateShared (← Act.expect vars.toEntries) else return ()

/-- Runs another choice. The shared variables are empty afterwards, unless it fails. A cancellation
of that choice fails here. -/
def enter (execute : Placed → Act σ Unit) (p : Placed) : Act σ Unit := do
  Act.remember .lent
  execute p
  let pending ← Act.takePending
  modify fun s => { s with shared := [] }
  Act.remember .cleared
  match pending with
  | some reason => throw (.cancelled reason)
  | none => return ()

/-- Runs another choice by name, with extra variables. -/
def runChoice (execute : Placed → Act σ Unit) (name : String) (vars : Value) : Act σ Unit := do
  match Placed.withName? (← get).document (.text name) with
  | none =>
    Act.logFailure ("API executeChoice error: Choice named '" ++ name ++ "' not found")
    Act.fail (.choiceNotFound name)
  | some p =>
    handOver vars
    enter execute p

/-- Lets the user pick an item. Nothing picked is a cancellation, and so is null. -/
def pick (host : Host σ) (labels items : List Value) (placeholder : Option String) :
    Act σ Value := do
  let shown := (placeholder.map Value.text).getD .null
  let chosen ← Act.ask (.suggest labels shown) (host.suggest labels items.length shown)
  match chosen.bind fun i => items[i]? with
  | none | some .null => Act.fail .inputCancelled
  | some v => return v

/-- Asks the user for a text. No answer is a cancellation. -/
def ask (host : Host σ) (header : String) (preset : Option String) : Act σ Value := do
  match ← Act.ask (.prompt header preset) (host.prompt header preset) with
  | none | some .null => Act.fail .inputCancelled
  | some v => return v

mutual

/-- Runs a step. A step that finishes the script gives its result. -/
def runStep (host : Host σ) (execute : Placed → Act σ Unit) (c : Call) : Step → Act σ (Option Value)
  | .assign name x => do
    let v ← c.operand x
    c.assign name v
    return none
  | .discard name => do
    need c.hasParameters
    Act.changeFrame (·.erase (.text name))
    return none
  | .record label => do
    let s ← get
    Act.note (.script label c.count (if c.hasParameters then some s.frame else none) c.settings)
    return none
  | .recordShared => do
    Act.note (.shared (← get).shared)
    return none
  | .abort reason => do
    need c.hasParameters
    Act.fail (.cancellation reason)
  | .fail kind message => Act.fail (.ofRaise kind message)
  | .inspect key into => do
    let v ← c.inspected host key
    c.assign into v
    return none
  | .listNames into => do
    need c.hasParameters
    let names := (← get).frame.map (·.1)
    c.assign into (.list names)
    return none
  | .runChoice name vars => do
    need (c.hasParameters && c.inSession)
    Call.runChoice execute name vars
    return none
  | .pick labels items placeholder into => do
    need (c.hasParameters && c.inSession)
    let labels ← Act.expect (labels.mapM fun l => Value.text <$> l.written)
    let v ← Call.pick host labels items placeholder
    c.assign into v
    return none
  | .pickCapitals items placeholder into => do
    need (c.hasParameters && c.inSession)
    let labels ← Act.expect (items.mapM fun i => Value.text <$> (Text.upper <$> i.written))
    let v ← Call.pick host labels items placeholder
    c.assign into v
    return none
  | .pickByPosition items placeholder into => do
    need (c.hasParameters && c.inSession)
    let labels := (List.range items.length).map fun i => Value.text ("#" ++ toString i)
    let v ← Call.pick host labels items placeholder
    c.assign into v
    return none
  | .ask header preset into => do
    need (c.hasParameters && c.inSession)
    let v ← Call.ask host header preset
    c.assign into v
    return none
  | .attempt steps into =>
    Act.rescue (runSteps host execute c steps) fun f => do
      c.assign into (.text f.described)
      return none
  | .finish x => some <$> c.operand x

/-- Runs steps up to the first one that finishes the script. -/
def runSteps (host : Host σ) (execute : Placed → Act σ Unit) (c : Call) :
    List Step → Act σ (Option Value)
  | [] => return none
  | s :: rest => do
    match ← runStep host execute c s with
    | some v => return some v
    | none => runSteps host execute c rest

end

end Call

/-- What a function is called with. -/
inductive Arguments where
  | none
  | parameters (inSession : Bool)
  | withSettings (inSession : Bool) (settings : Entries)

namespace Arguments

/-- How many arguments these are. -/
def count : Arguments → Nat
  | none => 0
  | parameters _ => 1
  | withSettings .. => 2

/-- The call of a function that has so many arguments. -/
def call (count : Nat) : Arguments → Call
  | none => ⟨count, false, false, Option.none⟩
  | parameters inSession => ⟨count, true, inSession, Option.none⟩
  | withSettings inSession settings => ⟨count, true, inSession, some settings⟩

end Arguments

namespace Value

variable {σ : Type}

/-- Calls a value. A kind can be called without arguments only. -/
def call (host : Host σ) (execute : Placed → Act σ Unit) (args : Arguments) : Value → Act σ Value
  | .function _ arity steps =>
    match arity.bound? args.count with
    | none => Act.fail (.misuse .wrongType)
    | some n => (·.getD .null) <$> (args.call n).runSteps host execute steps
  | .kind _ => if args.count = 0 then return .object [] else Act.fail (.misuse .wrongType)
  | _ => Act.fail (.misuse .wrongType)

/-- Calls a value with the settings, if there are any and it can take them. -/
def callWithSettings (host : Host σ) (execute : Placed → Act σ Unit) (inSession : Bool)
    (settings : Option Entries) (v : Value) : Act σ Value :=
  match settings with
  | some m =>
    if v.takesSettings then v.call host execute (.withSettings inSession m)
    else v.call host execute (.parameters inSession)
  | none => v.call host execute (.parameters inSession)

end Value

end Choicebook
