import Choicebook.Session.Dispatch

/-!
# Running choices

`Choice.execute` runs a choice, and the choices that it runs in turn. A choice runs its macro
command by command in a frame of its own. After each command the frame is copied to the shared
variables, and after a command that ran another choice the shared variables are copied back.

A cancellation inside of a choice does not fail the choice. It becomes pending, and the macro around
the choice fails with it as soon as it has run the choice.

Choices run inside of each other only as deep as the configuration allows, and the recursion is over
the levels that are left. Everything below `Choice.executeAt` takes what runs the next level as
`execute`, and what lets the user go through menus as `browse`.
-/

namespace Choicebook

variable {σ : Type}

/-- A macro that is being run: the name of its choice, and its output so far. -/
structure Running (σ : Type) where
  host : Host σ
  execute : Placed → Act σ Unit
  name : Value

/-- The member of a value that a condition asks for by any value. -/
def Value.memberOf? (v key : Value) : Except Fault (Option Value) :=
  match key with
  | .text name => v.member? name
  | _ =>
    match v with
    | .map es =>
      if key.canBeKey then .ok (Entries.get? es key) else .error (.misuse .wrongType)
    | .list _ | .tuple _ => .error (.misuse .noAttribute)
    | _ => if v.isNull || v.isPrimitive then .ok none else .error (.misuse .wrongType)

/-- Whether the target of a script condition says yes: it is called if it can be. -/
def targetHolds (host : Host σ) (execute : Placed → Act σ Unit) (path : String) (member : Value) :
    Option Value → Act σ Bool
  | none => do
    Act.logWarning ("Conditional command: script '" ++ path ++ "' has no export '"
      ++ member.display ++ "'.")
    return false
  | some v => do
    if v.isCallable then
      let r ← v.call host execute (.parameters true)
      return r.isTruthy
    else return v.isTruthy

/-- Whether a script says yes: its export, or the member named, is called if it can be and then has
to count as true. -/
def scriptHolds (host : Host σ) (execute : Placed → Act σ Unit) (path : String) (member : Value) :
    Act σ Bool := do
  let exported ← Act.ask (.load path) (host.loadScript path)
  if exported.isNull then
    Act.logWarning ("Conditional command: script '" ++ path ++ "' could not be loaded.")
    return false
  else
    let target ← Act.expect
      (if member.isTruthy then exported.memberOf? member else .ok (some exported))
    targetHolds host execute path member target

/-- Whether a condition holds for the running macro. -/
def Condition.holds (host : Host σ) (execute : Placed → Act σ Unit) : Condition → Act σ Bool
  | .byScript path member => scriptHolds host execute path member
  | .onVariable c => do
    let verdict ← Act.expect (c.evaluate (← get).frame)
    match verdict.warning with
    | some w => Act.logWarning w
    | none => pure ()
    return verdict.holds

namespace Running

/-- Runs another choice from inside the macro. -/
def enter (r : Running σ) (p : Placed) : Act σ Unit := do
  r.execute p
  Act.raisePending
  Act.pullFrame

/-- Runs a script command. The result is the output of the macro from then on, unless there
is none. -/
def runScript (r : Running σ) (path : String) (settings : Entries) : Act σ (Option Value) := do
  let exported ← Act.ask (.load path) (r.host.loadScript path)
  if exported.isNull then
    Act.logFailure ("failed to load user script " ++ path ++ ".")
    return none
  else
    let given := if settings.isEmpty then none else some settings
    let d : Dispatcher σ := ⟨r.host, r.execute, true, r.name, given⟩
    d.run exported

/-- A pause in seconds from one in milliseconds; there is no negative one. -/
def seconds (time : Double) : Double :=
  if time.isZero then .zero false else time.clampNegative.divNat 1000

/-- Waits. A pause that does not end is the end of the run. -/
def pause (r : Running σ) (duration : Double) : Act σ Unit := do
  Act.note (.sleep duration)
  if duration = .infinite false ∧ !r.host.skipsPauses then Act.fail .endless else return ()

/-- Runs what a command does as one step of the macro: the frame is shared afterwards. `target` is
the other choice that the command runs, if it runs one and there is one. -/
def step {α : Type} (r : Running σ) (c : Command) (target : Option Placed) (body : Act σ α) :
    Act σ α := do
  Act.remember (.started r.name c)
  let x ← body
  Act.pushFrame
  Act.remember (.finished r.name c (target.map Placed.choice))
  return x

/-- The other choice that a command runs, if it runs one and there is one. -/
def target? (d : Document) : Command → Option Placed
  | .choice _ choiceId => Placed.withId? d (.text choiceId)
  | .nested _ inner => inner.map fun c => ⟨c, none⟩
  | _ => none

mutual

/-- Runs a command whose target has been looked up. The result is the output that it gives the
macro. -/
def runCommand (r : Running σ) : Command → (target : Option Placed) → Act σ (Option Value)
  | .host _ commandId, _ => do
    Act.ask (.command commandId) (r.host.runCommand commandId)
    return none
  | .script _ path settings _, _ => r.runScript path settings
  | .choice _ _, target => do
    match target with
    | none => Act.logFailure "choice could not be found."
    | some p => r.enter p
    return none
  | .nested h _, target => do
    match target with
    | none => Act.logFailure ("choice in " ++ h.name.display ++ " is invalid")
    | some p => r.enter p
    return none
  | .wait _ time, _ => do
    r.pause (seconds time)
    return none
  | .editor _ action, _ => do
    Act.ask (.edit action.label) (r.host.edit action)
    return none
  | .conditional _ c thens elses, _ => do
    Act.pullFrame
    let holds ← c.holds r.host r.execute
    if holds then runCommands r thens none else runCommands r elses none
  | .assistant h payload, _ => do
    let vars := (← get).frame
    let assigned ← Act.ask (.assistant h.name payload vars)
      (r.host.runAssistant h.name payload vars)
    match assigned with
    | .map es => Act.updateFrame es
    | _ => pure ()
    return none
  | .openFile _ path inNewTab direction, _ => do
    Act.ask (.openFile path inNewTab direction) (r.host.openFile path inNewTab direction)
    return none

/-- Runs commands; `output` is the output so far. -/
def runCommands (r : Running σ) : List Command → (output : Option Value) → Act σ (Option Value)
  | [], output => return output
  | c :: cs, output => do
    let target := target? (← get).document c
    let new ← r.step c target (runCommand r c target)
    runCommands r cs (new.orElse fun _ => output)

end

/-- Runs the commands of a macro in the present frame; the result is its output. -/
def runBody (r : Running σ) (body : Option Macro) : Act σ Value := do
  match (body.map Macro.commands).getD [] with
  | [] =>
    Act.logFailure ("No commands in the selected macro. Did you select a macro for '"
      ++ r.name.display ++ "'?")
    return .null
  | cs => (·.getD .null) <$> r.runCommands cs none

end Running

/-! ### Menus -/

/-- A menu while it is open: what it offers, the menus it was opened from, and what it
says above. -/
structure Menu where
  choices : List Choice
  outer : List (List Choice)
  placeholder : Value

namespace Menu

/-- The label of the way back. -/
def backLabel : String := "← Back"

/-- What the menu shows: the choices and, if there is an outer menu, the way back. -/
def labels (m : Menu) : List Value :=
  m.choices.map Choice.name ++ (if m.outer.isEmpty then [] else [.text backLabel])

/-- Where a selection leads. -/
inductive Step where
  | cancelled
  | open (m : Menu)
  | run (c : Choice)

/-- Where the selection of a position leads. -/
def select (m : Menu) (position : Option Nat) : Step :=
  match position with
  | none => .cancelled
  | some i =>
    match m.choices[i]?, m.outer with
    | some (.multi h cs _), _ => .open ⟨cs, m.choices :: m.outer, h.name⟩
    | some c, _ => .run c
    | none, [] => .cancelled
    | none, outer :: more => .open ⟨outer, more, .null⟩

/-- Lets the user select once; what happens in a menu that opens then is given as `browse`. -/
def offer (host : Host σ) (browse : Menu → Act σ (Option Choice)) (m : Menu) :
    Act σ (Option Choice) := do
  let position ← Act.ask (.suggest m.labels m.placeholder)
    (host.suggest m.labels m.labels.length m.placeholder)
  match m.select position with
  | .cancelled => return none
  | .run c => return some c
  | .open inner => browse inner

/-- Lets the user go through menus up to a choice, with at most so many selections. -/
def navigate (host : Host σ) : (fuel : Nat) → Menu → Act σ (Option Choice)
  | 0, _ => return none
  | fuel + 1, m => m.offer host (navigate host fuel)

/-- Lets the user go through menus up to a choice, with as many selections as there can be. -/
def browse (host : Host σ) (m : Menu) : Act σ (Option Choice) := do
  m.navigate host (host.patience (← get).host + 1)

end Menu

/-! ### Choices -/

namespace Choice

/-- Runs what a template or a capture choice does; a cancellation of it becomes pending. -/
def delegate (host : Host σ) (c : Choice) (act : Act σ Unit) : Act σ Unit := do
  match ← Act.attempt act with
  | .ok () => return ()
  | .error (.cancelled reason) =>
    Act.recordCancellation host c (c.kind ++ " execution aborted") reason
  | .error f => throw f

/-- Runs the macro of a choice in a frame of its own. What is in the frame at the end is shared,
unless the macro is cancelled. -/
def runMacro (host : Host σ) (execute : Placed → Act σ Unit) (c : Choice) (body : Option Macro) :
    Act σ Unit := do
  let r : Running σ := ⟨host, execute, c.name⟩
  match ← Act.attempt (Act.inFrame (← get).shared (r.runBody body)) with
  | .ok (_, frame) => Act.updateShared frame
  | .error (.cancelled reason) => Act.recordCancellation host c Fault.defaultReason reason
  | .error f => throw f

/-- Opens the menu of a choice and runs what the user selects. The way back leads first to the list
of the document in which the choice stands, if it stands there. -/
def runMenu (host : Host σ) (browse : Menu → Act σ (Option Choice)) (execute : Placed → Act σ Unit)
    (p : Placed) (choices : List Choice) : Act σ Unit := do
  if choices.isEmpty then
    Act.logWarning ("multi choice '" ++ p.choice.name.display ++ "' has no choices")
  else
    let parent := Placed.list? (← get).document p
    match ← browse ⟨choices, parent.toList, p.choice.name⟩ with
    | some c => execute ⟨c, none⟩
    | none =>
      Act.recordCancellation host p.choice "Choice selection aborted"
        "Choice selection cancelled by user"

/-- What a choice of each kind does. -/
def perform (host : Host σ) (browse : Menu → Act σ (Option Choice)) (execute : Placed → Act σ Unit)
    (p : Placed) : Act σ Unit :=
  match p.choice with
  | .template h payload =>
    delegate host p.choice do
      Act.ask (.template h.name payload (← get).shared) (host.runTemplate h payload)
  | .capture h payload =>
    delegate host p.choice do
      Act.ask (.capture h.name payload (← get).shared) (host.runCapture h payload)
  | .ofMacro _ body => runMacro host execute p.choice body
  | .multi _ choices _ => runMenu host browse execute p choices

/-- Fails because no more choices may run inside of each other. -/
def refuse (p : Placed) : Act σ Unit := do
  Act.fail (.tooDeep p.choice.name.display (← get).config.maxDepth)

/-- Runs a choice, given how to go through menus and how to run the choices inside of it. -/
def executeOnce (host : Host σ) (browse : Menu → Act σ (Option Choice))
    (execute : Placed → Act σ Unit) (p : Placed) : Act σ Unit := do
  Act.remember (.called p.choice)
  let s ← get
  if s.config.maxDepth ≤ s.depth then refuse p
  else Act.deeper p.choice do
    Act.remember (.entered p.choice)
    perform host browse execute p

/-- Runs a choice, and the choices inside of it down to so many levels. -/
def executeAt (host : Host σ) : (levels : Nat) → Placed → Act σ Unit
  | 0, p => refuse p
  | levels + 1, p => executeOnce host (Menu.browse host) (executeAt host levels) p

/-- Runs a choice. One level more than the limit leaves is the one at which the limit refuses. -/
def execute (host : Host σ) (p : Placed) : Act σ Unit := do
  let s ← get
  executeAt host (s.config.maxDepth - s.depth + 1) p

end Choice

end Choicebook
