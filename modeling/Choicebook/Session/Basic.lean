import Choicebook.Choice.Tree
import Choicebook.Session.Config
import Choicebook.Session.Trail

/-!
# Sessions

A session runs choices inside of a host. Its state is one record, `Session`, and everything it does
is an `Act`: a function of that record that may end in a fault. The record outlasts the fault.

A `Host` is a record too: what it does when it is asked to run a command, to let the user select,
and so on. Hosts have a state of their own inside the session.

Two maps of variables are in play. `shared` belongs to the session; `frame` belongs to the macro
that is running, and `inFrame` gives an act a frame of its own.
-/

namespace Choicebook

/-- The state of a session. -/
structure Session (σ : Type) where
  config : Config
  document : Document
  /-- The variables that all choices of the session share. -/
  shared : Entries
  /-- The variables of the running macro. -/
  frame : Entries
  /-- The reason of a cancellation that the enclosing macro has not seen yet. -/
  pending : Option String
  /-- The counter that is compared with the nesting limit: one up when a choice begins, one down
  when it ends. -/
  depth : Nat
  /-- The choices that are running inside of each other, the innermost first. Only the trail shows
  them. -/
  running : List Choice
  reading : Reading
  events : Array Event
  /-- The detailed record, the latest moment first. -/
  trail : List Moment
  host : σ

/-- Something that a session does. -/
abbrev Act (σ : Type) := ExceptT Fault (StateM (Session σ))

/-- What a session runs in. -/
structure Host (σ : Type) where
  /-- The name by which scripts see the host. -/
  name : String
  runCommand : (id : String) → Act σ Unit
  /-- Lets the user select: the position of the selected item, or nothing. -/
  suggest : (labels : List Value) → (count : Nat) → (placeholder : Value) → Act σ (Option Nat)
  /-- How many more selections there can be. -/
  patience : σ → Nat
  edit : EditorAction → Act σ Unit
  runTemplate : ChoiceHead → (payload : Entries) → Act σ Unit
  runCapture : ChoiceHead → (payload : Entries) → Act σ Unit
  /-- What a script exports; null if there is no such script. -/
  loadScript : (path : String) → Act σ Value
  prompt : (header : String) → (preset : Option String) → Act σ (Option Value)
  runAssistant : (name : Value) → (payload vars : Entries) → Act σ Value
  openFile : (path : String) → (inNewTab : Bool) → (direction : Value) → Act σ Unit
  notify : (text : String) → Act σ Unit
  /-- Whether pauses are only noted, as in a rehearsal. -/
  skipsPauses : Bool

namespace Session

/-- A session that has not done anything yet. -/
def start {σ : Type} (config : Config) (document : Document) (reading : Reading) (host : σ) :
    Session σ :=
  ⟨config, document, [], [], none, 0, [], reading, #[], [], host⟩

/-- Adds to the record of what has happened. -/
def note {σ : Type} (s : Session σ) (e : Event) : Session σ :=
  { s with events := s.events.push e }

/-- The present moment, with a mark. -/
def moment {σ : Type} (s : Session σ) (m : Mark) : Moment :=
  ⟨m, s.shared, s.frame, s.pending, s.depth, s.running⟩

/-- Adds the present moment to the trail. -/
def remember {σ : Type} (s : Session σ) (m : Mark) : Session σ :=
  { s with trail := s.moment m :: s.trail }

/-- The state in which a choice begins. -/
def enter {σ : Type} (s : Session σ) (c : Choice) : Session σ :=
  { s with depth := s.depth + 1, running := c :: s.running }

/-- The state in which a choice is left: the counter goes down by one from where it is then. -/
def leave {σ : Type} (before after : Session σ) : Session σ :=
  { after with depth := after.depth - 1, running := before.running }

end Session

namespace Act

variable {σ : Type} {α : Type}

/-- Runs an act from a state. -/
def runOn (a : Act σ α) (s : Session σ) : Except Fault α × Session σ :=
  Id.run (StateT.run (ExceptT.run a) s)

/-- What comes after a run, depending on how it has ended. -/
def proceed {β : Type} (run : Except Fault α × Session σ) (ok : α → Session σ → β)
    (error : Fault → Session σ → β) : β :=
  match run with
  | (.ok x, t) => ok x t
  | (.error f, t) => error f t

/-- A computation that needs no state. -/
def lift (x : Except Fault α) : Act σ α := fun s => (x, s)

/-- Records something. -/
def note (e : Event) : Act σ Unit := modify (·.note e)

/-- Adds a moment to the trail. -/
def remember (m : Mark) : Act σ Unit := modify (·.remember m)

/-- Fails, and remembers that this is where. -/
def fail (f : Fault) : Act σ α := do
  remember (.failed f)
  throw f

/-- The result of a part of a run that needs no state. -/
def expect : Except Fault α → Act σ α
  | .ok x => return x
  | .error f => fail f

/-- Asks the host for something. If the host fails, this is where. -/
def ask (e : Event) (a : Act σ α) : Act σ α := do
  remember (.asked e)
  fun s => proceed (a.runOn s) (fun x t => (.ok x, t)) fun f => (fail f : Act σ α)

/-- Runs an act and, if it fails, carries on from there, unless the fault escapes. -/
def rescue (a : Act σ α) (carryOn : Fault → Act σ α) : Act σ α := fun s =>
  proceed (a.runOn s) (fun x t => (.ok x, t)) fun f t =>
    bif f.escapes then (.error f, t) else (do remember (.caught f); carryOn f : Act σ α) t

/-- Records a failure that goes no further. -/
def logFailure (text : String) : Act σ Unit := note (.failure text)

/-- Records a warning. -/
def logWarning (text : String) : Act σ Unit := note (.warning text)

/-- Runs an act and then puts a part of the state back, whether or not the act fails. -/
def restoring (restore : Session σ → Session σ → Session σ) (a : Act σ α) : Act σ α := fun s =>
  let (r, t) := a.runOn s
  (r, restore s t)

/-- Runs an act with variables of its own and gives what they are in the end. -/
def inFrame (vars : Entries) (a : Act σ α) : Act σ (α × Entries) :=
  restoring (fun before after => { after with frame := before.frame }) do
    modify fun s => { s with frame := Entries.update [] vars }
    let r ← a
    return (r, (← get).frame)

/-- Runs an act as what a choice does, one level deeper. The choice is left however the act ends. -/
def deeper (c : Choice) (a : Act σ α) : Act σ α :=
  restoring Session.leave do
    modify (·.enter c)
    a

/-- Runs an act of a host that uses the means of a session, without a trail of its own. -/
def aside (a : Act σ α) : Act σ α :=
  restoring (fun before after => { after with trail := before.trail }) a

/-- The result of an act or its fault; the act itself does not fail any more, unless the fault
escapes. -/
def attempt (a : Act σ α) : Act σ (Except Fault α) := fun s =>
  proceed (a.runOn s) (fun x t => (.ok (.ok x), t)) fun f t =>
    bif f.escapes then (.error f, t) else (.ok (.error f), t)

/-- Sets shared variables. -/
def updateShared (extra : Entries) : Act σ Unit :=
  modify fun s => { s with shared := s.shared.update extra }

/-- Changes the variables of the running macro. -/
def changeFrame (f : Entries → Entries) : Act σ Unit :=
  modify fun s => { s with frame := f s.frame }

/-- Sets variables of the running macro. -/
def updateFrame (extra : Entries) : Act σ Unit :=
  changeFrame (·.update extra)

/-- Copies the variables of the running macro to the shared ones. -/
def pushFrame : Act σ Unit :=
  modify fun s => { s with shared := s.shared.update s.frame }

/-- Copies the shared variables to those of the running macro. -/
def pullFrame : Act σ Unit := do
  updateFrame (← get).shared

/-- Takes the pending cancellation, which is then no longer pending. -/
def takePending : Act σ (Option String) := do
  match (← get).pending with
  | none => return none
  | some reason =>
    modify fun s => { s with pending := none }
    remember (.consumed reason)
    return some reason

/-- Fails with the pending cancellation, if there is one. -/
def raisePending : Act σ Unit := do
  match ← takePending with
  | some reason => throw (.cancelled reason)
  | none => return ()

/-- Makes a cancellation of a choice pending. Only the outermost choice tells the user. -/
def recordCancellation (host : Host σ) (c : Choice) (preset reason : String) : Act σ Unit := do
  modify fun s => { s with pending := some reason }
  remember (.recorded c reason)
  let s ← get
  if 1 < s.depth then return ()
  else
    let subject := c.kind ++ " '" ++ c.name.display ++ "'"
    match cancellationNotice s.config subject preset reason with
    | some text => ask (.notify text) (host.notify text)
    | none => return ()

end Act

/-! ### Finding choices -/

/-- A choice with its place in the document, if it stands there: the positions in the lists that
lead to it, the outermost first. -/
structure Placed where
  choice : Choice
  place : Option (List Nat)

namespace Placed

mutual

/-- The choice at a place and the choices under it. -/
def under (place : List Nat) : Choice → List Placed
  | .multi h cs collapsed => ⟨.multi h cs collapsed, some place⟩ :: allUnder place 0 cs
  | c => [⟨c, some place⟩]

/-- The choices of a list from a position on, and the choices under them. -/
def allUnder (place : List Nat) (position : Nat) : List Choice → List Placed
  | [] => []
  | c :: cs => under (place ++ [position]) c ++ allUnder place (position + 1) cs

end

/-- All choices of a document outside of macros. -/
def all (d : Document) : List Placed := allUnder [] 0 d.choices

/-- The first choice with an id. -/
def withId? (d : Document) (id : Value) : Option Placed :=
  (all d).find? fun p => p.choice.id.same id

/-- The first choice with a name. -/
def withName? (d : Document) (name : Value) : Option Placed :=
  (all d).find? fun p => p.choice.name.same name

/-! A place is the identity of a choice: choices that are alike stand at different places. So the
list that a choice stands in is found by going through the lists and comparing places. -/

mutual

/-- The list in which something stands, if it is the choice at a place or one under it. -/
def listUnder? (wanted place : List Nat) (siblings : List Choice) : Choice → Option (List Choice)
  | .multi _ cs _ => if place = wanted then some siblings else listIn? wanted place cs 0 cs
  | _ => if place = wanted then some siblings else none

/-- The list in which something stands, if it is among the choices of a list from a position on, or
under them. -/
def listIn? (wanted place : List Nat) (siblings : List Choice) (position : Nat) :
    List Choice → Option (List Choice)
  | [] => none
  | c :: cs =>
    match listUnder? wanted (place ++ [position]) siblings c with
    | some found => some found
    | none => listIn? wanted place siblings (position + 1) cs

end

/-- The list of the document in which a choice stands, if it stands in the document. -/
def list? (d : Document) (p : Placed) : Option (List Choice) :=
  p.place.bind fun place => listIn? place [] d.choices 0 d.choices

end Placed

end Choicebook
