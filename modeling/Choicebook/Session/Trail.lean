import Choicebook.Choice.Basic
import Choicebook.Session.Event

/-!
# The trail of a session

A session keeps a detailed record of its runs beside the events that show outside: which choices and
commands it begins, what it asks its host for, what fails, and what becomes of cancellations. A
`Moment` is one entry of that record; it holds the variables and the rest of the small state of the
session at that time. Some moments have a line in the log of a verbose run, `Moment.line?`.
-/

namespace Choicebook

/-- What a moment of a run is about. -/
inductive Mark where
  /-- A choice is to run, if the nesting limit allows it. -/
  | called (c : Choice)
  /-- A choice runs, one level deeper than what runs it. -/
  | entered (c : Choice)
  /-- A macro begins a command. The macro is named by its choice. -/
  | started (owner : Value) (c : Command)
  /-- A command has ended without a fault. `target` is the other choice that it ran, if any. -/
  | finished (owner : Value) (c : Command) (target : Option Choice)
  /-- The host is asked for something. -/
  | asked (e : Event)
  /-- Something fails here; what fails because of it has no moment of its own. -/
  | failed (f : Fault)
  /-- A script carries on after a failure. -/
  | caught (f : Fault)
  /-- A cancellation becomes pending at the end of a choice. -/
  | recorded (c : Choice) (reason : String)
  /-- A pending cancellation is taken up. -/
  | consumed (reason : String)
  /-- A script leaves the shared variables to another choice, with those it hands over. -/
  | lent
  /-- The other choice is over, and the shared variables are cleared. -/
  | cleared

/-- A moment of a run. -/
structure Moment where
  mark : Mark
  shared : Entries
  frame : Entries
  pending : Option String
  depth : Nat
  /-- The choices that are running inside of each other, the innermost first. -/
  running : List Choice

namespace Moment

/-- The line of the moment in a detailed log, if it has one. -/
def line? (m : Moment) : Option String :=
  match m.mark with
  | .entered c =>
    some ("executing " ++ c.kind ++ " choice '" ++ c.name.display ++ "' (depth "
      ++ toString m.depth ++ ")")
  | .started owner c =>
    some ("macro '" ++ owner.display ++ "': " ++ c.kind ++ " command '" ++ c.name.display ++ "'")
  | .recorded c reason =>
    if 1 < m.depth then
      some ("abort in '" ++ c.name.display ++ "' passed to enclosing frame: " ++ reason)
    else none
  | _ => none

end Moment

end Choicebook
