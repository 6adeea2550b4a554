import Choicebook.Value.Basic

/-!
# What happens in a session

A session keeps a record of everything it does that shows outside. Mappings are recorded as they are
at that moment.
-/

namespace Choicebook

/-- Something that a session does. -/
inductive Event where
  | warning (text : String)
  | failure (text : String)
  /-- The host is asked to run a command. -/
  | command (id : String)
  | edit (label : String)
  | suggest (labels : List Value) (placeholder : Value)
  | prompt (header : String) (preset : Option String)
  | template (name : Value) (payload vars : List (Value × Value))
  | capture (name : Value) (payload vars : List (Value × Value))
  | load (path : String)
  | assistant (name : Value) (payload vars : List (Value × Value))
  | openFile (path : String) (inNewTab : Bool) (direction : Value)
  | notify (text : String)
  | sleep (seconds : Double)
  /-- A script reports its call. -/
  | script (label : String) (arguments : Nat) (vars settings : Option (List (Value × Value)))
  | shared (vars : List (Value × Value))
  /-- The reader of a console is asked for a line. -/
  | read (prompt : String)

end Choicebook
