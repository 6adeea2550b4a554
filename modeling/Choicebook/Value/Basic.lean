import Choicebook.Calendar
import Choicebook.Number.Double

/-!
# Values

A `Value` is what a variable holds, what a document is made of, and what a script exports: plain
data (null, truth values, numbers, texts, bytes, dates, and containers) and four kinds of thing that
only scripts bring: objects with named members, libraries, kinds, and functions.

A function is a program of `Step`s. It takes the parameters of a run and, depending on its `Arity`,
the settings of the command that runs it; a step reads what it needs through an `Operand`. Values
are trees, and steps put new values into variables; no step changes a value in place.
-/

namespace Choicebook

/-- Which positional arguments a function takes. -/
inductive Arity where
  | none
  | noneOrOne
  | one
  | two
  | three
  | oneOrTwo
  /-- One argument, and a second one that only its name can pass. -/
  | oneAndNamed
  | any
  /-- Any number, but the function does not say so. -/
  | undeclared
  deriving DecidableEq, Repr

mutual

/-- A value of a variable, a document or a script. -/
inductive Value where
  | null
  | bool (b : Bool)
  | int (n : Int)
  | float (x : Double)
  | text (s : String)
  | bytes (bs : List UInt8)
  | date (d : Date)
  | time (t : ClockTime)
  | dateTime (d : DateTime)
  | list (items : List Value)
  | tuple (items : List Value)
  /-- A set, with its items in some order; no order is better than another one. -/
  | set (items : List Value)
  /-- A mapping, in the order in which its keys were first added. -/
  | map (entries : List (Value × Value))
  /-- A plain object with named members. -/
  | object (members : List (String × Value))
  /-- A library, with the members it defines. -/
  | library (members : List (String × Value))
  /-- A kind of objects, which can be called like a function. -/
  | kind (name : String)
  | function (label : String) (arity : Arity) (steps : List Step)

/-- What a step computes with. -/
inductive Operand where
  | literal (v : Value)
  /-- A variable of the run, null if it is not set. -/
  | named (name : String)
  /-- A setting of the command. -/
  | setting (key : String)
  /-- How many arguments the function was called with. -/
  | argumentCount

/-- One step of a script. A step that changes a variable puts another value into it, and leaves the
value that was there as it is, whatever else holds it. -/
inductive Step where
  | assign (name : String) (x : Operand)
  | discard (name : String)
  /-- Reports the call: how many arguments, the variables and the settings. -/
  | record (label : String)
  /-- Reports the variables that all choices of the session share. -/
  | recordShared
  | abort (reason : Option String)
  | fail (kind message : String)
  /-- Looks at a parameter of the run by name. -/
  | inspect (key into : String)
  /-- Lists the names of the variables in the order in which they are stored. -/
  | listNames (into : String)
  /-- Runs another choice by name, with extra variables. -/
  | runChoice (name : String) (vars : Value)
  /-- Lets the user pick an item; the labels are given one by one. -/
  | pick (labels items : List Value) (placeholder : Option String) (into : String)
  /-- Lets the user pick an item labelled with its text in capitals. -/
  | pickCapitals (items : List Value) (placeholder : Option String) (into : String)
  /-- Lets the user pick an item labelled with its position. -/
  | pickByPosition (items : List Value) (placeholder : Option String) (into : String)
  | ask (header : String) (preset : Option String) (into : String)
  /-- Runs steps; a failure ends them, and its description goes into a variable. -/
  | attempt (steps : List Step) (into : String)
  | finish (x : Operand)

end

instance : Inhabited Value := ⟨.null⟩

end Choicebook
