import Choicebook.Condition.Basic
import Choicebook.Editor.Action

/-!
# Choices, macros and commands

A document is a tree of choices. A choice creates a note from a template, captures a line, runs a
macro, or offers a menu of further choices. A macro is a list of commands, and a command may hold a
choice or, if it is conditional, two lists of commands.

Names and ids are whatever values the document gives. The settings of a script command can be filled
in while a session runs, and one macro can occur at several places of a document, so each script
command has a `slot`: commands that are the same one have the same slot.
-/

namespace Choicebook

/-- What all choices have. -/
structure ChoiceHead where
  name : Value
  id : Value
  /-- Whether the host offers the choice as a command of its own. -/
  isCommand : Bool

/-- What all commands have. -/
structure CommandHead where
  name : Value
  id : Value

mutual

/-- A choice. -/
inductive Choice where
  | template (head : ChoiceHead) (payload : List (Value × Value))
  | capture (head : ChoiceHead) (payload : List (Value × Value))
  | ofMacro (head : ChoiceHead) (body : Option Macro)
  | multi (head : ChoiceHead) (choices : List Choice) (collapsed : Bool)

/-- A list of commands with a name. -/
inductive Macro where
  | mk (id name : Value) (commands : List Command) (runOnStartup : Bool)

/-- One step of a macro. -/
inductive Command where
  /-- A command that the host knows by id. -/
  | host (head : CommandHead) (commandId : String)
  | script (head : CommandHead) (path : String) (settings : List (Value × Value)) (slot : Nat)
  /-- Another choice of the document, by id. -/
  | choice (head : CommandHead) (choiceId : String)
  /-- A choice of its own. -/
  | nested (head : CommandHead) (inner : Option Choice)
  /-- A pause, in milliseconds. -/
  | wait (head : CommandHead) (time : Double)
  | editor (head : CommandHead) (action : EditorAction)
  | conditional (head : CommandHead) (condition : Condition)
      (thenCommands elseCommands : List Command)
  | assistant (head : CommandHead) (payload : List (Value × Value))
  | openFile (head : CommandHead) (path : String) (inNewTab : Bool) (direction : Value)

end

namespace Choice

/-- What the choice has in common with all others. -/
def head : Choice → ChoiceHead
  | template h _ => h
  | capture h _ => h
  | ofMacro h _ => h
  | multi h _ _ => h

def name (c : Choice) : Value := c.head.name

def id (c : Choice) : Value := c.head.id

/-- The name of the kind of a choice. -/
def kind : Choice → String
  | template .. => "Template"
  | capture .. => "Capture"
  | ofMacro .. => "Macro"
  | multi .. => "Multi"

/-- The kinds of choices. -/
def kinds : List String := ["Template", "Capture", "Macro", "Multi"]

end Choice

namespace Macro

def id : Macro → Value
  | mk i _ _ _ => i

def name : Macro → Value
  | mk _ n _ _ => n

def commands : Macro → List Command
  | mk _ _ cs _ => cs

def runOnStartup : Macro → Bool
  | mk _ _ _ r => r

end Macro

namespace Command

/-- What the command has in common with all others. -/
def head : Command → CommandHead
  | host h _ => h
  | script h _ _ _ => h
  | choice h _ => h
  | nested h _ => h
  | wait h _ => h
  | editor h _ => h
  | conditional h _ _ _ => h
  | assistant h _ => h
  | openFile h _ _ _ => h

def name (c : Command) : Value := c.head.name

def id (c : Command) : Value := c.head.id

/-- The name of the kind of a command. -/
def kind : Command → String
  | host .. => "Obsidian"
  | script .. => "UserScript"
  | choice .. => "Choice"
  | nested .. => "NestedChoice"
  | wait .. => "Wait"
  | editor .. => "EditorCommand"
  | conditional .. => "Conditional"
  | assistant .. => "AIAssistant"
  | openFile .. => "OpenFile"

/-- The kinds of commands. -/
def kinds : List String :=
  ["Obsidian", "UserScript", "Choice", "Wait", "NestedChoice", "EditorCommand", "AIAssistant",
   "OpenFile", "Conditional"]

end Command

/-- A document: its choices, the macros kept beside them, and its settings. -/
structure Document where
  choices : List Choice
  macros : List Macro
  settings : Entries

namespace Document

/-- A document without anything. -/
def empty : Document := ⟨[], [], []⟩

end Document

end Choicebook
