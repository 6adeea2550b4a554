import Choicebook.Text.Quoted

/-!
# Faults

Why a run, a look-up or the reading of a document fails. Each constructor is a cause; its wording is
`Fault.message?`, and `Fault.kind` is the name under which a script sees it. A `Misuse` is a cause
without a wording of its own: a value that does not allow what is done with it.

A cancellation is a fault of its own kind, because a session treats it differently from all others.
Some faults escape from whatever deals with failures on their way (`Fault.escapes`).
-/

namespace Choicebook

/-- Something done with a value, a file or a number that does not allow it. -/
inductive Misuse where
  | wrongType
  | noAttribute
  | badValue
  | tooLarge
  | missingKey
  | missingIndex
  | missingFile
  | isDirectory
  | notDirectory
  | fileInTheWay
  | undecodable
  | notStorable
  | malformedTemplate
  | missingTemplate
  | tooNested
  /-- A file that may not be written, or a directory in which nothing may be made. -/
  | forbidden
  /-- A path in the home directory of nobody. -/
  | missingHome
  deriving DecidableEq, Repr

/-- The document formats. -/
inductive Format where
  | json
  | yaml
  | toml
  deriving DecidableEq, Repr

/-- Why something failed. -/
inductive Fault where
  /-- The user or a script gave up. -/
  | cancelled (reason : String)
  | choiceNotFound (name : String)
  | ambiguousReference (reference : String)
  | unknownReference (reference : String)
  | missingMember (owner member : String)
  | emptyExport (owner : String)
  | noCommands (owner : String)
  | noScript (owner : String)
  | scriptNotLoaded (owner : String)
  | tooDeep (name : String) (limit : Int)
  | cannotPrompt (host : String)
  | noAssistant (host : String)
  | cannotOpenFiles (host : String)
  | noScriptEvaluator
  | unknownConditionMode (shown : String)
  | unknownCommandType (shown : String)
  | unknownChoiceType (shown : String)
  | unknownEditorCommand (shown : String)
  | notADocument
  | depthLimitTooSmall
  | unsupportedFormat (shown : String)
  | cannotWriteFormat (shown : String)
  | cannotWriteToml
  | invalidDocument (format : Format)
  | unknownHostCommand (id : String)
  | missingParameter (key : String)
  | malformedVariable (shown : String)
  /-- Nothing comes after this: the run stays where it is for ever. -/
  | endless
  /-- A script failed on purpose. -/
  | raised (kind message : String)
  | misuse (m : Misuse)
  deriving DecidableEq, Repr

namespace Misuse

/-- The name under which a script sees the fault. -/
def kind : Misuse → String
  | wrongType => "TypeError"
  | noAttribute => "AttributeError"
  | badValue => "ValueError"
  | tooLarge => "OverflowError"
  | missingKey => "KeyError"
  | missingIndex => "IndexError"
  | missingFile => "FileNotFoundError"
  | isDirectory => "IsADirectoryError"
  | notDirectory => "NotADirectoryError"
  | fileInTheWay => "FileExistsError"
  | undecodable => "UnicodeDecodeError"
  | notStorable => "RepresenterError"
  | malformedTemplate => "ParsingError"
  | missingTemplate => "TemplateNotFoundError"
  | tooNested => "RecursionError"
  | forbidden => "PermissionError"
  | missingHome => "RuntimeError"

end Misuse

namespace Format

/-- The name of the format, as options and file endings spell it. -/
def name : Format → String
  | json => "json"
  | yaml => "yaml"
  | toml => "toml"

/-- The name of the format in messages. -/
def title : Format → String
  | json => "JSON"
  | yaml => "YAML"
  | toml => "TOML"

end Format

namespace Fault

/-- The reason of a cancellation that gives none. -/
def defaultReason : String := "Macro execution aborted"

/-- A cancellation; a missing or empty reason is replaced by the default one. -/
def cancellation (reason : Option String) : Fault :=
  .cancelled (match reason with
    | some r => if r.isEmpty then defaultReason else r
    | none => defaultReason)

/-- The cancellation of a selection or a prompt. -/
def inputCancelled : Fault := .cancelled "Input cancelled by user"

/-- A script's own failure: under the name of a cancellation it is one. -/
def ofRaise (kind message : String) : Fault :=
  if kind = "MacroAbortError" then cancellation (some message) else .raised kind message

/-- The name under which a script sees the fault. -/
def kind : Fault → String
  | cancelled _ => "MacroAbortError"
  | choiceNotFound _ | ambiguousReference _ | unknownReference _ => "ChoiceLookupError"
  | missingMember .. => "MemberAccessError"
  | emptyExport _ | noCommands _ | noScript _ | scriptNotLoaded _ => "UserScriptError"
  | tooDeep .. => "ChoiceRecursionError"
  | cannotPrompt _ | noAssistant _ | cannotOpenFiles _ => "UnsupportedCapabilityError"
  | noScriptEvaluator | unknownConditionMode _ | unknownCommandType _ | unknownChoiceType _
  | unknownEditorCommand _ | notADocument | depthLimitTooSmall | unsupportedFormat _
  | cannotWriteFormat _ | cannotWriteToml | invalidDocument _ => "ValueError"
  | unknownHostCommand _ => "LookupError"
  | missingParameter _ => "KeyError"
  | malformedVariable _ => "SystemExit"
  | endless => "Endless"
  | raised kind _ => kind
  | misuse m => m.kind

/-- The wording of the fault; a misuse has none. -/
def message? : Fault → Option String
  | cancelled reason => some reason
  | choiceNotFound name => some ("Choice named '" ++ name ++ "' not found")
  | ambiguousReference reference =>
    some ("Ambiguous macro reference '" ++ reference
      ++ "'. Please disambiguate by renaming macros.")
  | unknownReference reference => some ("macro '" ++ reference ++ "' does not exist.")
  | missingMember owner member =>
    some ("macro '" ++ owner ++ "' does not export member '" ++ member ++ "'.")
  | emptyExport owner => some ("user script in macro for '" ++ owner ++ "' is an empty object")
  | noCommands owner => some ("macro '" ++ owner ++ "' does not have any commands to execute.")
  | noScript owner => some ("macro '" ++ owner ++ "' does not include a user script command.")
  | scriptNotLoaded owner => some ("failed to load user script for macro '" ++ owner ++ "'.")
  | tooDeep name limit =>
    some ("choice '" ++ name ++ "' exceeded the nesting limit of " ++ toString limit
      ++ "; choices probably reference each other in a cycle")
  | cannotPrompt host => some (host ++ " cannot prompt for input")
  | noAssistant host => some (host ++ " has no AI assistant")
  | cannotOpenFiles host => some (host ++ " cannot open files")
  | noScriptEvaluator => some "script conditions need a script evaluator"
  | unknownConditionMode shown => some ("Unknown condition mode: " ++ shown)
  | unknownCommandType shown => some ("Unknown command type: " ++ shown)
  | unknownChoiceType shown => some ("Unknown choice type: " ++ shown)
  | unknownEditorCommand shown => some ("Unknown editor command type: " ++ shown)
  | notADocument => some "A choices document must be a mapping or a list of choices"
  | depthLimitTooSmall => some "max_choice_depth must be at least 1"
  | unsupportedFormat shown => some ("Unsupported document format: " ++ shown)
  | cannotWriteFormat shown => some ("Unsupported serialization format: " ++ shown)
  | cannotWriteToml => some "TOML serialization is not supported (tomllib is read-only)"
  | invalidDocument format => some ("Invalid " ++ format.title ++ " document")
  | unknownHostCommand id => some ("Unknown command: " ++ id)
  | missingParameter key => some (Text.quoted key)
  | malformedVariable shown => some ("Error: --var expects KEY=VALUE, got " ++ shown)
  | endless => none
  | raised kind message => some (if kind = "KeyError" then Text.quoted message else message)
  | misuse _ => none

/-- The fault in a log line: its wording, or its name between angle brackets. -/
def logged (f : Fault) : String :=
  f.message?.getD ("<" ++ f.kind ++ ">")

/-- The fault as a script writes it down: its name, and its wording if it has one. -/
def described (f : Fault) : String :=
  match f.message? with
  | some m => f.kind ++ ": " ++ m
  | none => f.kind

/-- Whether the fault is a cancellation. -/
def isCancelled : Fault → Bool
  | cancelled _ => true
  | _ => false

/-- The names of failures that end the program, or the task that it runs as. -/
def escapingKinds : List String :=
  ["SystemExit", "KeyboardInterrupt", "GeneratorExit", "CancelledError"]

/-- Whether the fault escapes from what deals with failures. -/
def escapes : Fault → Bool
  | endless => true
  | f => escapingKinds.contains f.kind

@[simp] theorem escapes_cancelled (reason : String) : (cancelled reason).escapes = false := by
  change escapingKinds.contains "MacroAbortError" = false
  decide

end Fault

end Choicebook
