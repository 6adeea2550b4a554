import Choicebook.Choice.Basic
import Choicebook.Number.Reading

/-!
# Choices from values

`Document.ofValue` makes a document of a value. Reading is lenient about what a field holds, because
any value has a text and a truth value, and strict about what has to be a mapping or a list.

What has no id gets one: `new-1`, `new-2` and so on, an outer thing before what is inside it. A
macro choice may name a macro that is kept beside the choices; a name that no macro has is worth a
warning.

The readers descend into a value and take the depth to which they may still do so; `Value.depth` is
enough.
-/

namespace Choicebook

/-- The state of reading documents: how many ids and slots have been given out, and the warnings so
far. -/
structure Reading where
  ids : Nat
  slots : Nat
  warnings : List String

namespace Reading

/-- Nothing read yet. -/
def start : Reading := ⟨0, 0, []⟩

end Reading

/-- Reading that may fail; ids, slots and warnings outlast a failure. -/
abbrev Load := ExceptT Fault (StateM Reading)

mutual

/-- How deep a value is nested. -/
def Value.depth : Value → Nat
  | .list xs | .tuple xs | .set xs => Value.depthAll xs + 1
  | .map es => Value.depthEntries es + 1
  | .object ms | .library ms => Value.depthMembers ms + 1
  | _ => 1

/-- How deep the deepest value of a list is nested. -/
def Value.depthAll : List Value → Nat
  | [] => 0
  | x :: xs => max (Value.depth x) (Value.depthAll xs)

/-- How deep the deepest value of a mapping is nested. -/
def Value.depthEntries : List (Value × Value) → Nat
  | [] => 0
  | (_, v) :: es => max (Value.depth v) (Value.depthEntries es)

/-- How deep the deepest member of an object is nested. -/
def Value.depthMembers : List (String × Value) → Nat
  | [] => 0
  | (_, v) :: ms => max (Value.depth v) (Value.depthMembers ms)

end

namespace Value

/-- The entries of a value that has to be a mapping. -/
def fields : Value → Except Fault Entries
  | .map es => .ok es
  | _ => .error (.misuse .noAttribute)

/-- The items of a value that can be walked through: a text has its characters, a mapping
its keys. -/
def items : Value → Except Fault (List Value)
  | .list xs | .tuple xs | .set xs => .ok xs
  | .text s => .ok (s.toList.map fun c => .text (String.singleton c))
  | .bytes bs => .ok (bs.map fun b => .int b.toNat)
  | .map es => .ok (es.map (·.1))
  | _ => .error (.misuse .wrongType)

/-- The items of a value that may be missing or empty. -/
def itemsIfAny (v : Option Value) : Except Fault (List Value) :=
  match v with
  | some v => if v.isTruthy then v.items else .ok []
  | none => .ok []

/-- The entry that an item stands for: it has to have two parts. -/
def asEntry (v : Value) : Except Fault (Value × Value) := do
  match ← v.items with
  | [k, w] => if k.canBeKey then .ok (k, w) else .error (.misuse .wrongType)
  | _ => .error (.misuse .badValue)

/-- A mapping, or what a list of pairs says as one. -/
def toEntries (v : Value) : Except Fault Entries :=
  match v with
  | .map es => .ok es
  | v => do
    let xs ← v.items
    let pairs ← xs.mapM asEntry
    .ok (Entries.ofPairs pairs)

/-- A mapping that may be missing or empty. -/
def toEntriesIfAny (v : Option Value) : Except Fault Entries :=
  match v with
  | some v => if v.isTruthy then v.toEntries else .ok []
  | none => .ok []

/-- A text as a double. -/
def textToDouble (s : String) : Except Fault Double :=
  match Number.readDouble s with
  | some x => .ok x
  | none => .error (.misuse .badValue)

/-- ASCII bytes as a text; other bytes spell nothing. -/
def asciiText (bs : List UInt8) : String :=
  if bs.all (· < 128) then String.ofList (bs.map fun b => Char.ofNat b.toNat) else ""

/-- A number, or the number a text spells. -/
def toFloat : Value → Except Fault Double
  | .bool b => .ok (Double.ofInt (if b then 1 else 0))
  | .int n => match Double.ofInt? n with
    | some x => .ok x
    | none => .error (.misuse .tooLarge)
  | .float x => .ok x
  | .text s => textToDouble s
  | .bytes bs => textToDouble (asciiText bs)
  | _ => .error (.misuse .wrongType)

end Value

namespace Entries

/-- The value of the first of some names that is present. -/
def first? (m : Entries) (names : List String) : Option Value :=
  names.findSome? m.field?

/-- The text of the first of some names that is present. -/
def firstText (m : Entries) (names : List String) (preset : String) : Except Fault String :=
  match m.first? names with
  | some v => v.written
  | none => .ok preset

/-- The truth value of the first of some names that is present. -/
def firstTruth (m : Entries) (names : List String) : Bool :=
  (m.first? names).any Value.isTruthy

/-- The value of a name, null if there is none. -/
def getOrNull (m : Entries) (name : String) : Value :=
  (m.field? name).getD .null

/-- The kind that the `type` of a mapping names. -/
def kind? (m : Entries) (kinds : List String) : Option String :=
  ((m.field? "type").bind Value.asText?).filter kinds.contains

end Entries

namespace Load

/-- A part of reading that needs no state. -/
def lift {α : Type} (x : Except Fault α) : Load α := fun s => (x, s)

/-- Warns about something. -/
def warn (w : String) : Load Unit :=
  modify fun s => { s with warnings := s.warnings ++ [w] }

/-- The next id. -/
def newId : Load Value := do
  let s ← get
  set { s with ids := s.ids + 1 }
  return .text ("new-" ++ toString (s.ids + 1))

/-- The next slot. -/
def newSlot : Load Nat := do
  let s ← get
  set { s with slots := s.slots + 1 }
  return s.slots

/-- The id of a mapping; one that is missing or empty is made. -/
def idOf (m : Entries) : Load Value :=
  match m.field? "id" with
  | some v => if v.isTruthy then return v else newId
  | none => newId

/-- The macros that choices may name, with their ids. -/
abbrev Table := List (Value × Macro)

/-- The macro with an id. Of several, the last one counts. -/
def macroById? (table : Table) (id : Value) : Option Macro :=
  (table.reverse.find? fun e => e.1.same id).map (·.2)

/-- The macro that a choice names. -/
def namedMacro (table : Table) (choiceName : Value) (m : Entries) : Load (Option Macro) :=
  match (m.first? ["macroId", "macro_id"]).filter Value.isTruthy with
  | none => return none
  | some id => do
    if !id.canBeKey then throw (.misuse .wrongType)
    else
      match macroById? table id with
      | some b => return some b
      | none =>
        warn ("Macro choice '" ++ choiceName.display ++ "' references unknown macro id '"
          ++ id.display ++ "'")
        return none

/-- A condition. -/
def condition (v : Value) : Except Fault Condition := do
  let m ← v.fields
  match (m.field? "mode").getD (.text "variable") with
  | .text "script" =>
    let path ← m.firstText ["scriptPath", "script_path"] ""
    .ok (.byScript path ((m.first? ["exportName", "export_name"]).getD .null))
  | .text "variable" =>
    let subject ← m.firstText ["variableName", "variable_name"] ""
    let expected ← ((m.first? ["expectedValue", "expected_value"]).filter (!·.isNull)).mapM
      Value.written
    .ok (.onVariable
      { subject
        operator := Operator.ofValue ((m.field? "operator").getD (.text "isTruthy"))
        valueType := ValueType.ofValue
          ((m.first? ["valueType", "value_type"]).getD (.text "string"))
        expected })
  | mode => .error (.unknownConditionMode mode.quoted)

/-- The name of a conditional command that has none. -/
def conditionalName (name : Value) : Value :=
  if name.isTruthy then name else .text "If condition"

/-- A list of commands, or of choices, that may be missing or empty. -/
def listOf {α : Type} (read : Value → Load α) (v : Option Value) : Load (List α) := do
  (← lift (Value.itemsIfAny v)).mapM read

/-- A command of a kind, given how to read what is inside of it. -/
def commandOf (readChoice : Value → Load Choice) (readCommand : Value → Load Command)
    (kind : String) (m : Entries) (head : CommandHead) : Load Command :=
  match kind with
  | "Obsidian" => return .host head (← lift (m.firstText ["commandId", "command_id"] ""))
  | "UserScript" => do
    let path ← lift (m.firstText ["path"] "")
    let settings ← lift (Value.toEntriesIfAny (m.field? "settings"))
    let slot ← newSlot
    return .script head path settings slot
  | "Choice" => return .choice head (← lift (m.firstText ["choiceId", "choice_id"] ""))
  | "NestedChoice" =>
    match (m.field? "choice").filter Value.isTruthy with
    | none => return .nested head none
    | some inner => do return .nested head (some (← readChoice inner))
  | "Wait" => do
    let time ← lift (Value.toFloat ((m.field? "time").getD (.int 0)))
    return .wait head time
  | "EditorCommand" => do
    let label ← lift (m.firstText ["editorCommandType", "editor_command_type"] "None")
    match EditorAction.ofText? label with
    | some action => return .editor head action
    | none => throw (.unknownEditorCommand (Text.quoted label))
  | "Conditional" => do
    let c ← lift (condition ((m.field? "condition").filter Value.isTruthy |>.getD (.map [])))
    let thens ← listOf readCommand (m.first? ["thenCommands", "then_commands"])
    let elses ← listOf readCommand (m.first? ["elseCommands", "else_commands"])
    return .conditional { head with name := conditionalName head.name } c thens elses
  | "AIAssistant" => return .assistant head (m.without ["id", "name", "type"])
  | _ =>
    return .openFile head (← lift (m.firstText ["filePath", "file_path"] ""))
      (m.firstTruth ["openInNewTab", "open_in_new_tab"]) (m.getOrNull "direction")

/-- A choice of a kind, given how to read what is inside of it. -/
def choiceOf (table : Table) (readMacro : Value → Load Macro) (readChoice : Value → Load Choice)
    (kind : String) (m : Entries) (head : ChoiceHead) : Load Choice :=
  match kind with
  | "Macro" =>
    match (m.field? "macro").filter Value.isTruthy with
    | some body => do return .ofMacro head (some (← readMacro body))
    | none => do return .ofMacro head (← namedMacro table head.name m)
  | "Multi" => do
    let inner ← listOf readChoice (m.field? "choices")
    return .multi head inner (m.firstTruth ["collapsed"])
  | "Template" => return .template head (m.without ["id", "name", "type", "command"])
  | _ => return .capture head (m.without ["id", "name", "type", "command"])

mutual

/-- A command. -/
def command (table : Table) : (fuel : Nat) → Value → Load Command
  | 0, _ => throw (.misuse .noAttribute)
  | fuel + 1, v => do
    let m ← lift v.fields
    match m.kind? Command.kinds with
    | none => throw (.unknownCommandType (m.getOrNull "type").quoted)
    | some kind =>
      let id ← idOf m
      commandOf (choice table fuel) (command table fuel) kind m
        ⟨(m.field? "name").getD (.text ""), id⟩

/-- A macro. -/
def macroOf (table : Table) : (fuel : Nat) → Value → Load Macro
  | 0, _ => throw (.misuse .noAttribute)
  | fuel + 1, v => do
    let m ← lift v.fields
    let id ← idOf m
    let cs ← listOf (command table fuel) (m.field? "commands")
    return .mk id ((m.field? "name").getD (.text "")) cs
      (m.firstTruth ["runOnStartup", "run_on_startup"])

/-- A choice. -/
def choice (table : Table) : (fuel : Nat) → Value → Load Choice
  | 0, _ => throw (.misuse .noAttribute)
  | fuel + 1, v => do
    let m ← lift v.fields
    match m.kind? Choice.kinds with
    | none => throw (.unknownChoiceType (m.getOrNull "type").quoted)
    | some kind =>
      let id ← idOf m
      choiceOf table (macroOf table fuel) (choice table fuel) kind m
        ⟨(m.field? "name").getD (.text ""), id, m.firstTruth ["command"]⟩

end

end Load

namespace Document

/-- The choices of a document that is a list or a mapping; null has none. -/
def ofValue (v : Value) : Load Document := do
  match v with
  | .null => return .empty
  | .list xs => return ⟨← xs.mapM (Load.choice [] v.depth), [], []⟩
  | .map es =>
    let m : Entries := es
    let macros ← Load.listOf (Load.macroOf [] v.depth) (m.field? "macros")
    if macros.any fun b => !b.id.canBeKey then throw (.misuse .wrongType)
    else
      let table := macros.map fun b => (b.id, b)
      let choices ← Load.listOf (Load.choice table v.depth) (m.field? "choices")
      let settings ← Load.lift (Value.toEntriesIfAny (m.field? "settings"))
      return ⟨choices, macros, settings⟩
  | _ => throw .notADocument

end Document

end Choicebook
