import Choicebook.Choice.Basic
import Choicebook.Encoding

/-!
# Choices as values

How choices, macros and commands are stored: as mappings with fixed keys in a fixed order. A payload
is stored as it was read.
-/

namespace Choicebook

/-- Entries with text keys. -/
def record (fields : List (String × Value)) : Entries :=
  fields.map fun (k, v) => (.text k, v)

namespace Condition

/-- A condition as it is stored. -/
def toValue : Condition → Value
  | onVariable c =>
    .map (record ([("mode", .text "variable"), ("variableName", .text c.subject),
        ("operator", c.operator.toValue), ("valueType", c.valueType.toValue)]
      ++ (match c.expected with
          | some s => [("expectedValue", .text s)]
          | none => [])))
  | byScript path member =>
    .map (record ([("mode", .text "script"), ("scriptPath", .text path)]
      ++ (if member.isTruthy then [("exportName", member)] else [])))

end Condition

namespace Command

/-- The entries that all commands are stored with. -/
def headEntries (c : Command) : Entries :=
  record [("id", c.id), ("name", c.name), ("type", .text c.kind)]

end Command

namespace Choice

/-- The entries that all choices are stored with. -/
def headEntries (c : Choice) : Entries :=
  record [("id", c.id), ("name", c.name), ("type", .text c.kind),
    ("command", .bool c.head.isCommand)]

end Choice

mutual

/-- A choice as it is stored. -/
def Choice.toValue : Choice → Value
  | .template h payload => .map (Entries.update (Choice.template h payload).headEntries payload)
  | .capture h payload => .map (Entries.update (Choice.capture h payload).headEntries payload)
  | .ofMacro h none => .map ((Choice.ofMacro h none).headEntries ++ record [("macro", .null)])
  | .ofMacro h (some m) =>
    .map ((Choice.ofMacro h none).headEntries ++ record [("macro", Macro.toValue m)])
  | .multi h cs collapsed =>
    .map ((Choice.multi h [] collapsed).headEntries
      ++ record [("collapsed", .bool collapsed), ("choices", .list (Choice.toValues cs))])

/-- A list of choices as it is stored. -/
def Choice.toValues : List Choice → List Value
  | [] => []
  | c :: cs => Choice.toValue c :: Choice.toValues cs

/-- A macro as it is stored. -/
def Macro.toValue : Macro → Value
  | .mk i n cs r =>
    .map (record [("id", i), ("name", n), ("runOnStartup", .bool r),
      ("commands", .list (Command.toValues cs))])

/-- A command as it is stored. -/
def Command.toValue : Command → Value
  | .host h commandId =>
    .map ((Command.host h commandId).headEntries ++ record [("commandId", .text commandId)])
  | .script h path settings slot =>
    .map ((Command.script h path settings slot).headEntries
      ++ record [("path", .text path), ("settings", .map settings)])
  | .choice h choiceId =>
    .map ((Command.choice h choiceId).headEntries ++ record [("choiceId", .text choiceId)])
  | .nested h none => .map ((Command.nested h none).headEntries ++ record [("choice", .null)])
  | .nested h (some c) =>
    .map ((Command.nested h none).headEntries ++ record [("choice", Choice.toValue c)])
  | .wait h time => .map ((Command.wait h time).headEntries ++ record [("time", .float time)])
  | .editor h action =>
    .map ((Command.editor h action).headEntries
      ++ record [("editorCommandType", .text action.label)])
  | .conditional h c thens elses =>
    .map ((Command.conditional h c [] []).headEntries
      ++ record [("condition", c.toValue), ("thenCommands", .list (Command.toValues thens)),
        ("elseCommands", .list (Command.toValues elses))])
  | .assistant h payload => .map (Entries.update (Command.assistant h payload).headEntries payload)
  | .openFile h path inNewTab direction =>
    .map ((Command.openFile h path inNewTab direction).headEntries
      ++ record ([("filePath", .text path), ("openInNewTab", .bool inNewTab)]
        ++ (if direction.isTruthy then [("direction", direction)] else [])))

/-- A list of commands as it is stored. -/
def Command.toValues : List Command → List Value
  | [] => []
  | c :: cs => Command.toValue c :: Command.toValues cs

end

namespace Document

/-- A document as it is stored; macros and settings are left out if there are none. -/
def toValue (d : Document) : Value :=
  .map (record ([("choices", .list (Choice.toValues d.choices))]
    ++ (if d.macros.isEmpty then [] else [("macros", .list (d.macros.map Macro.toValue))])
    ++ (if d.settings.isEmpty then [] else [("settings", .map d.settings)])))

/-- A document as a text in a format. -/
def write (format : String) (d : Document) : Except Fault String :=
  Encoding.write (some format) true d.toValue

end Document

end Choicebook
