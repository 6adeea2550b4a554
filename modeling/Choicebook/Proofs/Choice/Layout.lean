import Choicebook.Proofs.Choice.Stored

/-!
# What is stored of choices and commands

Everything that a document is made of is stored in the same way: the fields of its head, then the
fields of its kind, then a payload. `Choice.ownFields` and `Command.ownFields` say which fields a
kind has, and `Choice.toValue_eq` and `Command.toValue_eq` that the writer stores no others. What
`stored` gives is what an encoder gets to see.
-/

namespace Choicebook

open Encoding (plainField plainPayload plain_record plain_update_record)

/-! ### Fields -/

/-- A head as it is stored. -/
def CommandHead.plain (h : CommandHead) : CommandHead :=
  ⟨Encoding.plain h.name, Encoding.plain h.id⟩

/-- A head as it is stored. -/
def ChoiceHead.plain (h : ChoiceHead) : ChoiceHead :=
  ⟨Encoding.plain h.name, Encoding.plain h.id, h.isCommand⟩

namespace Condition

/-- The fields of a condition. -/
def fields : Condition → List (String × Value)
  | onVariable c =>
    ("mode", .text "variable") :: ("variableName", .text c.subject)
      :: ("operator", c.operator.toValue) :: ("valueType", c.valueType.toValue)
      :: c.expected.toList.map fun s => ("expectedValue", .text s)
  | byScript path member =>
    ("mode", .text "script") :: ("scriptPath", .text path)
      :: if member.isTruthy then [("exportName", member)] else []

end Condition

namespace Command

/-- The fields that a kind of command has beside those of the head. -/
def ownFields : Command → List (String × Value)
  | host _ commandId => [("commandId", .text commandId)]
  | script _ path settings _ => [("path", .text path), ("settings", .map settings)]
  | choice _ choiceId => [("choiceId", .text choiceId)]
  | nested _ inner => [("choice", (inner.map Choice.toValue).getD .null)]
  | wait _ time => [("time", .float time)]
  | editor _ action => [("editorCommandType", .text action.label)]
  | conditional _ c thens elses =>
    [("condition", c.toValue), ("thenCommands", .list (thens.map toValue)),
     ("elseCommands", .list (elses.map toValue))]
  | assistant _ _ => []
  | openFile _ path inNewTab direction =>
    ("filePath", .text path) :: ("openInNewTab", .bool inNewTab)
      :: if direction.isTruthy then [("direction", direction)] else []

/-- The names of the head of a command. -/
def headNames : List String := ["id", "name", "type"]

/-- The fields of a command, those of the head first. -/
def fields (c : Command) : List (String × Value) :=
  ("id", c.id) :: ("name", c.name) :: ("type", .text c.kind) :: c.ownFields

/-- The entries that a command takes over as they are. -/
def payload : Command → Entries
  | assistant _ payload => payload
  | _ => []

end Command

namespace Macro

/-- The fields of a macro. -/
def fields (b : Macro) : List (String × Value) :=
  [("id", b.id), ("name", b.name), ("runOnStartup", .bool b.runOnStartup),
   ("commands", .list (b.commands.map Command.toValue))]

end Macro

namespace Choice

/-- The fields that a kind of choice has beside those of the head. -/
def ownFields : Choice → List (String × Value)
  | template _ _ => []
  | capture _ _ => []
  | ofMacro _ body => [("macro", (body.map Macro.toValue).getD .null)]
  | multi _ cs collapsed => [("collapsed", .bool collapsed), ("choices", .list (cs.map toValue))]

/-- The names of the head of a choice. -/
def headNames : List String := ["id", "name", "type", "command"]

/-- The fields of a choice, those of the head first. -/
def fields (c : Choice) : List (String × Value) :=
  ("id", c.id) :: ("name", c.name) :: ("type", .text c.kind) :: ("command", .bool c.head.isCommand)
    :: c.ownFields

/-- The entries that a choice takes over as they are. -/
def payload : Choice → Entries
  | template _ payload => payload
  | capture _ payload => payload
  | _ => []

end Choice

namespace Document

/-- The fields of a document; macros and settings are left out if there are none. -/
def fields (d : Document) : List (String × Value) :=
  ("choices", .list (d.choices.map Choice.toValue))
    :: (if d.macros.isEmpty then [] else [("macros", .list (d.macros.map Macro.toValue))])
    ++ (if d.settings.isEmpty then [] else [("settings", .map d.settings)])

end Document

/-! ### The writer -/

theorem Condition.toValue_eq (c : Condition) : c.toValue = .map (record c.fields) := by
  cases c with
  | onVariable c => rcases c with ⟨subject, operator, valueType, _ | s⟩ <;> rfl
  | byScript path member => rfl

theorem Command.toValues_eq (cs : List Command) : Command.toValues cs = cs.map Command.toValue := by
  induction cs with
  | nil => rfl
  | cons c cs ih => rw [toValues, ih, List.map_cons]

theorem Choice.toValues_eq (cs : List Choice) : Choice.toValues cs = cs.map Choice.toValue := by
  induction cs with
  | nil => rfl
  | cons c cs ih => rw [toValues, ih, List.map_cons]

theorem Command.toValue_eq (c : Command) :
    c.toValue = .map (Entries.update (record c.fields) c.payload) := by
  cases c with
  | nested h inner => cases inner <;> rfl
  | conditional h c thens elses => rw [toValue, toValues_eq, toValues_eq]; rfl
  | _ => rfl

theorem Macro.toValue_eq (b : Macro) : b.toValue = .map (record b.fields) := by
  cases b with
  | mk i n cs r => rw [toValue, Command.toValues_eq]; rfl

theorem Choice.toValue_eq (c : Choice) :
    c.toValue = .map (Entries.update (record c.fields) c.payload) := by
  cases c with
  | ofMacro h body => cases body <;> rfl
  | multi h cs collapsed => rw [toValue, toValues_eq]; rfl
  | _ => rfl

theorem Document.toValue_eq (d : Document) : d.toValue = .map (record d.fields) := by
  rw [toValue, Choice.toValues_eq]
  rfl

/-! ### What is stored -/

/-- What an encoder is given of a condition. -/
def Condition.stored (c : Condition) : Value := Encoding.plain c.toValue

/-- What an encoder is given of a command. -/
def Command.stored (c : Command) : Value := Encoding.plain c.toValue

/-- What an encoder is given of a macro. -/
def Macro.stored (b : Macro) : Value := Encoding.plain b.toValue

/-- What an encoder is given of a choice. -/
def Choice.stored (c : Choice) : Value := Encoding.plain c.toValue

/-- What an encoder is given of a document. -/
def Document.stored (d : Document) : Value := Encoding.plain d.toValue

theorem Condition.stored_eq (c : Condition) :
    c.stored = .map (record (c.fields.map plainField)) := by
  have hnames : (c.fields.map Prod.fst).Nodup := by
    cases c with
    | onVariable c => rcases c with ⟨subject, operator, valueType, _ | s⟩ <;> simp [fields]
    | byScript path member => by_cases h : member.isTruthy = true <;> simp [fields, h]
  rw [stored, toValue_eq, plain_record hnames]

theorem Command.fields_nodup (c : Command) : (c.fields.map Prod.fst).Nodup := by
  cases c with
  | openFile head path inNewTab direction =>
    by_cases h : direction.isTruthy = true <;> simp [fields, ownFields, h]
  | _ => simp [fields, ownFields]

theorem Choice.fields_nodup (c : Choice) : (c.fields.map Prod.fst).Nodup := by
  cases c <;> simp [fields, ownFields]

/-- A command is stored field by field, with its payload behind the fields. -/
theorem Command.stored_eq {c : Command} (h : Entries.Free headNames c.payload) :
    c.stored = .map (record (c.fields.map plainField) ++ plainPayload c.payload) := by
  have hnames : headNames ⊆ Value.headNames := by decide
  rw [stored, toValue_eq]
  -- an assistant has no fields of its own, and all others have no payload
  cases c with
  | assistant head payload => exact plain_update_record (fields_nodup _) hnames h
  | _ => exact (plain_record (fields_nodup _)).trans (congrArg Value.map (List.append_nil _).symm)

theorem Macro.stored_eq (b : Macro) : b.stored = .map (record (b.fields.map plainField)) := by
  rw [stored, toValue_eq, plain_record (by simp [fields])]

/-- A choice is stored field by field, with its payload behind the fields. -/
theorem Choice.stored_eq {c : Choice} (h : Entries.Free headNames c.payload) :
    c.stored = .map (record (c.fields.map plainField) ++ plainPayload c.payload) := by
  have hnames : headNames ⊆ Value.headNames := by decide
  rw [stored, toValue_eq]
  cases c with
  | template head payload => exact plain_update_record (fields_nodup _) hnames h
  | capture head payload => exact plain_update_record (fields_nodup _) hnames h
  | _ => exact (plain_record (fields_nodup _)).trans (congrArg Value.map (List.append_nil _).symm)

theorem Document.fields_nodup (d : Document) : (d.fields.map Prod.fst).Nodup := by
  rw [fields]
  cases d.macros.isEmpty <;> cases d.settings.isEmpty <;> simp

theorem Document.stored_eq (d : Document) :
    d.stored = .map (record (d.fields.map plainField)) := by
  rw [stored, toValue_eq, plain_record d.fields_nodup]

/-! ### Lists -/

theorem Command.plain_list (cs : List Command) :
    Encoding.plain (.list (cs.map toValue)) = .list (cs.map stored) := by
  rw [Encoding.plain, Encoding.plainItems_eq, List.map_map]
  rfl

theorem Macro.plain_list (bs : List Macro) :
    Encoding.plain (.list (bs.map toValue)) = .list (bs.map stored) := by
  rw [Encoding.plain, Encoding.plainItems_eq, List.map_map]
  rfl

theorem Choice.plain_list (cs : List Choice) :
    Encoding.plain (.list (cs.map toValue)) = .list (cs.map stored) := by
  rw [Encoding.plain, Encoding.plainItems_eq, List.map_map]
  rfl

end Choicebook
