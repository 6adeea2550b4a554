import Choicebook.Choice.Basic

/-!
# Listings of choices

A listing shows one choice or command per line, deeper ones indented further. Values that are
neither choices nor commands can be listed as well.
-/

namespace Choicebook

/-- Joins lines. -/
def joinLines (lines : List String) : String := "\n".intercalate lines

/-- How deep a listing indents: the width of a level, and the level to start from. Negative numbers
indent nothing. -/
structure Margin where
  width : Int
  level : Int

namespace Margin

/-- The blanks of one level. -/
def unit (m : Margin) : String := Text.repeated " " m.width.toNat

/-- The blanks in front of a line. -/
def pad (m : Margin) : String := Text.repeated m.unit m.level.toNat

/-- One level deeper. -/
def deeper (m : Margin) : Margin := { m with level := m.level + 1 }

end Margin

namespace Choice

/-- The line of a choice. -/
def headLine (m : Margin) (c : Choice) : String :=
  m.pad ++ c.kind ++ ": " ++ c.name.display ++ (if c.head.isCommand then " [command]" else "")

end Choice

namespace Command

/-- The line of a command, with a remark between parentheses if there is one. -/
def headLine (m : Margin) (c : Command) (remark : String) : String :=
  let label := if c.name.isTruthy then c.name.display else c.kind
  m.pad ++ "- " ++ c.kind ++ ": " ++ label ++ (if remark.isEmpty then "" else " (" ++ remark ++ ")")

end Command

mutual

/-- The lines of a choice. -/
def Choice.lines (m : Margin) : Choice → Except Fault (List String)
  | .template h payload => .ok [(Choice.template h payload).headLine m]
  | .capture h payload => .ok [(Choice.capture h payload).headLine m]
  | .ofMacro h none => .ok [(Choice.ofMacro h none).headLine m, m.deeper.pad ++ "(no macro)"]
  | .ofMacro h (some b) => do
    let body ← Macro.bodyLines m.deeper b
    .ok ((Choice.ofMacro h none).headLine m :: body)
  | .multi h cs collapsed =>
    let head := (Choice.multi h [] collapsed).headLine m
    if collapsed then .ok [head ++ " (" ++ toString cs.length ++ " hidden)"]
    else do
      let inner ← Choice.linesAll m.deeper cs
      .ok (head :: inner)

/-- The lines of a list of choices. -/
def Choice.linesAll (m : Margin) : List Choice → Except Fault (List String)
  | [] => .ok []
  | c :: cs => do
    let first ← Choice.lines m c
    let others ← Choice.linesAll m cs
    .ok (first ++ others)

/-- The lines of the commands of a macro. -/
def Macro.bodyLines (m : Margin) : Macro → Except Fault (List String)
  | .mk _ _ cs _ => Command.linesAll m cs

/-- The lines of a command. -/
def Command.lines (m : Margin) : Command → Except Fault (List String)
  | .host h commandId => .ok [(Command.host h commandId).headLine m commandId]
  | .script h path settings slot => .ok [(Command.script h path settings slot).headLine m path]
  | .choice h choiceId => .ok [(Command.choice h choiceId).headLine m ("choice " ++ choiceId)]
  | .nested h none => .ok [(Command.nested h none).headLine m ""]
  | .nested h (some c) => do
    let inner ← Choice.lines m.deeper c
    .ok ((Command.nested h none).headLine m "" :: inner)
  | .wait h time => .ok [(Command.wait h time).headLine m (time.render .listing ++ " ms")]
  | .editor h action => .ok [(Command.editor h action).headLine m action.label]
  | .conditional _ c thens elses => do
    let question ← c.describe
    let whenTrue ← Command.linesAll m.deeper.deeper thens
    let whenFalse ← Command.linesAll m.deeper.deeper elses
    let nothing := [m.deeper.pad ++ m.unit ++ "(nothing)"]
    .ok ([m.pad ++ "- If " ++ question, m.deeper.pad ++ "then:"]
      ++ (if whenTrue.isEmpty then nothing else whenTrue)
      ++ (if elses.isEmpty then [] else (m.deeper.pad ++ "else:") :: whenFalse))
  | .assistant h payload => .ok [(Command.assistant h payload).headLine m ""]
  | .openFile h path inNewTab direction =>
    .ok [(Command.openFile h path inNewTab direction).headLine m
      (path ++ (if inNewTab then " in new tab" else ""))]

/-- The lines of a list of commands. -/
def Command.linesAll (m : Margin) : List Command → Except Fault (List String)
  | [] => .ok []
  | c :: cs => do
    let first ← Command.lines m c
    let others ← Command.linesAll m cs
    .ok (first ++ others)

end

namespace Macro

/-- The lines of a macro. -/
def lines (m : Margin) (b : Macro) : Except Fault (List String) := do
  let body ← b.bodyLines m.deeper
  .ok ((m.pad ++ b.name.display ++ (if b.runOnStartup then " [startup]" else "")) :: body)

/-- The lines of a list of macros. -/
def linesAll (m : Margin) : List Macro → Except Fault (List String)
  | [] => .ok []
  | b :: bs => do
    let first ← b.lines m
    let others ← linesAll m bs
    .ok (first ++ others)

end Macro

namespace Document

/-- The listing of a document. -/
def listing (m : Margin) (d : Document) : Except Fault String := do
  let choices ← Choice.linesAll m d.choices
  let macros ← Macro.linesAll m.deeper d.macros
  .ok (joinLines (choices ++ (if d.macros.isEmpty then [] else (m.pad ++ "Macros:") :: macros)))

end Document

namespace Value

mutual

/-- The listing of a value: an entry of a mapping or an item of a list per line. -/
def listing (m : Margin) : Value → String
  | .map es => joinLines (es.map fun (k, v) => m.pad ++ k.display ++ ": " ++ v.quoted)
  | .list xs | .tuple xs => joinLines (listingItems m xs)
  | v => m.pad ++ v.quoted

/-- The listings of the items of a list. -/
def listingItems (m : Margin) : List Value → List String
  | [] => []
  | x :: xs => listing m x :: listingItems m xs

end

end Value

end Choicebook
