import Choicebook.Choice.Reader
import Choicebook.Text.Search

/-!
# Configuration of a session

Three settings of a document are for the session itself; each has two spellings, and of several
entries the last one counts.
-/

namespace Choicebook

/-- The configuration of a session. -/
structure Config where
  /-- Whether to tell the user about cancellations of their own. -/
  announceCancellation : Value
  /-- How many choices may run inside of each other. -/
  maxDepth : Nat
  /-- Whether the other startup macros still run when one of them fails. -/
  isolateStartup : Value

namespace Value

/-- A whole number: a number without its fraction, or the number a text spells. -/
def toInt : Value → Except Fault Int
  | .bool b => .ok (if b then 1 else 0)
  | .int n => .ok n
  | .float x => match x.truncate? with
    | some n => .ok n
    | none => .error (.misuse (if x.isNan then .badValue else .tooLarge))
  | .text s => match Number.readInt s with
    | some n => .ok n
    | none => .error (.misuse .badValue)
  | .bytes bs => match Number.readInt (asciiText bs) with
    | some n => .ok n
    | none => .error (.misuse .badValue)
  | _ => .error (.misuse .wrongType)

end Value

namespace Config

/-- The configuration without any settings. -/
def preset : Config := ⟨.bool true, 64, .bool false⟩

/-- The value of the last entry with one of two names. -/
def lastOf (m : Entries) (first second : String) : Option Value :=
  (m.reverse.find? fun e => e.1.same (.text first) || e.1.same (.text second)).map (·.2)

/-- The configuration that settings ask for. -/
def ofEntries (m : Entries) : Except Fault Config := do
  let depth ← ((lastOf m "maxChoiceDepth" "max_choice_depth").getD (.int preset.maxDepth)).toInt
  if depth < 1 then .error .depthLimitTooSmall
  else
    let announce :=
      lastOf m "showInputCancellationNotification" "show_input_cancellation_notification"
    let isolate := lastOf m "isolateStartupFailures" "isolate_startup_failures"
    .ok ⟨announce.getD preset.announceCancellation, depth.toNat, isolate.getD preset.isolateStartup⟩

/-- The configuration that a value asks for; one that counts as false asks for nothing. -/
def ofValue (v : Value) : Except Fault Config :=
  if v.isTruthy then v.fields.bind ofEntries else ofEntries []

end Config

/-! ### Announcing cancellations -/

/-- Whether a reason says that the user gave up. -/
def isUserCancellation (reason : String) : Bool :=
  Text.contains (Text.lower reason) "cancelled by user"

/-- What to tell the user about a cancellation, if anything. A blank reason is replaced. -/
def cancellationNotice (config : Config) (subject preset reason : String) : Option String :=
  let shown := Text.trim reason
  if !isUserCancellation reason || config.announceCancellation.isTruthy then
    some (subject ++ ": " ++ (if shown.isEmpty then preset else shown))
  else none

end Choicebook
