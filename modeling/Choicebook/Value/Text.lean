import Choicebook.Fault
import Choicebook.Number.Notation
import Choicebook.Number.Reading
import Choicebook.Value.Equality

/-!
# Values as text

`Value.quoted` writes a value as it stands inside a container: texts between quotes, containers with
their brackets, dates by their parts. `Value.display` is the same except that a text stands for
itself and a date is written in its calendar form.

A whole number of more digits than can be read is not written either. `Value.written` refuses a
value that has such a number in it. Where a value only stands in a message, it is displayed in any
case.
-/

namespace Choicebook

/-- The parts of a date, or of a time, between parentheses. -/
def callText (name : String) (parts : List String) : String :=
  name ++ "(" ++ String.intercalate ", " parts ++ ")"

namespace ClockTime

/-- The offset as a part of a time: nothing, universal time, or a distance in days and seconds. -/
def offsetParts (t : ClockTime) : List String :=
  match t.offset with
  | none => []
  | some o =>
    if o = 0 then ["tzinfo=datetime.timezone.utc"]
    else
      let seconds := o * 60
      let distance :=
        if seconds < 0 then
          callText "datetime.timedelta" ["days=-1", "seconds=" ++ toString (seconds + 86400)]
        else callText "datetime.timedelta" ["seconds=" ++ toString seconds]
      ["tzinfo=" ++ callText "datetime.timezone" [distance]]

/-- Hour and minute, then the seconds and microseconds unless they are zero. -/
def parts (t : ClockTime) : List String :=
  [toString t.hour, toString t.minute]
    ++ (if t.second = 0 ∧ t.micro = 0 then [] else [toString t.second])
    ++ (if t.micro = 0 then [] else [toString t.micro])

/-- A time by its parts. -/
def quoted (t : ClockTime) : String :=
  callText "datetime.time" (t.parts ++ t.offsetParts)

end ClockTime

namespace Date

/-- Year, month and day. -/
def parts (d : Date) : List String :=
  [toString d.year, toString d.month, toString d.day]

/-- A date by its parts. -/
def quoted (d : Date) : String := callText "datetime.date" d.parts

end Date

namespace DateTime

/-- A date and time by its parts. -/
def quoted (d : DateTime) : String :=
  callText "datetime.datetime" (d.date.parts ++ d.time.parts ++ d.time.offsetParts)

end DateTime

namespace Value

mutual

/-- A value as it stands inside a container. -/
def quoted : Value → String
  | .null => "None"
  | .bool b => if b then "True" else "False"
  | .int n => toString n
  | .float x => x.render .plain
  | .text s => Text.quoted s
  | .bytes bs => Text.quotedBytes bs
  | .date d => d.quoted
  | .time t => t.quoted
  | .dateTime d => d.quoted
  | .list xs => "[" ++ String.intercalate ", " (quotedItems xs) ++ "]"
  | .tuple xs => match xs with
    | [x] => "(" ++ quoted x ++ ",)"
    | xs => "(" ++ String.intercalate ", " (quotedItems xs) ++ ")"
  | .set xs => match xs with
    | [] => "set()"
    | xs => "\x7b" ++ String.intercalate ", " (quotedItems xs) ++ "\x7d"
  | .map es => "\x7b" ++ String.intercalate ", " (quotedEntries es) ++ "\x7d"
  | .object ms => "namespace(" ++ String.intercalate ", " (quotedMembers ms) ++ ")"
  | .library _ => "<module>"
  | .kind name => "<class '" ++ name ++ "'>"
  | .function label _ _ => "<function " ++ label ++ ">"

/-- The items of a container. -/
def quotedItems : List Value → List String
  | [] => []
  | x :: xs => quoted x :: quotedItems xs

/-- The entries of a mapping. -/
def quotedEntries : List (Value × Value) → List String
  | [] => []
  | (k, v) :: es => (quoted k ++ ": " ++ quoted v) :: quotedEntries es

/-- The members of an object. -/
def quotedMembers : List (String × Value) → List String
  | [] => []
  | (k, v) :: ms => (k ++ "=" ++ quoted v) :: quotedMembers ms

end

/-- A value as a text of its own. -/
def display : Value → String
  | .text s => s
  | .date d => d.iso
  | .time t => t.iso
  | .dateTime d => d.iso " "
  | v => v.quoted

mutual

/-- Whether no number in a value is too long to be written. -/
def isWritable : Value → Bool
  | .int n => Number.isWritable n
  | .list xs | .tuple xs | .set xs => itemsWritable xs
  | .map es => entriesWritable es
  | .object ms => membersWritable ms
  | _ => true

/-- Whether no number in the items of a container is too long. -/
def itemsWritable : List Value → Bool
  | [] => true
  | x :: xs => isWritable x && itemsWritable xs

/-- Whether no number in the entries of a mapping is too long. -/
def entriesWritable : List (Value × Value) → Bool
  | [] => true
  | (k, v) :: es => isWritable k && isWritable v && entriesWritable es

/-- Whether no number in the members of an object is too long. -/
def membersWritable : List (String × Value) → Bool
  | [] => true
  | (_, v) :: ms => isWritable v && membersWritable ms

end

theorem itemsWritable_iff {xs : List Value} :
    itemsWritable xs = true ↔ ∀ x ∈ xs, x.isWritable = true := by
  induction xs with
  | nil => simp [itemsWritable]
  | cons x xs ih => simp [itemsWritable, ih]

theorem entriesWritable_iff {es : List (Value × Value)} :
    entriesWritable es = true ↔ ∀ e ∈ es, e.1.isWritable = true ∧ e.2.isWritable = true := by
  induction es with
  | nil => simp [entriesWritable]
  | cons e es ih => simp [entriesWritable, ih]

/-- A value as a text of its own, if it can be written. -/
def written (v : Value) : Except Fault String :=
  if v.isWritable then .ok v.display else .error (.misuse .badValue)

theorem written_of_isWritable {v : Value} (h : v.isWritable = true) : v.written = .ok v.display :=
  if_pos h

theorem written_of_not_isWritable {v : Value} (h : v.isWritable = false) :
    v.written = .error (.misuse .badValue) :=
  if_neg (Bool.eq_false_iff.mp h)

end Value

end Choicebook
