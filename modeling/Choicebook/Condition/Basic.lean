import Choicebook.Fault
import Choicebook.Text.Blank
import Choicebook.Value.Text

/-!
# Conditions

A condition decides which branch of a conditional command runs. It either compares a variable with
an expected text or asks a script.

An operator or a value type that is none of the known ones is kept as it was written. Such an
operator never holds, and such a value type compares texts.
-/

namespace Choicebook

/-- What a condition asks about a variable. -/
inductive Test where
  | equals
  | notEquals
  | less
  | lessOrEqual
  | greater
  | greaterOrEqual
  | contains
  | notContains
  | isTruthy
  | isFalsy
  deriving DecidableEq, Repr

namespace Test

/-- All tests. -/
def all : List Test :=
  [equals, notEquals, less, lessOrEqual, greater, greaterOrEqual, contains, notContains, isTruthy,
   isFalsy]

/-- The name of a test in documents. -/
def name : Test → String
  | equals => "equals"
  | notEquals => "notEquals"
  | less => "lessThan"
  | lessOrEqual => "lessThanOrEqual"
  | greater => "greaterThan"
  | greaterOrEqual => "greaterThanOrEqual"
  | contains => "contains"
  | notContains => "notContains"
  | isTruthy => "isTruthy"
  | isFalsy => "isFalsy"

/-- The name of a test in listings. -/
def label : Test → String
  | equals => "equals"
  | notEquals => "does not equal"
  | less => "is less than"
  | lessOrEqual => "is less than or equal to"
  | greater => "is greater than"
  | greaterOrEqual => "is greater than or equal to"
  | contains => "contains"
  | notContains => "does not contain"
  | isTruthy => "is truthy"
  | isFalsy => "is falsy"

/-- Whether the test compares with an expected value. -/
def needsExpected : Test → Bool
  | isTruthy | isFalsy => false
  | _ => true

/-- Whether the test compares numbers by size. -/
def isNumeric : Test → Bool
  | less | lessOrEqual | greater | greaterOrEqual => true
  | _ => false

/-- Whether numbers that compare in a way pass the test. -/
def accepts : Test → Ordering → Bool
  | less, o => o = .lt
  | lessOrEqual, o => o ≠ .gt
  | greater, o => o = .gt
  | greaterOrEqual, o => o ≠ .lt
  | _, _ => false

end Test

/-- The operator of a condition. -/
inductive Operator where
  | known (t : Test)
  | other (v : Value)

namespace Operator

/-- The operator that a value names. -/
def ofValue (v : Value) : Operator :=
  match v with
  | .text s => match Test.all.find? fun t => t.name = s with
    | some t => known t
    | none => other v
  | _ => other v

/-- The value that names an operator. -/
def toValue : Operator → Value
  | known t => .text t.name
  | other v => v

/-- Refuses a value that no table of operators can hold as a key. -/
def lookedUp {α : Type} (v : Value) (a : α) : Except Fault α :=
  if v.canBeKey then .ok a else .error (.misuse .wrongType)

/-- Whether the operator compares with an expected value. -/
def needsExpected : Operator → Except Fault Bool
  | known t => .ok t.needsExpected
  | other v => lookedUp v false

/-- The operator in listings. -/
def label : Operator → Except Fault String
  | known t => .ok t.label
  | other v => lookedUp v v.display

end Operator

/-- As what a condition compares its operands. -/
inductive ValueType where
  | text
  | number
  | boolean
  | other (v : Value)

namespace ValueType

/-- The value type that a value names. -/
def ofValue (v : Value) : ValueType :=
  match v with
  | .text "string" => text
  | .text "number" => number
  | .text "boolean" => boolean
  | _ => other v

/-- The value that names a value type. -/
def toValue : ValueType → Value
  | text => .text "string"
  | number => .text "number"
  | boolean => .text "boolean"
  | other v => v

/-- The value type that suits an operator. -/
def preset : Operator → ValueType
  | .known t =>
    if t.isNumeric then number else if t.needsExpected then text else boolean
  | .other _ => boolean

end ValueType

/-- A condition on a variable. -/
structure VariableCondition where
  subject : String
  operator : Operator
  valueType : ValueType
  expected : Option String

/-- A condition. -/
inductive Condition where
  | onVariable (c : VariableCondition)
  /-- The script decides, or the member of its export that `member` names, unless that is empty. -/
  | byScript (path : String) (member : Value)

namespace VariableCondition

/-- The expected value in listings. -/
def expectedLabel (c : VariableCondition) : String :=
  match c.expected.getD "", c.valueType with
  | "", _ => " (empty)"
  | s, .text => " \"" ++ s ++ "\""
  | s, _ => " " ++ s

/-- The condition in listings. -/
def describe (c : VariableCondition) : Except Fault String := do
  let name := if c.subject.isEmpty then "(missing variable)" else "$" ++ c.subject
  let label ← c.operator.label
  let needed ← c.operator.needsExpected
  .ok (Text.trim (name ++ " " ++ label ++ (if needed then c.expectedLabel else "")))

end VariableCondition

namespace Condition

/-- The condition in listings. -/
def describe : Condition → Except Fault String
  | onVariable c => c.describe
  | byScript path member =>
    .ok ("script " ++ path ++ (if member.isTruthy then "::" ++ member.display else ""))

end Condition

end Choicebook
