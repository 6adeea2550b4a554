import Choicebook.Condition.Basic
import Choicebook.Number.Reading
import Choicebook.Text.Case
import Choicebook.Text.Search

/-!
# Whether a condition holds

Both operands are brought to the value type of the condition first. Nothing that goes wrong with a
variable condition is a fault, except a whole number that is too large for a double or too long to
be written, and an operator that cannot be looked up: the condition does not hold, and the verdict
says why.
-/

namespace Choicebook

/-- Whether a condition holds, and what to warn about. -/
structure Verdict where
  holds : Bool
  warning : Option String
  deriving DecidableEq, Repr

namespace Verdict

/-- A verdict without a warning. -/
def plain (holds : Bool) : Verdict := ⟨holds, none⟩

/-- A condition that does not hold, with the reason. -/
def refused (warning : String) : Verdict := ⟨false, some warning⟩

end Verdict

namespace Value

/-- Whether a value counts as true in a condition; not a number does not. -/
def holds : Value → Bool
  | .float x => !x.isNan && !x.isZero
  | v => v.isTruthy

/-- A value as a text to compare: null is empty, truth values are in small letters, and a whole
number has no point. -/
def comparedText : Value → Except Fault String
  | .null => .ok ""
  | .bool b => .ok (if b then "true" else "false")
  | .float x => match x.toInt? with
    | some n => .ok (toString n)
    | none => .ok (Value.display (.float x))
  | v => v.written

/-- The number that a text stands for: nothing is zero, and no number is not a number. -/
def numberOfText (s : String) : Double :=
  let t := Text.trim s
  if t.isEmpty then .zero false else (Number.readDouble t).getD .nan

/-- A value as a double. -/
def toDouble : Value → Except Fault Double
  | .bool b => .ok (Double.ofInt (if b then 1 else 0))
  | .int n => match Double.ofInt? n with
    | some x => .ok x
    | none => .error (.misuse .tooLarge)
  | .float x => .ok x
  | .null => .ok (.zero false)
  | v => numberOfText <$> v.written

/-- The truth value that a word stands for. -/
def wordTruth? (s : String) : Option Bool :=
  let word := Text.lower (Text.trim s)
  if ["true", "1", "yes", "on"].contains word then some true
  else if ["false", "0", "no", "off"].contains word then some false
  else none

/-- A value as a truth value. -/
def toTruth : Value → Bool
  | .bool b => b
  | .text s => (wordTruth? s).getD (!s.isEmpty)
  | v => v.holds

/-- A variable's value as a value of a type. -/
def normalized (type : ValueType) (v : Value) : Except Fault Value :=
  match type with
  | .number => match v with
    | .int n => .ok (.int n)
    | .float x => .ok (.float x)
    | v => (fun x => .float x) <$> v.toDouble
  | .boolean => .ok (.bool v.toTruth)
  | _ => .text <$> v.comparedText

/-- Equality that keeps truth values and numbers apart. -/
def strictlySame (v w : Value) : Bool :=
  match v, w with
  | .bool a, .bool b => a = b
  | .bool _, _ => false
  | _, .bool _ => false
  | v, w => v.same w

end Value

namespace VariableCondition

/-- The expected value of a condition as a value of its type. -/
def expectedValue? (c : VariableCondition) : Except Fault (Option Value) := do
  let needed ← c.operator.needsExpected
  if !needed then .ok none
  else .ok (c.expected.map fun s =>
    let t := Text.trim s
    match c.valueType with
    | .number => .float (Value.numberOfText t)
    | .boolean => .bool ((Value.wordTruth? t).getD (!t.isEmpty))
    | _ => .text t)

/-- Whether one of the items is the expected value. -/
def anyItem (type : ValueType) (expected : Value) : List Value → Except Fault Bool
  | [] => .ok false
  | x :: xs => do
    let v ← x.normalized type
    if v.same expected then .ok true else anyItem type expected xs

/-- Whether a value contains the expected one: as an item, as a part of a text, or, between numbers,
by being it. -/
def containing (c : VariableCondition) (actual expected : Value) : Except Fault Verdict :=
  match actual, expected with
  | .null, _ => .ok (.plain false)
  | _, .text "" =>
    .ok (.refused "Conditional command: 'contains' operator requires a non-empty comparison value.")
  | .list xs, _ | .tuple xs, _ | .set xs, _ => Verdict.plain <$> anyItem c.valueType expected xs
  | .text s, _ => do
    let part ← expected.comparedText
    .ok (.plain (Text.contains s part))
  | _, _ =>
    if actual.number?.isSome && expected.number?.isSome then .ok (.plain (actual.same expected))
    else do
      let part ← expected.comparedText
      let whole ← actual.comparedText
      .ok (.plain (Text.contains whole part))

/-- Whether a value compares with the expected one as the test wants. -/
def comparing (c : VariableCondition) (t : Test) (actual expected : Value) :
    Except Fault Verdict := do
  let v ← actual.normalized c.valueType
  match t with
  | .equals => .ok (.plain (v.strictlySame expected))
  | .notEquals => .ok (.plain (!v.strictlySame expected))
  | _ =>
    let x ← v.toDouble
    let y ← expected.toDouble
    match x.compare? y with
    | some o => .ok (.plain (t.accepts o))
    | none =>
      .ok (.refused "Conditional command numeric comparison failed: non-numeric value encountered.")

/-- Whether a test holds of the value of a variable. -/
def testing (c : VariableCondition) (t : Test) (actual : Value) : Except Fault Verdict :=
  match t with
  | .isTruthy => .ok (.plain actual.holds)
  | .isFalsy => .ok (.plain (!actual.holds))
  | _ => do
    match ← c.expectedValue? with
    | none =>
      .ok (.refused
        ("Conditional command: Operator '" ++ t.name ++ "' requires a comparison value."))
    | some expected =>
      match t with
      | .contains => c.containing actual expected
      | .notContains =>
        let inner ← c.containing actual expected
        .ok { inner with holds := !inner.holds }
      | _ => c.comparing t actual expected

/-- Whether the condition holds of some variables. -/
def evaluate (c : VariableCondition) (vars : Entries) : Except Fault Verdict :=
  let name := Text.trim c.subject
  if name.isEmpty then
    .ok (.refused "Conditional command skipped: No variable name configured.")
  else match vars.field? name with
    | none =>
      .ok (.refused ("Conditional command skipped: Variable '" ++ name ++ "' is not defined."))
    | some actual =>
      match c.operator with
      | .known t => c.testing t actual
      | .other v => Operator.lookedUp v (.plain false)

end VariableCondition

end Choicebook
