import Choicebook.Session.Call

/-!
# Dispatching exports

What a script command does with the export of its script depends on the shape of the export. A
function is called. An object is called through its `entry` if the command has settings; otherwise
the user selects a member, which is dispatched in turn. It is smaller than the object, so this comes
to an end. A primitive is its own text. Anything else is logged, and the output of the macro stays
what it is.
-/

namespace Choicebook

/-- The surroundings of a dispatch. -/
structure Dispatcher (σ : Type) where
  host : Host σ
  execute : Placed → Act σ Unit
  inSession : Bool
  /-- The name of the choice on whose behalf the export is dispatched. -/
  owner : Value
  settings : Option Entries

namespace Dispatcher

variable {σ : Type}

/-- Calls a function on behalf of the macro. -/
def call (d : Dispatcher σ) (f : Value) : Act σ Value :=
  f.callWithSettings d.host d.execute d.inSession d.settings

/-- Lets the user select a member of an object. -/
def select (d : Dispatcher σ) (v : Value) : Act σ v.Smaller := do
  let names ← Act.expect v.offeredNames
  if names.isEmpty then Act.fail (.emptyExport d.owner.display)
  else
    let labels := names.map Value.text
    let chosen ← Act.ask (.suggest labels .null) (d.host.suggest labels names.length .null)
    match chosen.bind fun i => names[i]? with
    | none => Act.fail .inputCancelled
    | some name =>
      match ← Act.expect (v.smallerMember? name) with
      | some m => return m
      | none => Act.fail (.misuse .missingKey)

/-- Dispatches an export. The result is nothing if the export is invalid. -/
def run (d : Dispatcher σ) (v : Value) : Act σ (Option Value) := do
  match v.shape with
  | .callable => some <$> d.call v
  | .primitive => return some (.text (← Act.expect v.primitiveText))
  | .withEntry =>
    match d.settings, ← Act.expect (v.member? "entry") with
    | some _, some entry => some <$> d.call entry
    | _, _ =>
      let m ← d.select v
      d.run m.1
  | .container =>
    let m ← d.select v
    d.run m.1
  | .invalid =>
    Act.logFailure ("user script in macro for '" ++ d.owner.display ++ "' is invalid")
    return none
termination_by sizeOf v
decreasing_by all_goals exact m.2

end Dispatcher

end Choicebook
