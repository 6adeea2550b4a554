import Choicebook.Condition.Evaluate
import Choicebook.Fault
import Choicebook.Json.Writer
import Choicebook.Text.Digit

/-!
# What scripts export

A script exports a value, and what happens to it depends on its shape: a function is called, an
object offers its members, a primitive is shown. `shape` is that decision. A member of an object is
found by its name; the members of lists and tuples are named by their positions.
-/

namespace Choicebook

/-- How an export is treated. -/
inductive Shape where
  | callable
  /-- An object whose member `entry` can be called. -/
  | withEntry
  | container
  | primitive
  | invalid
  deriving DecidableEq, Repr

namespace Shape

/-- The name of a shape. -/
def name : Shape → String
  | callable => "function"
  | withEntry => "module-with-entry"
  | container => "object"
  | primitive => "primitive"
  | invalid => "invalid"

end Shape

namespace Arity

/-- How many arguments a function has when it is called with so many positional ones, if it can be.
Arguments that may be left out are there in any case. -/
def bound? : Arity → (given : Nat) → Option Nat
  | none, n => if n = 0 then some 0 else Option.none
  | noneOrOne, n => if n ≤ 1 then some 1 else Option.none
  | one, n => if n = 1 then some 1 else Option.none
  | two, n => if n = 2 then some 2 else Option.none
  | three, n => if n = 3 then some 3 else Option.none
  | oneOrTwo, n => if n = 1 ∨ n = 2 then some 2 else Option.none
  | oneAndNamed, n => if n = 1 then some 1 else Option.none
  | any, n => some n
  | undeclared, n => some n

/-- Whether a function can take settings as its second argument, as far as it says. -/
def takesSettings : Arity → Bool
  | two | three | oneOrTwo | any | undeclared => true
  | none | noneOrOne | one | oneAndNamed => false

end Arity

namespace Value

/-- Whether a value can be called. -/
def isCallable : Value → Bool
  | .kind _ | .function .. => true
  | _ => false

/-- Texts, numbers and truth values. -/
def isPrimitive : Value → Bool
  | .text _ | .int _ | .float _ | .bool _ => true
  | _ => false

/-- Whether a callable value can take settings as its second argument. -/
def takesSettings : Value → Bool
  | .function _ arity _ => arity.takesSettings
  | _ => false

/-- Whether a value has members to choose from. -/
def isContainer : Value → Bool
  | .map _ | .list _ | .tuple _ | .object _ | .library _ => true
  | _ => false

/-- The positions in a list as names, as far as they can be read as numbers again. A list that is
too long for that does not occur. -/
def positionNames (count : Nat) : List String :=
  ((List.range count).map toString).filter fun name => name.length ≤ Number.digitLimit

/-- The names of the members of a container; names of objects and libraries that start with an
underscore are hidden. -/
def memberNames : Value → List String
  | .map es => es.map fun e => e.1.display
  | .list xs | .tuple xs => positionNames xs.length
  | .object ms | .library ms => (ms.map (·.1)).filter fun n => !Text.startsWith n "_"
  | _ => []

/-- The names under which the members of a container are offered, if they can all be written. -/
def offeredNames (v : Value) : Except Fault (List String) :=
  match v with
  | .map es => es.mapM fun e => e.1.written
  | v => .ok v.memberNames

/-- The position that a name stands for in a list. A name of digits without place value is no
number, and neither is one of too many digits. -/
def position? (key : String) : Except Fault (Option Nat) :=
  if Text.allDigits key then
    match Number.readInt key with
    | some n => .ok (some n.toNat)
    | none => .error (.misuse .badValue)
  else .ok none

/-- The member of a value with a name, if it has one. -/
def member? (v : Value) (key : String) : Except Fault (Option Value) :=
  match v with
  | .map es => .ok (Entries.field? es key)
  | .list xs | .tuple xs => (fun i => i.bind fun i => xs[i]?) <$> position? key
  | .object ms | .library ms => .ok (ms.lookup key)
  | _ => .ok none

private theorem sizeOf_snd_lt {α : Type} [SizeOf α] {es : List (α × Value)} {k : α} {m : Value}
    (h : (k, m) ∈ es) : sizeOf m < sizeOf es := by
  have he := List.sizeOf_lt_of_mem h
  rw [Prod.mk.sizeOf_spec] at he
  omega

private theorem sizeOf_lt_of_get? {es : Entries} {k m : Value} (h : es.get? k = some m) :
    sizeOf m < sizeOf es := by
  obtain ⟨e, he, rfl⟩ := Option.map_eq_some_iff.mp h
  exact sizeOf_snd_lt (List.mem_of_find?_eq_some he)

private theorem sizeOf_lt_of_lookup {ms : List (String × Value)} {key : String} {m : Value}
    (h : ms.lookup key = some m) : sizeOf m < sizeOf ms := by
  obtain ⟨_, _, rfl, -⟩ := List.lookup_eq_some_iff.mp h
  exact sizeOf_snd_lt (List.mem_append_right _ List.mem_cons_self)

private theorem sizeOf_lt_of_getElem? {xs : List Value} {p : Except Fault (Option Nat)} {m : Value}
    (h : (fun i => i.bind fun i => xs[i]?) <$> p = .ok (some m)) : sizeOf m < sizeOf xs := by
  obtain f | i := p
  · cases h
  · obtain ⟨j, -, hj⟩ := Option.bind_eq_some_iff.mp (Except.ok.inj h)
    exact List.sizeOf_lt_of_mem (List.mem_of_getElem? hj)

/-- A member is smaller than the value that it is a member of. -/
theorem sizeOf_lt_of_member? {v m : Value} {key : String} (h : v.member? key = .ok (some m)) :
    sizeOf m < sizeOf v := by
  cases v with
  | map es =>
    have := sizeOf_lt_of_get? (Except.ok.inj h)
    rw [map.sizeOf_spec]
    omega
  | list xs =>
    have := sizeOf_lt_of_getElem? h
    rw [list.sizeOf_spec]
    omega
  | tuple xs =>
    have := sizeOf_lt_of_getElem? h
    rw [tuple.sizeOf_spec]
    omega
  | object ms =>
    have := sizeOf_lt_of_lookup (Except.ok.inj h)
    rw [object.sizeOf_spec]
    omega
  | library ms =>
    have := sizeOf_lt_of_lookup (Except.ok.inj h)
    rw [library.sizeOf_spec]
    omega
  | _ => cases Except.ok.inj h

/-- A value that is smaller than another one. -/
abbrev Smaller (v : Value) := { m : Value // sizeOf m < sizeOf v }

/-- The member of a value with a name, if it has one, as a smaller value. -/
def smallerMember? (v : Value) (key : String) : Except Fault (Option v.Smaller) :=
  match h : v.member? key with
  | .ok (some m) => .ok (some ⟨m, sizeOf_lt_of_member? h⟩)
  | .ok none => .ok none
  | .error f => .error f

/-- Whether a value has a member that can be called under the name `entry`. -/
def hasEntry (v : Value) : Bool :=
  match v.member? "entry" with
  | .ok (some m) => m.isCallable
  | _ => false

/-- How a value is treated as an export. -/
def shape (v : Value) : Shape :=
  if v.isPrimitive then .primitive
  else if v.isCallable then .callable
  else if v.isContainer then (if v.hasEntry then .withEntry else .container)
  else .invalid

/-- A primitive as a result: truth values in small letters, whole numbers without a point. -/
def primitiveText (v : Value) : Except Fault String := v.comparedText

/-- Follows names from member to member. A member that is missing, or null at the end, is
a fault. -/
def follow (owner : String) (path : List String) (v : Value) : Except Fault Value := do
  let found ← path.foldlM
    (fun current key => do
      match ← current.member? key with
      | some m => .ok m
      | none => .error (.missingMember owner key)) v
  match found, path.getLast? with
  | .null, some last => .error (.missingMember owner last)
  | found, _ => .ok found

/-- The result of a macro as a text: lists and mappings as JSON where that is possible, nothing for
null. -/
def resultText (v : Value) : Except Fault String :=
  match v with
  | .map _ | .list _ => match Json.write false v with
    | .ok s => .ok s
    | .error _ => v.written
  | .null => .ok ""
  | .bool b => .ok (if b then "true" else "false")
  | v => v.written

/-- The settings that an export declares, if it declares any. -/
def declaredSettings? (v : Value) : Option Entries :=
  let declared := match v with
    | .map es => Entries.field? es "settings"
    | .object ms | .library ms => ms.lookup "settings"
    | _ => none
  declared.bind asMap?

end Value

namespace Entries

/-- The settings of a command, with the presets that an export declares filled in where there is no
setting yet. -/
def withPresets (declared settings : Entries) : Entries :=
  match declared.field? "options" with
  | some (.map options) => options.foldl
    (fun (settings : Entries) (option : Value × Value) =>
      match (settings.get? option.1).filter (!·.isNull), option.2 with
      | none, .map o => match (Entries.field? o "defaultValue").filter (!·.isNull) with
        | some preset => settings.insert option.1 preset
        | none => settings
      | _, _ => settings) settings
  | _ => settings

end Entries

/-- A reference to a macro as `name::member::member`: the name and the members, without blanks
around them and without empty ones. -/
def splitReference (s : String) : Option String × List String :=
  let parts := (Text.splitOn "::".toList s.toList).map fun p => String.ofList (Text.strip p)
  match parts.filter (· ≠ "") with
  | [] => (none, [])
  | name :: members => (some name, members)

end Choicebook
