import Choicebook.Choice.Reader
import Choicebook.Files.Tree
import Choicebook.Json.Reader

/-!
# How scripts are written

A script is written as JSON. What JSON has no spelling for is written as a mapping with one key that
starts with `$`: `$float`, `$map`, `$tuple`, `$set`, `$bytes`, the three kinds of dates, `$ns` for
an object, `$module` for a library, `$class` for a kind, and `$fn` for a function. A mapping without
such a key stands for itself.

A function has a label, an arity and steps, and each step is a mapping with one key that names it. A
script file lists its members, and perhaps the failure that it ends with.

The readers descend into a value and take the depth to which they may still do so. What cannot be
read counts as null, and a step that is not known reports the shared variables.
-/

namespace Choicebook

namespace Arity

/-- The arity that a text spells. -/
def ofText (s : String) : Arity :=
  match s with
  | "0" => .none
  | "0d" => .noneOrOne
  | "2" => .two
  | "3" => .three
  | "2d" => .oneOrTwo
  | "kw" => .oneAndNamed
  | "var" => .any
  | "opaque" => .undeclared
  | _ => .one

end Arity

namespace Script

/-- The items of a list; anything else has none. -/
def items : Value → List Value
  | .list xs => xs
  | _ => []

/-- The entries of a mapping; anything else has none. -/
def fields : Value → Entries
  | .map es => es
  | _ => []

/-- A text; anything else is the empty one. -/
def text (v : Value) : String := v.asText?.getD ""

/-- The item at a position, null if there is none. -/
def item (v : Value) (i : Nat) : Value := (items v).getD i .null

/-- The entry under a name, null if there is none. -/
def entry (m : Entries) (name : String) : Value := (m.field? name).getD .null

/-- The bytes that pairs of hexadecimal digits spell. -/
def bytesOfHex : List Char → List UInt8
  | a :: b :: rest =>
    UInt8.ofNat ((Json.hexValue? a).getD 0 * 16 + (Json.hexValue? b).getD 0) :: bytesOfHex rest
  | _ => []

mutual

/-- A value that is written with tags. -/
def readValue (fuel : Nat) (v : Value) : Value :=
  match fuel with
  | 0 => .null
  | fuel + 1 =>
    match v with
    | .list xs => .list (xs.map (readValue fuel))
    | .map es =>
      match es with
      | [(.text tag, x)] => readTagged fuel tag x
      | _ => .map (es.map fun (k, w) => (k, readValue fuel w))
    | v => v

/-- What stands under a tag. -/
def readTagged (fuel : Nat) (tag : String) (x : Value) : Value :=
  match fuel with
  | 0 => .null
  | fuel + 1 =>
    let inner (_ : Unit) := (items x).map (readValue fuel)
    let members (_ : Unit) := (items x).map fun p => (text (item p 0), readValue fuel (item p 1))
    match tag with
    | "$float" => .float ((Number.readDouble (text x)).getD .nan)
    | "$map" => .map (Entries.ofPairs
        ((items x).map fun p => (readValue fuel (item p 0), readValue fuel (item p 1))))
    | "$tuple" => .tuple (inner ())
    | "$set" => Value.setOf (inner ())
    | "$bytes" => .bytes (bytesOfHex (text x).toList)
    | "$date" => ((Date.ofIso? (text x)).map Value.date).getD .null
    | "$time" => ((ClockTime.ofIso? (text x)).map Value.time).getD .null
    | "$datetime" => ((DateTime.ofIso? (text x)).map Value.dateTime).getD .null
    | "$ns" => .object (members ())
    | "$module" => .library (members ())
    | "$class" => .kind (text x)
    | "$fn" =>
      let m := fields x
      .function (((m.field? "label").bind Value.asText?).getD "f")
        (.ofText (text (entry m "arity")))
        ((items (entry m "steps")).map (readStep fuel))
    | _ => .map [(.text tag, readValue fuel x)]

/-- What a step computes with. -/
def readOperand (fuel : Nat) (v : Value) : Operand :=
  match fuel with
  | 0 => .literal .null
  | fuel + 1 =>
    match v with
    | .map [(.text "$var", n)] => .named (text n)
    | .map [(.text "$setting", n)] => .setting (text n)
    | .map [(.text "$nargs", _)] => .argumentCount
    | v => .literal (readValue fuel v)

/-- One step of a function. -/
def readStep (fuel : Nat) (v : Value) : Step :=
  match fuel with
  | 0 => .recordShared
  | fuel + 1 =>
    match fields v with
    | [(.text name, x)] =>
      let m := fields x
      let into := text (entry m "into")
      match name with
      | "set" => .assign (text (item x 0)) (readOperand fuel (item x 1))
      | "del" => .discard (text x)
      | "record" => .record (text x)
      | "abort" => .abort x.asText?
      | "raise" => .fail (text (item x 0)) (text (item x 1))
      | "param" => .inspect (text (entry m "key")) into
      | "names" => .listNames into
      | "choice" => .runChoice (text (entry m "name")) (readValue fuel (entry m "variables"))
      | "suggester" =>
        let offered := (items (entry m "items")).map (readValue fuel)
        let placeholder := (entry m "placeholder").asText?
        match entry m "display" with
        | .text "upper" => .pickCapitals offered placeholder into
        | .text _ => .pickByPosition offered placeholder into
        | labels => .pick ((items labels).map (readValue fuel)) offered placeholder into
      | "prompt" => .ask (text (entry m "header")) (entry m "default").asText? into
      | "try" => .attempt ((items (entry m "steps")).map (readStep fuel)) into
      | "return" => .finish (readOperand fuel x)
      | _ => .recordShared
    | _ => .recordShared

end

/-- The value that another value, written with tags, stands for. Each level of it takes at most four
steps down. -/
def valueOf (v : Value) : Value := readValue (4 * v.depth + 8) v

/-- A member of a script file, and whether it is defined elsewhere. -/
def memberOf (v : Value) : String × Bool × Value :=
  match item v 1 with
  | .map [(.text "$imported", x)] => (text (item v 0), true, valueOf x)
  | x => (text (item v 0), false, valueOf x)

/-- A script file. What is written with tags is what the script does; its own text is not known. -/
def fileOf (v : Value) : Files.ScriptFile :=
  let m := fields v
  { source := ""
    members := (items (entry m "members")).map memberOf
    failure := match items (entry m "raise") with
      | kind :: message => some (text kind, text (message.headD .null))
      | [] => none }

end Script

end Choicebook
