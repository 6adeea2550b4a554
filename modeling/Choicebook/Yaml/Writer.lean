import Choicebook.Value.Text
import Choicebook.Yaml.Layout
import Choicebook.Yaml.Node

/-!
# Writing YAML

`Yaml.write` writes a value as a block-style document. A value becomes a node first, which tells
apart the values that YAML has no form for and those with a number that is too long; the node is
then laid out on a sheet, two blanks per level. The items of a sequence under a key are not
indented. A key that is long, empty or of several lines gets a question mark in front.
-/

namespace Choicebook.Yaml

namespace Tag

/-- A tag as it is written. -/
def short (t : Tag) : String :=
  match names.find? fun p => p.2 = t with
  | some (name, _) => "!!" ++ name
  | none => "!"

end Tag

/-- Bits as characters of base 64. -/
def base64Char (n : Nat) : Char := Scalar.base64Digits.getD n '='

/-- Bytes in base 64, in groups of four characters. -/
def base64 : List UInt8 → List Char
  | a :: b :: c :: rest =>
    let n := (a.toNat * 256 + b.toNat) * 256 + c.toNat
    base64Char (n / 262144) :: base64Char (n / 4096 % 64) :: base64Char (n / 64 % 64)
      :: base64Char (n % 64) :: base64 rest
  | [a, b] =>
    let n := (a.toNat * 256 + b.toNat) * 4
    [base64Char (n / 4096), base64Char (n / 64 % 64), base64Char (n % 64), '=']
  | [a] =>
    let n := a.toNat * 16
    [base64Char (n / 64), base64Char (n % 64), '=', '=']
  | [] => []

/-- Cuts off lines of 76 characters; every line ends with a newline. -/
def base64Lines : (fuel : Nat) → List Char → List Char
  | 0, _ => []
  | fuel + 1, cs =>
    if cs.isEmpty then [] else cs.take 76 ++ '\n' :: base64Lines fuel (cs.drop 76)

namespace Node

mutual

/-- The node of a value. -/
def ofValue : Value → Except Fault Node
  | .null => .ok (.scalar .null "null")
  | .bool b => .ok (.scalar .bool (if b then "true" else "false"))
  | .int n =>
    if Number.isWritable n then .ok (.scalar .int (toString n)) else .error (.misuse .badValue)
  | .float x => .ok (.scalar .float (x.render .yaml))
  | .text s => .ok (.scalar .text s)
  | .bytes bs =>
    let cs := base64 bs
    .ok (.scalar .binary (String.ofList (base64Lines (cs.length + 1) cs)))
  | .date d => .ok (.scalar .timestamp d.iso)
  | .dateTime d => .ok (.scalar .timestamp (d.iso " "))
  | .list xs | .tuple xs => (Node.sequence .sequence ·) <$> ofItems xs
  | .set xs => (fun ns => .mapping .set (ns.map fun n => (n, .scalar .null "null"))) <$> ofItems xs
  | .map es => (Node.mapping .mapping ·) <$> ofEntries es
  | .time _ | .object _ | .library _ | .kind _ | .function .. => .error (.misuse .notStorable)

/-- The nodes of a list of values. -/
def ofItems : List Value → Except Fault (List Node)
  | [] => .ok []
  | x :: xs => do
    let first ← ofValue x
    let others ← ofItems xs
    .ok (first :: others)

/-- The nodes of the entries of a mapping. -/
def ofEntries : List (Value × Value) → Except Fault (List (Node × Node))
  | [] => .ok []
  | (k, v) :: es => do
    let key ← ofValue k
    let val ← ofValue v
    let others ← ofEntries es
    .ok ((key, val) :: others)

end

/-- Whether a node can be a key without a question mark. -/
def isSimpleKey : Node → Bool
  | .scalar t s =>
    let form := Form.of s.toList
    t.short.length + s.length < 128 && !form.isEmpty && !form.hasBreak
  | .sequence _ items => items.isEmpty
  | .mapping _ es => es.isEmpty

/-- The column of the parts of a collection; there is none yet for the outermost one. -/
def deeper (column : Option Nat) (outermost : Nat) : Nat :=
  match column with
  | none => outermost
  | some c => c + 2

/-- A scalar on a sheet. -/
def layScalar (column : Option Nat) (atRoot isKey : Bool) (tag : Tag) (text : String) (s : Sheet) :
    Sheet :=
  let cs := text.toList
  let form := Form.of cs
  let inner := deeper column 2
  let readsPlain := tag = Tag.ofPlain text
  if tag ≠ .binary && readsPlain && !(isKey && (form.isEmpty || form.hasBreak))
      && form.allowsPlain then
    s.plain inner (!isKey) atRoot cs
  else
    let s := if tag = .text then s else s.mark tag.short true false
    if tag = .binary then
      if !isKey && form.allowsBlock then s.block inner cs else s.double inner (!isKey) cs
    else if form.allowsSingle && !(isKey && form.hasBreak) then s.single inner (!isKey) cs
    else s.double inner (!isKey) cs

mutual

/-- A node on a sheet; `column` is the column of the collection around it. -/
def lay (column : Option Nat) (atRoot inMapping isKey : Bool) : Node → Sheet → Sheet
  | .scalar tag text, s => layScalar column atRoot isKey tag text s
  | .sequence tag items, s =>
    let s := if tag = .sequence then s else s.mark tag.short true false
    match items with
    | [] => s.mark "[]" true false
    | items =>
      let inner := if inMapping && !s.indented then column.getD 0 else deeper column 0
      layItems inner items s
  | .mapping tag es, s =>
    let s := if tag = .mapping then s else s.mark tag.short true false
    match es with
    | [] => s.mark "\x7b\x7d" true false
    | es => layEntries (deeper column 0) es s

/-- The items of a block sequence. -/
def layItems (column : Nat) : List Node → Sheet → Sheet
  | [], s => s
  | n :: rest, s =>
    layItems column rest
      (lay (some column) false false false n ((s.toColumn column).mark "-" true true))

/-- The entries of a block mapping. -/
def layEntries (column : Nat) : List (Node × Node) → Sheet → Sheet
  | [], s => s
  | (k, v) :: rest, s =>
    let s := s.toColumn column
    let s :=
      if k.isSimpleKey then (lay (some column) false true true k s).mark ":" false false
      else
        let s := lay (some column) false true false k (s.mark "?" true true)
        (s.toColumn column).mark ":" true true
    layEntries column rest (lay (some column) false true false v s)

end

/-- A node as a document. A plain scalar that stands alone gets an end mark. -/
def document (n : Node) : String :=
  let s := (lay none true false false n .blank).toColumn 0
  let s := if s.openEnded then (s.mark "..." true false).toColumn 0 else s
  s.text

end Node

/-- A value as a YAML document. -/
def write (v : Value) : Except Fault String :=
  Node.document <$> Node.ofValue v

end Choicebook.Yaml
