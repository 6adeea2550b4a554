import Choicebook.Yaml.Node

/-!
# Reading YAML

`Yaml.read` reads a text as one value. What a node stands for depends on its tag only: a mapping
tagged as a set becomes the set of its keys, and so on.

A mapping may hold the entries of others under the key `<<`. They come before its own entries, and
an entry that comes later wins. A list of mappings counts from its end, so that the first one wins.
-/

namespace Choicebook.Yaml

namespace Node

/-- A key that a mapping keeps: the key `=` is the text. -/
def keptKey : Node → Node
  | .scalar .value s => .scalar .text s
  | n => n

mutual

/-- The entries of a mapping with those of the mappings under `<<` in front. -/
def flatten : (fuel : Nat) → List (Node × Node) → Except Problem (List (Node × Node))
  | 0, _ => .error .malformed
  | fuel + 1, entries => do
    let merged ← mergedEntries fuel (entries.filter fun e => e.1.tag = .merge)
    let own := (entries.filter fun e => e.1.tag ≠ .merge).map fun e => (keptKey e.1, e.2)
    .ok (merged ++ own)

/-- The entries that the mappings under `<<` bring. -/
def mergedEntries : (fuel : Nat) → List (Node × Node) → Except Problem (List (Node × Node))
  | _, [] => .ok []
  | 0, _ => .error .malformed
  | fuel + 1, (_, v) :: rest => do
    let first ← match v with
      | .mapping _ es => flatten fuel es
      | .sequence _ ns => (fun groups => groups.reverse.flatten) <$> flattenAll fuel ns
      | .scalar .. => .error .malformed
    let more ← mergedEntries fuel rest
    .ok (first ++ more)

/-- The entries of each mapping of a list. -/
def flattenAll : (fuel : Nat) → List Node → Except Problem (List (List (Node × Node)))
  | _, [] => .ok []
  | 0, _ => .error .malformed
  | fuel + 1, n :: rest =>
    match n with
    | .mapping _ es => do
      let first ← flatten fuel es
      let more ← flattenAll fuel rest
      .ok (first :: more)
    | _ => .error .malformed

end

/-- The text of a scalar; a mapping stands for its value under the key `=`. -/
def scalarText : (fuel : Nat) → Node → Except Problem String
  | _, .scalar _ s => .ok s
  | fuel + 1, .mapping _ es =>
    match es.find? fun e => e.1.tag = .value with
    | some (_, v) => scalarText fuel v
    | none => .error .malformed
  | _, _ => .error .malformed

mutual

/-- The value of a node. -/
def value : (fuel : Nat) → Node → Except Problem Value
  | 0, _ => .error .malformed
  | fuel + 1, n =>
    match n.tag, n with
    | .sequence, .sequence _ items => Value.list <$> values fuel items
    | .mapping, .mapping _ es => do
      let es ← flatten (fuel + 1) es
      (fun pairs => .map (Entries.ofPairs pairs)) <$> entries fuel es
    | .set, .mapping _ es => do
      let es ← flatten (fuel + 1) es
      (fun pairs => Value.setOf (pairs.map (·.1))) <$> entries fuel es
    | .orderedMapping, .sequence _ items => Value.list <$> singleEntries fuel items
    | .pairs, .sequence _ items => Value.list <$> singleEntries fuel items
    | tag, n => do
      let s ← scalarText (fuel + 1) n
      Scalar.read tag s

/-- The values of a list of nodes. -/
def values : (fuel : Nat) → List Node → Except Problem (List Value)
  | _, [] => .ok []
  | 0, _ => .error .malformed
  | fuel + 1, n :: rest => do
    let first ← value fuel n
    let more ← values fuel rest
    .ok (first :: more)

/-- The keys and values of entries. -/
def entries : (fuel : Nat) → List (Node × Node) → Except Problem (List (Value × Value))
  | _, [] => .ok []
  | 0, _ => .error .malformed
  | fuel + 1, (k, v) :: rest => do
    let key ← value fuel k
    if !key.canBeKey then .error .malformed
    else
      let val ← value fuel v
      let more ← entries fuel rest
      .ok ((key, val) :: more)

/-- The pairs of a list of mappings with one entry each. -/
def singleEntries : (fuel : Nat) → List Node → Except Problem (List Value)
  | _, [] => .ok []
  | 0, _ => .error .malformed
  | fuel + 1, n :: rest =>
    match n with
    | .mapping _ [(k, v)] => do
      let key ← value fuel k
      let val ← value fuel v
      let more ← singleEntries fuel rest
      .ok (.tuple [key, val] :: more)
    | _ => .error .malformed

end

end Node

/-- Reads a text as one value; a text without a document is null. -/
def read (s : String) : Except Problem Value := do
  let tokens ← Token.scan s
  match ← Node.ofTokens tokens with
  | none => .ok .null
  | some root => root.value ((tokens.length + 8) * (tokens.length + 8))

end Choicebook.Yaml
