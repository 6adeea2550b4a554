import Choicebook.Value.Basic

/-!
# Equality of values and mappings

`Value.same` is the equality that mappings use for their keys and conditions for their operands.
Truth values count as the numbers 0 and 1, and an integer equals the double of the same value, so
`1`, `1.0` and `true` are one key. Mappings and sets are compared without regard to order.

A mapping is a list of entries in the order in which the keys were first added. `Entries.insert`
overwrites the value of a key in place and keeps the key that was there first.
-/

namespace Choicebook

/-- A number of either sort. -/
inductive Number where
  | int (n : Int)
  | float (x : Double)
  deriving DecidableEq, Repr

namespace Number

/-- Equality as numbers, exact for integers of any size. -/
def same : Number → Number → Bool
  | .int m, .int n => m = n
  | .int m, .float x => x.eqInt m
  | .float x, .int n => x.eqInt n
  | .float x, .float y => x.numEq y

end Number

namespace Value

/-- The number that a value counts as in comparisons. -/
def number? : Value → Option Number
  | .bool b => some (.int (if b then 1 else 0))
  | .int n => some (.int n)
  | .float x => some (.float x)
  | _ => none

mutual

/-- Equality of values. -/
def same (v w : Value) : Bool :=
  match v with
  | .bool b => w.number?.any (Number.same (.int (if b then 1 else 0)))
  | .int n => w.number?.any (Number.same (.int n))
  | .float x => w.number?.any (Number.same (.float x))
  | .null => match w with | .null => true | _ => false
  | .text s => match w with | .text t => s = t | _ => false
  | .bytes s => match w with | .bytes t => s = t | _ => false
  | .date s => match w with | .date t => s = t | _ => false
  | .time s => match w with | .time t => s = t | _ => false
  | .dateTime s => match w with | .dateTime t => s = t | _ => false
  | .list xs => match w with | .list ys => sameItems xs ys | _ => false
  | .tuple xs => match w with | .tuple ys => sameItems xs ys | _ => false
  | .set xs => match w with | .set ys => xs.length = ys.length && within xs ys | _ => false
  | .map xs => match w with | .map ys => xs.length = ys.length && sameEntries xs ys | _ => false
  | .object xs => match w with
    | .object ys => xs.length = ys.length && sameMembers xs ys
    | _ => false
  | .kind s => match w with | .kind t => s = t | _ => false
  | .library _ => false
  | .function .. => false

/-- Equality of two lists, item by item. -/
def sameItems : List Value → List Value → Bool
  | [], [] => true
  | x :: xs, y :: ys => same x y && sameItems xs ys
  | _, _ => false

/-- Whether every item of the first list occurs in the second. -/
def within : List Value → List Value → Bool
  | [], _ => true
  | x :: xs, ys => ys.any (same x) && within xs ys

/-- Whether every entry of the first list has an equal one in the second. -/
def sameEntries : List (Value × Value) → List (Value × Value) → Bool
  | [], _ => true
  | (k, v) :: xs, ys => ys.any (fun e => same k e.1 && same v e.2) && sameEntries xs ys

/-- Whether every member of the first list has an equal one in the second. -/
def sameMembers : List (String × Value) → List (String × Value) → Bool
  | [], _ => true
  | (k, v) :: xs, ys => ys.any (fun e => k = e.1 && same v e.2) && sameMembers xs ys

end

/-- Whether a value counts as true where a truth value is wanted: not null, not zero, not empty. -/
def isTruthy : Value → Bool
  | .null => false
  | .bool b => b
  | .int n => n ≠ 0
  | .float x => !x.isZero
  | .text s => !s.isEmpty
  | .bytes bs => !bs.isEmpty
  | .list xs | .tuple xs | .set xs => !xs.isEmpty
  | .map es => !es.isEmpty
  | _ => true

mutual

/-- Whether a value can be a key: not a list, set, mapping or object, nor a tuple that holds one. -/
def canBeKey : Value → Bool
  | .list _ | .set _ | .map _ | .object _ => false
  | .tuple xs => canBeKeys xs
  | _ => true

/-- Whether all values of a list can be keys. -/
def canBeKeys : List Value → Bool
  | [] => true
  | x :: xs => canBeKey x && canBeKeys xs

end

/-- The text a value is, if it is one. -/
def asText? : Value → Option String
  | .text s => some s
  | _ => none

/-- The entries of a mapping. -/
def asMap? : Value → Option (List (Value × Value))
  | .map es => some es
  | _ => none

/-- Whether a value is the null value. -/
def isNull : Value → Bool
  | .null => true
  | _ => false

end Value

/-- The entries of a mapping, in the order in which their keys were first added. -/
abbrev Entries := List (Value × Value)

namespace Entries

/-- The value of a key. -/
def get? (m : Entries) (k : Value) : Option Value :=
  (m.find? fun e => e.1.same k).map (·.2)

/-- The value of a text key. -/
def field? (m : Entries) (name : String) : Option Value :=
  m.get? (.text name)

/-- Whether a key is present. -/
def has (m : Entries) (k : Value) : Bool :=
  m.any fun e => e.1.same k

/-- Sets the value of a key, in place if the key is present and at the end if it is not. -/
def insert (k v : Value) : Entries → Entries
  | [] => [(k, v)]
  | (k', v') :: rest => if k'.same k then (k', v) :: rest else (k', v') :: insert k v rest

/-- Removes a key. -/
def erase (m : Entries) (k : Value) : Entries :=
  m.filter fun e => !e.1.same k

/-- Sets every entry of `extra`, in order. -/
def update (m extra : Entries) : Entries :=
  extra.foldl (fun m e => m.insert e.1 e.2) m

/-- A mapping built from pairs: a later pair overwrites the value of an equal key. -/
def ofPairs (pairs : List (Value × Value)) : Entries :=
  update [] pairs

/-- Drops the entries whose key is one of the given names. -/
def without (m : Entries) (names : List String) : Entries :=
  m.filter fun e => !names.any fun n => e.1.same (.text n)

end Entries

namespace Value

/-- Values in one of the orders in which a set of them can be stored: whole numbers ascend, and
anything else stays in the order in which it came. -/
def listed (items : List Value) : List Value :=
  let numbers := items.filterMap fun
    | .int n => some n
    | _ => none
  if numbers.length = items.length then
    (numbers.mergeSort fun a b => decide (a ≤ b)).map Value.int
  else items

/-- A set built from values: an equal value is kept once. No order of a set is its own, so this is
only the one that a set is read in; what is said of sets has to hold for any order. -/
def setOf (items : List Value) : Value :=
  .set (listed (items.foldl (fun seen x => if seen.any (·.same x) then seen else seen ++ [x]) []))

end Value

end Choicebook
