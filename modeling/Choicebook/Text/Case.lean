import Choicebook.Text.CaseTable
import Choicebook.Text.Printable

/-!
# Small and capital letters

`Text.lower` and `Text.upper` map a whole text. Two rules need more than one letter: a capital sigma
at the end of a word becomes a final sigma, and some small letters have capitals of several letters.
-/

namespace Choicebook.Text

/-- The image of a code point under a table of runs. -/
def caseImage (runs : Array CaseRun) (n : Nat) : Option Nat :=
  (runs.find? fun r => r.1 ≤ n && n ≤ r.2.1 && (n - r.1) % r.2.2.1 == 0).map
    fun r => r.2.2.2 + (n - r.1)

/-- The small form of a letter, without regard to its neighbours. -/
def lowerChar (c : Char) : List Char :=
  if c.toNat < 128 then [c.toLower]
  else if c.toNat == 0x130 then ['i', Char.ofNat 0x307]
  else match caseImage lowerRuns c.toNat with
    | some n => [Char.ofNat n]
    | none => [c]

/-- The capital form of a letter. -/
def upperChar (c : Char) : List Char :=
  if c.toNat < 128 then [c.toUpper]
  else match upperExpansions.find? (·.1 == c.toNat) with
    | some (_, ns) => ns.map Char.ofNat
    | none => match caseImage upperRuns c.toNat with
      | some n => [Char.ofNat n]
      | none => [c]

/-- Whether the nearest letter that is not passed over has case. -/
def meetsCased (cs : List Char) : Bool :=
  match cs.dropWhile (memRanges caseIgnorableRanges) with
  | [] => false
  | c :: _ => memRanges casedRanges c

/-- Small letters; `seen` holds the characters before the rest, the nearest first. A capital sigma
becomes final when a letter with case comes before it and none after it. -/
def lowerFrom (seen : List Char) : List Char → List Char
  | [] => []
  | c :: rest =>
    let image :=
      if c.toNat == 0x3A3 then
        if meetsCased seen && !meetsCased rest then [Char.ofNat 0x3C2] else [Char.ofNat 0x3C3]
      else lowerChar c
    image ++ lowerFrom (c :: seen) rest

/-- A text in small letters. -/
def lower (s : String) : String :=
  String.ofList (lowerFrom [] s.toList)

/-- A text in capitals. -/
def upper (s : String) : String :=
  String.ofList (s.toList.flatMap upperChar)

end Choicebook.Text
