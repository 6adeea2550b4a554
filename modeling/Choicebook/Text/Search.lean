/-!
# Pieces of a text

Finding, cutting and replacing pieces of a text, over `List Char`.
-/

namespace Choicebook.Text

/-- What follows `piece` at the front of `cs`, if `piece` stands there. -/
def afterPiece? : (piece cs : List Char) → Option (List Char)
  | [], cs => some cs
  | _ :: _, [] => none
  | p :: ps, c :: cs => if p = c then afterPiece? ps cs else none

/-- Whether `piece` stands somewhere in `cs`. -/
def hasPiece (piece : List Char) : List Char → Bool
  | [] => piece.isEmpty
  | c :: cs => (afterPiece? piece (c :: cs)).isSome || hasPiece piece cs

/-- Whether a text holds another one. -/
def contains (s piece : String) : Bool :=
  hasPiece piece.toList s.toList

/-- Whether a text begins with another one. -/
def startsWith (s piece : String) : Bool :=
  (afterPiece? piece.toList s.toList).isSome

/-- Whether a text ends with another one. -/
def endsWith (s piece : String) : Bool :=
  (afterPiece? piece.toList.reverse s.toList.reverse).isSome

theorem length_of_afterPiece? {piece cs rest : List Char} (h : afterPiece? piece cs = some rest) :
    cs.length = piece.length + rest.length := by
  induction piece generalizing cs with
  | nil => simp_all [afterPiece?]
  | cons p ps ih =>
    cases cs with
    | nil => simp [afterPiece?] at h
    | cons c cs =>
      simp only [afterPiece?] at h
      split at h
      · have := ih h
        simp only [List.length_cons]
        omega
      · simp at h

/-- Cuts `cs` at every occurrence of `sep`, from the left and without overlap; `acc` holds, in
reverse, the characters of the piece being read. -/
def splitPieces (sep : List Char) (acc : List Char) : List Char → List (List Char)
  | [] => [acc.reverse]
  | c :: cs =>
    if sep.isEmpty then [acc.reverse ++ c :: cs]
    else match _found : afterPiece? sep (c :: cs) with
      | some rest => acc.reverse :: splitPieces sep [] rest
      | none => splitPieces sep (c :: acc) cs
termination_by cs => cs.length
decreasing_by
  · have h1 := length_of_afterPiece? _found
    have h2 : 0 < sep.length := List.length_pos_iff.2 (by simp_all)
    simp only [List.length_cons] at h1 ⊢
    omega
  · simp

/-- The pieces of `cs` between the occurrences of `sep`; without any, `cs` alone. -/
def splitOn (sep cs : List Char) : List (List Char) :=
  splitPieces sep [] cs

/-- Joins pieces with a separator between neighbours. -/
def joinWith (sep : List Char) : List (List Char) → List Char
  | [] => []
  | [p] => p
  | p :: q :: ps => p ++ sep ++ joinWith sep (q :: ps)

/-- Replaces every occurrence of `old`, from the left and without overlap. -/
def replace (old new cs : List Char) : List Char :=
  joinWith new (splitOn old cs)

/-- Joins texts with a separator between neighbours. -/
def join (sep : String) (pieces : List String) : String :=
  sep.intercalate pieces

/-- The position of the first occurrence of `c` at or after `start`, counting characters. -/
def indexFrom? (c : Char) (start : Nat) (cs : List Char) : Option Nat :=
  ((cs.drop start).findIdx? (· == c)).map (start + ·)

/-- A text repeated. -/
def repeated (s : String) (n : Nat) : String :=
  String.join (List.replicate n s)

end Choicebook.Text
