/-!
# Characters from bytes

`Text.decodeUtf8?` reads bytes as UTF-8 and refuses malformed ones. `Text.decodeLossy` reads any
bytes: each longest piece that begins like a character but is cut short becomes one replacement
character, and so does each other byte that begins no character.
-/

namespace Choicebook.Text

/-- What the front of a byte sequence is. -/
inductive Decoded where
  | character (c : Char) (length : Nat)
  /-- Malformed bytes, at least one. -/
  | malformed (length : Nat)

/-- A byte that continues a character, within bounds. -/
def continues (lo hi : Nat) (b : Option UInt8) : Option Nat :=
  match b with
  | some b => if lo ≤ b.toNat ∧ b.toNat ≤ hi then some (b.toNat % 64) else none
  | none => none

/-- The bounds of the second byte: they keep out overlong forms, surrogates and numbers
too large. -/
def secondBounds (lead : Nat) : Nat × Nat :=
  if lead = 0xE0 then (0xA0, 0xBF)
  else if lead = 0xED then (0x80, 0x9F)
  else if lead = 0xF0 then (0x90, 0xBF)
  else if lead = 0xF4 then (0x80, 0x8F)
  else (0x80, 0xBF)

/-- The character at the front. -/
def decodeFront (lead : Nat) (rest : List UInt8) : Decoded :=
  let (lo, hi) := secondBounds lead
  if lead < 0x80 then .character (Char.ofNat lead) 1
  else if lead < 0xC2 ∨ 0xF4 < lead then .malformed 1
  else match continues lo hi rest[0]? with
    | none => .malformed 1
    | some b =>
      if lead < 0xE0 then .character (Char.ofNat ((lead - 0xC0) * 64 + b)) 2
      else match continues 0x80 0xBF rest[1]? with
        | none => .malformed 2
        | some c =>
          if lead < 0xF0 then .character (Char.ofNat (((lead - 0xE0) * 64 + b) * 64 + c)) 3
          else match continues 0x80 0xBF rest[2]? with
            | none => .malformed 3
            | some d =>
              .character (Char.ofNat ((((lead - 0xF0) * 64 + b) * 64 + c) * 64 + d)) 4

/-- Reads bytes one character at a time; `skip` bytes of the front belong to the last character. -/
def decodeWith (onMalformed : Option Char) : (skip : Nat) → List UInt8 → Option (List Char)
  | _, [] => some []
  | skip + 1, _ :: rest => decodeWith onMalformed skip rest
  | 0, lead :: rest =>
    match decodeFront lead.toNat rest with
    | .character c n => (decodeWith onMalformed (n - 1) rest).map (c :: ·)
    | .malformed n =>
      match onMalformed with
      | none => none
      | some c => (decodeWith onMalformed (n - 1) rest).map (c :: ·)

/-- The characters of well-formed UTF-8. -/
def decodeUtf8? (bs : List UInt8) : Option (List Char) :=
  decodeWith none 0 bs

/-- The characters of any bytes, malformed ones replaced. -/
def decodeLossy (bs : List UInt8) : String :=
  String.ofList ((decodeWith (some '\ufffd') 0 bs).getD [])

end Choicebook.Text
