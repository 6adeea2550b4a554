/-!
# Dates and times of day

Calendar dates from year 1 to 9999, times of day to the microsecond with an optional offset from
universal time, and their combination. `ofIso?` functions read the written forms that `iso`
functions produce; `isValid` says which values exist in the calendar.
-/

namespace Choicebook

/-- A calendar date. -/
structure Date where
  year : Nat
  month : Nat
  day : Nat
  deriving DecidableEq, Repr

/-- A time of day; `offset` is the distance from universal time in minutes, positive to the east. -/
structure ClockTime where
  hour : Nat
  minute : Nat
  second : Nat
  micro : Nat
  offset : Option Int
  deriving DecidableEq, Repr

/-- A date with a time of day. -/
structure DateTime where
  date : Date
  time : ClockTime
  deriving DecidableEq, Repr

namespace Calendar

/-- The decimal digits of `n`, with zeros in front up to a width. -/
def padded (width n : Nat) : String :=
  let ds := Nat.toDigits 10 n
  String.ofList (List.replicate (width - ds.length) '0' ++ ds)

/-- Years whose February has 29 days. -/
def isLeap (year : Nat) : Bool :=
  year % 4 = 0 && (year % 100 ≠ 0 || year % 400 = 0)

/-- How many days a month has. -/
def daysIn (year month : Nat) : Nat :=
  if month = 2 then (if isLeap year then 29 else 28)
  else if month = 4 ∨ month = 6 ∨ month = 9 ∨ month = 11 then 30
  else 31

/-- Reads exactly `width` ASCII digits. -/
def digits? : (width : Nat) → List Char → Option (Nat × List Char)
  | 0, cs => some (0, cs)
  | w + 1, c :: cs =>
    if c.isDigit then
      (digits? w cs).map fun r => ((c.toNat - 48) * Nat.pow 10 w + r.1, r.2)
    else none
  | _ + 1, [] => none

/-- Reads one given character. -/
def mark? (m : Char) : List Char → Option (List Char)
  | c :: cs => if c = m then some cs else none
  | [] => none

end Calendar

open Calendar

namespace Date

def isValid (d : Date) : Bool :=
  1 ≤ d.year && d.year ≤ 9999 && 1 ≤ d.month && d.month ≤ 12 && 1 ≤ d.day
    && d.day ≤ daysIn d.year d.month

/-- `2024-02-29`. -/
def iso (d : Date) : String :=
  padded 4 d.year ++ "-" ++ padded 2 d.month ++ "-" ++ padded 2 d.day

/-- Reads the front of a text as a date. -/
def read? (cs : List Char) : Option (Date × List Char) := do
  let (y, cs) ← digits? 4 cs
  let cs ← mark? '-' cs
  let (m, cs) ← digits? 2 cs
  let cs ← mark? '-' cs
  let (d, cs) ← digits? 2 cs
  some (⟨y, m, d⟩, cs)

/-- The date a text is the written form of. -/
def ofIso? (s : String) : Option Date :=
  match read? s.toList with
  | some (d, []) => if d.isValid then some d else none
  | _ => none

end Date

namespace ClockTime

def isValid (t : ClockTime) : Bool :=
  t.hour ≤ 23 && t.minute ≤ 59 && t.second ≤ 59 && t.micro ≤ 999999
    && (match t.offset with
        | some o => o.natAbs < 24 * 60
        | none => true)

/-- An offset as `+02:30`. -/
def isoOffset (o : Int) : String :=
  (if o < 0 then "-" else "+") ++ padded 2 (o.natAbs / 60) ++ ":" ++ padded 2 (o.natAbs % 60)

/-- `03:04:05`, with six digits after a point if there are microseconds, and the offset. -/
def iso (t : ClockTime) : String :=
  padded 2 t.hour ++ ":" ++ padded 2 t.minute ++ ":" ++ padded 2 t.second
    ++ (if t.micro = 0 then "" else "." ++ padded 6 t.micro)
    ++ (t.offset.map isoOffset).getD ""

/-- Reads an offset, which ends the text. -/
def readOffset? : List Char → Option (Option Int)
  | [] => some none
  | ['Z'] => some (some 0)
  | c :: cs => do
    let negative ← if c = '-' then some true else if c = '+' then some false else none
    let (h, cs) ← digits? 2 cs
    let cs ← mark? ':' cs
    let (m, cs) ← digits? 2 cs
    let o : Int := (h * 60 + m : Nat)
    if cs.isEmpty then some (some (if negative then -o else o)) else none

/-- The time that a list of characters is the written form of. -/
def read? (cs : List Char) : Option ClockTime := do
  let (h, cs) ← digits? 2 cs
  let cs ← mark? ':' cs
  let (m, cs) ← digits? 2 cs
  let (s, cs) ← match mark? ':' cs with
    | some cs => digits? 2 cs
    | none => some (0, cs)
  let (u, cs) ← match mark? '.' cs with
    | some cs => (digits? 6 cs).orElse fun _ => (digits? 3 cs).map fun r => (r.1 * 1000, r.2)
    | none => some (0, cs)
  let o ← readOffset? cs
  some ⟨h, m, s, u, o⟩

/-- The time a text is the written form of. -/
def ofIso? (s : String) : Option ClockTime :=
  (read? s.toList).filter isValid

end ClockTime

namespace DateTime

def isValid (d : DateTime) : Bool := d.date.isValid && d.time.isValid

/-- The date and the time with `separator` between them. -/
def iso (separator : String) (d : DateTime) : String :=
  d.date.iso ++ separator ++ d.time.iso

/-- The date and time a text is the written form of. -/
def ofIso? (s : String) : Option DateTime := do
  let (d, cs) ← Date.read? s.toList
  let t ← match cs with
    | [] => some ⟨0, 0, 0, 0, none⟩
    | _ :: cs => ClockTime.read? cs
  if d.isValid && t.isValid then some ⟨d, t⟩ else none

end DateTime

end Choicebook
