import Choicebook.Template.Parser
import Choicebook.Text.Utf8
import Choicebook.Value.Text

/-!
# Rendering templates

A name is looked up in the innermost value first, then in those around it; the parts of a dotted
name after its first one are looked up in what came before them only. What is not found is the empty
text.

Functions among the values are called, and so that this can have effects, rendering happens in any
monad with faults. The fuel bounds how deep sections and inclusions are nested; a template that
includes itself is a fault.

Whoever renders templates only needs a `Renderer`: something that renders and does nothing else but
to call functions and to take templates in. `Template.render` is the one that the program uses.
-/

namespace Choicebook.Template

/-- What rendering needs from outside. -/
structure Surroundings (m : Type → Type) where
  /-- Calls a function, with the source of a section if it stands for one. -/
  call : Value → (source : Option String) → m Value
  /-- The template with a name, empty if there is none. -/
  inclusion : String → m String

variable {m : Type → Type}

/-- A property of acts that the surroundings of a template have, that failing has, and that
composition keeps. -/
structure Law [Monad m] [MonadExceptOf Fault m] (s : Surroundings m)
    (L : ∀ {α : Type}, m α → Prop) : Prop where
  pure : ∀ {α : Type} (x : α), L (pure x : m α)
  bind : ∀ {α β : Type} {a : m α} {f : α → m β}, L a → (∀ x, L (f x)) → L (a >>= f)
  throw : ∀ {α : Type} {f : Fault}, f ≠ .endless → L (throw f : m α)
  call : ∀ (v : Value) (source : Option String), L (s.call v source)
  inclusion : ∀ name : String, L (s.inclusion name)

/-- Something that renders templates. What it does apart from computing a text or failing, it does
by means of its surroundings; so rendering has every property that these have and that composition
keeps. -/
structure Renderer (m : Type → Type) [Monad m] [MonadExceptOf Fault m] where
  render : Surroundings m → (template : String) → (context : Value) → m String
  lawful {s : Surroundings m} {L : ∀ {α : Type}, m α → Prop} (l : Law s @L) (template : String)
    (context : Value) : L (render s template context)

/-- The numbers that a date has under some names. -/
def dateMember? (d : Date) (key : String) : Option Value :=
  match key with
  | "year" => some (.int d.year)
  | "month" => some (.int d.month)
  | "day" => some (.int d.day)
  | "isoformat" => some (.text d.iso)
  | _ => none

/-- The numbers that a time has under some names. -/
def timeMember? (t : ClockTime) (key : String) : Option Value :=
  match key with
  | "hour" => some (.int t.hour)
  | "minute" => some (.int t.minute)
  | "second" => some (.int t.second)
  | "microsecond" => some (.int t.micro)
  | "isoformat" => some (.text t.iso)
  | _ => none

/-- Whether a value can be called. -/
def isFunction : Value → Bool
  | .function .. | .kind _ => true
  | _ => false

section

variable [Monad m]

/-- What a value has under a name. A function among the members of an object is called. -/
def member? (s : Surroundings m) (v : Value) (key : String) : m (Option Value) := do
  match v with
  | .map es => return Entries.field? es key
  | .object ms =>
    match ms.lookup key with
    | some w => if isFunction w then return some (← s.call w none) else return some w
    | none => return none
  | .date d => return dateMember? d key
  | .time t => return timeMember? t key
  | .dateTime d =>
    if key = "isoformat" then return some (.text (d.iso "T"))
    else return (dateMember? d.date key).orElse fun _ => timeMember? d.time key
  | _ => return none

/-- What the innermost value that has something under a name has there. -/
def search? (s : Surroundings m) (key : String) : List Value → m (Option Value)
  | [] => return none
  | v :: outer => do
    match ← member? s v key with
    | some w => return some w
    | none => search? s key outer

/-- Follows the parts of a dotted name. -/
def descend? (s : Surroundings m) : List String → Value → m (Option Value)
  | [], v => return some v
  | key :: keys, v => do
    match ← member? s v key with
    | some w => descend? s keys w
    | none => return none

/-- The value of a name. The first of `stack` is the innermost value. -/
def resolve (s : Surroundings m) (stack : List Value) (name : String) : m Value := do
  if name = "." then return stack.headD (.text "")
  else
    match (Text.splitOn ['.'] name.toList).map String.ofList with
    | [] => return .text ""
    | first :: more =>
      match ← search? s first stack with
      | none => return .text ""
      | some v => return (← descend? s more v).getD (.text "")

/-- The items of a value that a section is for: none if it counts as false, and one unless the value
is a list of any sort. -/
def sectionItems (v : Value) : List Value :=
  if !v.isTruthy then []
  else match v with
    | .list xs | .tuple xs | .set xs => xs
    | v => [v]

/-- A value as a text; bytes have to be well-formed. -/
def shown (v : Value) : Except Fault String :=
  match v with
  | .bytes bs =>
    match Text.decodeUtf8? bs with
    | some cs => .ok (String.ofList cs)
    | none => .error (.misuse .undecodable)
  | v => v.written

/-- A template with an indentation in front of each line that is not empty. -/
def indented (indent : List Char) (cs : List Char) : List Char :=
  let lines := (Text.splitOn ['\n'] cs).map fun l => if l.isEmpty then l else indent ++ l
  Text.joinWith ['\n'] lines

variable [MonadExceptOf Fault m]

/-- A result, or its fault in the monad. -/
def orThrow {α : Type} (r : Except Fault α) : m α :=
  match r with
  | .ok x => pure x
  | .error f => throw f

/-- Parses a text and renders its pieces. -/
def renderWith (pieces : List Piece → m String) (d : Delimiters) (text : String) : m String := do
  pieces (← orThrow (parse d text.toList))

/-- Renders one piece. -/
def renderPiece (s : Surroundings m) : (fuel : Nat) → (stack : List Value) → Piece → m String
  | 0, _, _ => throw (.misuse .tooNested)
  | fuel + 1, stack, piece => do
    let all (stack : List Value) (ps : List Piece) : m String :=
      return String.join (← ps.mapM (renderPiece s fuel stack))
    match piece with
    | .text cs => return String.ofList cs
    | .value name =>
      let v ← resolve s stack name
      if isFunction v then renderWith (all stack) .braces (← orThrow (shown (← s.call v none)))
      else orThrow (shown v)
    | .forEach name inner source d =>
      let v ← resolve s stack name
      let parts ← (sectionItems v).mapM fun item => do
        if isFunction item then
          renderWith (all stack) d
            (← orThrow (shown (← s.call item (some (String.ofList source)))))
        else all (item :: stack) inner
      return String.join parts
    | .unless name inner =>
      let v ← resolve s stack name
      if v.isTruthy then return "" else all stack inner
    | .inclusion name indent =>
      let text ← s.inclusion name
      renderWith (all stack) .braces (String.ofList (indented indent text.toList))

/-- Renders a template for a value. -/
def render (s : Surroundings m) (template : String) (v : Value) : m String :=
  renderWith
    (fun ps => return String.join (← ps.mapM (renderPiece s (template.length + 1000) [v])))
    .braces template

end

end Choicebook.Template
