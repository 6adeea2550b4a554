import Choicebook.Choice.Basic

/-!
# The tree of choices

Walking the choices of a document, and changing the settings of its script commands.
-/

namespace Choicebook

namespace Choice

mutual

/-- A choice and all choices under it in menus, in the order of the document. Choices inside of
macros are not among them. -/
def flatten : Choice → List Choice
  | multi h cs collapsed => multi h cs collapsed :: flattenAll cs
  | c => [c]

/-- All choices of a list and those under them. -/
def flattenAll : List Choice → List Choice
  | [] => []
  | c :: cs => flatten c ++ flattenAll cs

end

/-- The macro of a choice. -/
def body? : Choice → Option Macro
  | ofMacro _ m => m
  | _ => none

/-- Whether the choice is one that runs a macro. -/
def isMacro : Choice → Bool
  | ofMacro .. => true
  | _ => false

end Choice

mutual

/-- Changes the settings of a script command wherever it occurs in a choice. -/
def Choice.mapSettings (slot : Nat) (f : Entries → Entries) : Choice → Choice
  | .ofMacro h (some m) => .ofMacro h (some (Macro.mapSettings slot f m))
  | .multi h cs collapsed => .multi h (Choice.mapSettingsAll slot f cs) collapsed
  | c => c

/-- Changes the settings of a script command wherever it occurs in a list of choices. -/
def Choice.mapSettingsAll (slot : Nat) (f : Entries → Entries) : List Choice → List Choice
  | [] => []
  | c :: cs => Choice.mapSettings slot f c :: Choice.mapSettingsAll slot f cs

/-- Changes the settings of a script command wherever it occurs in a macro. -/
def Macro.mapSettings (slot : Nat) (f : Entries → Entries) : Macro → Macro
  | .mk i n cs r => .mk i n (Command.mapSettingsAll slot f cs) r

/-- Changes the settings of a script command wherever it occurs in a command. -/
def Command.mapSettings (slot : Nat) (f : Entries → Entries) : Command → Command
  | .script h path settings s => .script h path (if s = slot then f settings else settings) s
  | .nested h (some c) => .nested h (some (Choice.mapSettings slot f c))
  | .conditional h c thens elses =>
    .conditional h c (Command.mapSettingsAll slot f thens) (Command.mapSettingsAll slot f elses)
  | c => c

/-- Changes the settings of a script command wherever it occurs in a list of commands. -/
def Command.mapSettingsAll (slot : Nat) (f : Entries → Entries) : List Command → List Command
  | [] => []
  | c :: cs => Command.mapSettings slot f c :: Command.mapSettingsAll slot f cs

end

namespace Document

/-- Changes the settings of a script command wherever it occurs in a document. -/
def mapSettings (slot : Nat) (f : Entries → Entries) (d : Document) : Document :=
  { d with
    choices := Choice.mapSettingsAll slot f d.choices
    macros := d.macros.map (Macro.mapSettings slot f) }

/-- Keeps the first macro of each id; ids in `seen` are taken already. -/
def distinct (seen : List Value) : List Macro → Except Fault (List Macro)
  | [] => .ok []
  | m :: ms =>
    if !m.id.canBeKey then .error (.misuse .wrongType)
    else if seen.any (·.same m.id) then distinct seen ms
    else (m :: ·) <$> distinct (m.id :: seen) ms

/-- The macros kept beside the choices, then those of the choices, each id once. A written document
holds a macro of the first sort at both places; the first occurrence counts. -/
def allMacros (d : Document) : Except Fault (List Macro) :=
  distinct [] (d.macros ++ (Choice.flattenAll d.choices).filterMap Choice.body?)

end Document

end Choicebook
