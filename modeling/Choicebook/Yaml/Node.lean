import Choicebook.Yaml.Scalar

/-!
# YAML nodes

A `Node` is a value as it is written: a scalar, a sequence or a mapping, each with its tag.
`Node.ofTokens` follows the grammar over the tokens of a text and gives the node of its only
document, or nothing if the text holds no document at all.

An alias stands for the node that carries the anchor of its name. An anchor must come first and is
given once; an alias inside the node that it stands for is refused.

The grammar runs on fuel, and every rule uses some up. All rules together need less than four steps
for each token.
-/

namespace Choicebook.Yaml

/-- A value as it is written. -/
inductive Node where
  | scalar (tag : Tag) (text : String)
  | sequence (tag : Tag) (items : List Node)
  | mapping (tag : Tag) (entries : List (Node × Node))

namespace Node

/-- The node of a missing value. -/
def empty : Node := .scalar .null ""

def tag : Node → Tag
  | scalar t _ => t
  | sequence t _ => t
  | mapping t _ => t

/-- The state of following the grammar: the tokens ahead, and the nodes of the anchors; an anchor
has none while its node is still being read. -/
structure Parse where
  tokens : List Token
  anchors : List (String × Option Node)

/-- A rule of the grammar; it gives nothing where the text breaks the rule. -/
abbrev Rule := StateT Parse Option

namespace Rule

/-- The token ahead; behind the last one the text has ended. -/
def peek : Rule Token := do
  let s ← get
  return s.tokens.headD .streamEnd

/-- Passes over the token ahead. -/
def advance : Rule Unit :=
  modify fun s => { s with tokens := s.tokens.drop 1 }

/-- Passes over the token ahead if it is `t`. -/
def accept (t : Token) : Rule Bool := do
  let ahead ← peek
  if ahead = t then
    advance
    return true
  else return false

/-- Passes over the token ahead, which must be `t`. -/
def expect (t : Token) : Rule Unit := do
  let found ← accept t
  if found then return () else failure

/-! ### Properties of a node -/

/-- What the handles of tags stand for. -/
abbrev Handles := List (String × String)

/-- An anchor and a tag in front of a node, in either order. -/
def properties : Rule (Option String × Option WrittenTag) := do
  match ← peek with
  | .anchor name =>
    advance
    match ← peek with
    | .tag t =>
      advance
      return (some name, some t)
    | _ => return (some name, none)
  | .tag t =>
    advance
    match ← peek with
    | .anchor name =>
      advance
      return (some name, some t)
    | _ => return (none, some t)
  | _ => return (none, none)

/-- The full name of a tag. -/
def fullName (handles : Handles) (t : WrittenTag) : Rule String :=
  match t.handle with
  | none => return t.suffix
  | some h =>
    match handles.lookup h with
    | some expansion => return expansion ++ t.suffix
    | none => failure

/-- The tag of a scalar. A lone exclamation mark makes any scalar a plain one. -/
def scalarTag (name : Option String) (text : String) (plain : Bool) : Tag :=
  match name with
  | none => if plain then Tag.ofPlain text else .text
  | some name => if name = "!" then Tag.ofPlain text else Tag.ofName name

/-- The tag of a collection. -/
def collectionTag (name : Option String) (preset : Tag) : Tag :=
  match name with
  | none => preset
  | some name => if name = "!" then preset else Tag.ofName name

/-- Notes that the node of an anchor is being read; a name may be given only once. -/
def openAnchor (anchor : Option String) : Rule Unit := do
  match anchor with
  | none => return ()
  | some name =>
    let s ← get
    if (s.anchors.lookup name).isSome then failure
    else set { s with anchors := (name, none) :: s.anchors }

/-- Gives an anchor its node. -/
def closeAnchor (anchor : Option String) (n : Node) : Rule Node := do
  match anchor with
  | none => return n
  | some name =>
    modify fun s => { s with anchors := (name, some n) :: s.anchors }
    return n

/-- The node that an alias stands for. -/
def resolve (name : String) : Rule Node := do
  let s ← get
  match s.anchors.lookup name with
  | some (some n) => return n
  | _ => failure

/-! ### Where a node is missing -/

def endsBlockItem (t : Token) : Bool := t = .blockEntry || t = .blockEnd

def endsIndentlessItem (t : Token) : Bool :=
  t = .blockEntry || t = .key || t = .value || t = .blockEnd

def endsBlockPart (t : Token) : Bool := t = .key || t = .value || t = .blockEnd

def endsFlowKey (close t : Token) : Bool := t = .value || t = .flowEntry || t = close

def endsFlowValue (close t : Token) : Bool := t = .flowEntry || t = close

/-! ### The rules -/

/-- Which nodes may stand at a place, besides scalars and those in brackets. -/
inductive Place where
  | flow
  | block
  /-- As a part of a block mapping, where the items of a sequence need no indentation. -/
  | blockPart
  deriving DecidableEq

mutual

/-- A node. -/
def node (handles : Handles) (place : Place) : (fuel : Nat) → Rule Node
  | 0 => failure
  | fuel + 1 => do
    match ← peek with
    | .alias name =>
      advance
      resolve name
    | _ =>
      let (anchor, written) ← properties
      let name ← match written with
        | none => pure none
        | some t => some <$> fullName handles t
      openAnchor anchor
      let ahead ← peek
      let n ← match ahead with
        | .scalar text plain =>
          advance
          pure (Node.scalar (scalarTag name text plain) text)
        | .flowSequenceStart =>
          advance
          Node.sequence (collectionTag name .sequence) <$> flowItems handles true fuel
        | .flowMappingStart =>
          advance
          Node.mapping (collectionTag name .mapping) <$> flowEntries handles true fuel
        | .blockEntry =>
          if place = .blockPart then
            Node.sequence (collectionTag name .sequence) <$> indentlessItems handles fuel
          else missing anchor name
        | .blockSequenceStart =>
          if place = .flow then missing anchor name
          else
            advance
            Node.sequence (collectionTag name .sequence) <$> blockItems handles fuel
        | .blockMappingStart =>
          if place = .flow then missing anchor name
          else
            advance
            Node.mapping (collectionTag name .mapping) <$> blockEntries handles fuel
        | _ => missing anchor name
      closeAnchor anchor n

/-- A node that is missing, which only properties allow. -/
def missing (anchor name : Option String) : Rule Node :=
  if anchor.isSome || name.isSome then return .scalar (scalarTag name "" true) "" else failure

/-- A node, or the empty one if a token ahead shows that it is missing. -/
def nodeUnless (handles : Handles) (place : Place) (ends : Token → Bool) : (fuel : Nat) → Rule Node
  | 0 => failure
  | fuel + 1 => do
    let ahead ← peek
    if ends ahead then return .empty else node handles place fuel

/-- The items of a block sequence up to its end. -/
def blockItems (handles : Handles) : (fuel : Nat) → Rule (List Node)
  | 0 => failure
  | fuel + 1 => do
    if ← accept .blockEntry then
      let item ← nodeUnless handles .block endsBlockItem fuel
      let more ← blockItems handles fuel
      return item :: more
    else
      expect .blockEnd
      return []

/-- The items of a sequence that is not indented. -/
def indentlessItems (handles : Handles) : (fuel : Nat) → Rule (List Node)
  | 0 => failure
  | fuel + 1 => do
    if ← accept .blockEntry then
      let item ← nodeUnless handles .block endsIndentlessItem fuel
      let more ← indentlessItems handles fuel
      return item :: more
    else return []

/-- The entries of a block mapping up to its end. -/
def blockEntries (handles : Handles) : (fuel : Nat) → Rule (List (Node × Node))
  | 0 => failure
  | fuel + 1 => do
    if ← accept .key then
      let key ← nodeUnless handles .blockPart endsBlockPart fuel
      let value ← valueAfterKey handles .blockPart endsBlockPart fuel
      let more ← blockEntries handles fuel
      return (key, value) :: more
    else
      expect .blockEnd
      return []

/-- The value behind a key; without a colon it is missing. -/
def valueAfterKey (handles : Handles) (place : Place) (ends : Token → Bool) :
    (fuel : Nat) → Rule Node
  | 0 => failure
  | fuel + 1 => do
    if ← accept .value then nodeUnless handles place ends fuel else return .empty

/-- The items of a sequence in brackets up to the closing one. A key among them starts a mapping
with one entry. -/
def flowItems (handles : Handles) (first : Bool) : (fuel : Nat) → Rule (List Node)
  | 0 => failure
  | fuel + 1 => do
    if ← accept .flowSequenceEnd then return []
    else
      if !first then expect .flowEntry
      if ← accept .key then
        let key ← nodeUnless handles .flow (endsFlowKey .flowSequenceEnd) fuel
        let value ← valueAfterKey handles .flow (endsFlowValue .flowSequenceEnd) fuel
        let more ← flowItems handles false fuel
        return .mapping .mapping [(key, value)] :: more
      else if ← accept .flowSequenceEnd then return []
      else
        let item ← node handles .flow fuel
        let more ← flowItems handles false fuel
        return item :: more

/-- The entries of a mapping in braces up to the closing one. A node without a colon is a key. -/
def flowEntries (handles : Handles) (first : Bool) : (fuel : Nat) → Rule (List (Node × Node))
  | 0 => failure
  | fuel + 1 => do
    if ← accept .flowMappingEnd then return []
    else
      if !first then expect .flowEntry
      if ← accept .key then
        let key ← nodeUnless handles .flow (endsFlowKey .flowMappingEnd) fuel
        let value ← valueAfterKey handles .flow (endsFlowValue .flowMappingEnd) fuel
        let more ← flowEntries handles false fuel
        return (key, value) :: more
      else if ← accept .flowMappingEnd then return []
      else
        let key ← node handles .flow fuel
        let more ← flowEntries handles false fuel
        return (key, .empty) :: more

end

/-! ### Documents -/

/-- What the handles stand for unless a directive says otherwise. -/
def presetHandles : Handles := [("!", "!"), ("!!", Tag.standard)]

/-- The directives in front of a document: what they make of the handles. -/
def directives : (fuel : Nat) → (versioned : Bool) → Handles → Rule Handles
  | 0, _, _ => failure
  | fuel + 1, versioned, handles => do
    match ← peek with
    | .version major =>
      advance
      if versioned || major ≠ 1 then failure else directives fuel true handles
    | .tagHandle handle expansion =>
      advance
      if (handles.lookup handle).isSome then failure
      else directives fuel versioned (handles ++ [(handle, expansion)])
    | .otherDirective =>
      advance
      directives fuel versioned handles
    | _ => return handles

/-- Passes over the end marks of documents. -/
def skipEnds : (fuel : Nat) → Rule Unit
  | 0 => return ()
  | fuel + 1 => do
    if ← accept .documentEnd then skipEnds fuel else return ()

def isDirective : Token → Bool
  | .version _ | .tagHandle .. | .otherDirective => true
  | _ => false

/-- The node of the only document. -/
def document (fuel : Nat) : Rule (Option Node) := do
  let ahead ← peek
  if ahead = .streamEnd then return none
  else
    let root ←
      if ahead = .documentStart || isDirective ahead then do
        let given ← directives fuel false []
        expect .documentStart
        let empty (t : Token) : Bool :=
          isDirective t || t = .documentStart || t = .documentEnd || t = .streamEnd
        nodeUnless (given ++ presetHandles) .block empty fuel
      else node presetHandles .block fuel
    skipEnds fuel
    expect .streamEnd
    return some root

end Rule

/-- The node of the only document, if there is one. -/
def ofTokens (tokens : List Token) : Except Problem (Option Node) :=
  match (Rule.document (4 * tokens.length + 8)).run ⟨tokens, []⟩ with
  | some (root, _) => .ok root
  | none => .error .malformed

end Node

end Choicebook.Yaml
