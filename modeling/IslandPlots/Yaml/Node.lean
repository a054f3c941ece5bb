import IslandPlots.Yaml.Scanner

/-!
# YAML documents

A document is a tree of scalars, sequences and mappings.  A part of it can carry an anchor,
and an alias stands for the part with a given anchor; anchors are kept as numbers.

`Document.ofTokens` reads the tokens of a stream.  The number of an anchor is the count of
different anchor names before it, so a name that is used again gives a new number, which
the next new name shares; an alias stands for the last part with its number
(`Document.target?`).
-/

namespace IslandPlots.Yaml

/-- A scalar of a document. -/
structure Scalar where
  text : List Char := []
  style : Style := .plain
  /-- The tag, with its handle replaced. -/
  tag : Option Text.Bytes := none
deriving DecidableEq, Inhabited

/-- A part of a document. -/
inductive Node where
  | scalar (anchor : Option Nat) (scalar : Scalar)
  | alias (anchor : Nat)
  | sequence (anchor : Option Nat) (items : List Node)
  | mapping (anchor : Option Nat) (pairs : List (Node × Node))
deriving Inhabited

namespace Node

/-- A scalar that is left out. -/
def absent : Node :=
  .scalar none {}

mutual

/-- The parts of a node that carry an anchor, in the order of the text. -/
def anchored : Node → List (Nat × Node)
  | node@(.scalar anchor _) => (anchor.map (·, node)).toList
  | .alias _ => []
  | node@(.sequence anchor items) => (anchor.map (·, node)).toList ++ anchoredItems items
  | node@(.mapping anchor pairs) => (anchor.map (·, node)).toList ++ anchoredPairs pairs

/-- The parts with an anchor among the items of a sequence. -/
def anchoredItems : List Node → List (Nat × Node)
  | [] => []
  | item :: items => item.anchored ++ anchoredItems items

/-- The parts with an anchor among the pairs of a mapping. -/
def anchoredPairs : List (Node × Node) → List (Nat × Node)
  | [] => []
  | (key, value) :: pairs => key.anchored ++ value.anchored ++ anchoredPairs pairs

end

end Node

/-! ### Reading nodes -/

/-- What a reader of nodes knows: the tokens still to be read, the handles of tags with
what they stand for, and the numbers of the anchor names seen. -/
structure Reader where
  tokens : List Token
  handles : List (List Char × Text.Bytes) := []
  anchors : List (List Char × Nat) := []
deriving Inhabited

/-- An action of a reader. -/
abbrev Read := StateT Reader (Except Problem)

namespace Read

/-- The next token. -/
def peek? : Read (Option Token) :=
  return (← get).tokens.head?

/-- Passes the next token. -/
def pass : Read Unit :=
  modify fun r => { r with tokens := r.tokens.tail }

/-- Passes the next token if it is `token`, and says whether it was. -/
def accept (token : Token) : Read Bool := do
  if (← peek?) = some token then
    pass
    return true
  else return false

/-- Whether the next token is one of `tokens`. -/
def sees (tokens : List Token) : Read Bool :=
  return (← peek?).any tokens.contains

/-- Passes an anchor, if there is one, and gives it a number. -/
def anchor? : Read (Option Nat) := do
  match ← peek? with
  | some (.anchor name) =>
    pass
    let number := (← get).anchors.length
    modify fun r =>
      { r with anchors := (name, number) :: r.anchors.filter fun known => known.1 ≠ name }
    return some number
  | _ => return none

/-- Passes a tag, if there is one, and replaces its handle. -/
def tag? : Read (Option Text.Bytes) := do
  match ← peek? with
  | some (.tag handle suffix) =>
    pass
    if handle = [] then return some suffix
    else
      match (← get).handles.lookup handle with
      | some replacement => return some (replacement ++ suffix)
      | none => throw .undefinedTagHandle
  | _ => return none

/-- Passes an anchor and a tag in either order, so far as they are there. -/
def properties : Read (Option Nat × Option Text.Bytes) := do
  match ← anchor? with
  | some number => return (some number, ← tag?)
  | none =>
    match ← tag? with
    | some tag => return (← anchor?, some tag)
    | none => return (none, none)

mutual

/-- Reads a node.  Block collections may begin only if `inBlock`, and a sequence whose
entries are not indented only if `indentless`. -/
def node (inBlock indentless : Bool) : Nat → Read Node
  | 0 => throw .tooDeep
  | fuel + 1 => do
    match ← peek? with
    | some (.alias name) =>
      pass
      match (← get).anchors.lookup name with
      | some number => return .alias number
      | none => throw .unknownAlias
    | _ =>
      let (anchor, tag) ← properties
      match ← peek? with
      | some (.scalar text style) =>
        pass
        return .scalar anchor { text, style, tag }
      | some .flowSequenceStart =>
        pass
        return .sequence anchor (← flowItems true fuel)
      | some .flowMappingStart =>
        pass
        return .mapping anchor (← flowPairs true fuel)
      | some token =>
        if indentless ∧ token = .blockEntry then
          return .sequence anchor (← indentlessItems fuel)
        else if inBlock ∧ token = .blockSequenceStart then
          pass
          return .sequence anchor (← blockItems fuel)
        else if inBlock ∧ token = .blockMappingStart then
          pass
          return .mapping anchor (← blockPairs fuel)
        else if anchor.isSome ∨ tag.isSome then return .scalar anchor { tag }
        else throw .missingContent
      | none =>
        if anchor.isSome ∨ tag.isSome then return .scalar anchor { tag }
        else throw .missingContent

/-- Reads a node, which is left out if the next token is one of `ends`. -/
def nodeUnless (ends : List Token) (inBlock indentless : Bool) : Nat → Read Node
  | 0 => throw .tooDeep
  | fuel + 1 => do
    if ← sees ends then return .absent else node inBlock indentless fuel

/-- Reads the value of a pair, which is left out if there is no colon or the token after it
is one of `ends`. -/
def valueUnless (ends : List Token) (inBlock : Bool) : Nat → Read Node
  | 0 => throw .tooDeep
  | fuel + 1 => do
    if ← accept .value then nodeUnless ends inBlock inBlock fuel else return .absent

/-- Reads the entries of a block sequence. -/
def blockItems : Nat → Read (List Node)
  | 0 => throw .tooDeep
  | fuel + 1 => do
    if ← accept .blockEnd then return []
    else if ← accept .blockEntry then
      let item ← nodeUnless [.blockEntry, .blockEnd] true false fuel
      return item :: (← blockItems fuel)
    else throw .missingEntry

/-- Reads the entries of a block sequence that is not indented. -/
def indentlessItems : Nat → Read (List Node)
  | 0 => throw .tooDeep
  | fuel + 1 => do
    if ← accept .blockEntry then
      let item ← nodeUnless [.blockEntry, .key, .value, .blockEnd] true false fuel
      return item :: (← indentlessItems fuel)
    else return []

/-- Reads the pairs of a block mapping. -/
def blockPairs : Nat → Read (List (Node × Node))
  | 0 => throw .tooDeep
  | fuel + 1 => do
    if ← accept .blockEnd then return []
    else if ← accept .key then
      let ends := [.key, .value, .blockEnd]
      let key ← nodeUnless ends true true fuel
      let value ← valueUnless ends true fuel
      return (key, value) :: (← blockPairs fuel)
    else throw .missingEntry

/-- Reads the entries of a flow sequence.  A pair among them is a mapping of its own; a key
that is left out takes the place of the token after it. -/
def flowItems (first : Bool) : Nat → Read (List Node)
  | 0 => throw .tooDeep
  | fuel + 1 => do
    if ← accept .flowSequenceEnd then return []
    else
      unless first do
        unless ← accept .flowEntry do throw .missingEntry
      if ← accept .flowSequenceEnd then return []
      else if ← accept .key then
        let key ←
          if ← sees [.value, .flowEntry, .flowSequenceEnd] then
            pass
            pure .absent
          else node false false fuel
        let value ← valueUnless [.flowEntry, .flowSequenceEnd] false fuel
        return .mapping none [(key, value)] :: (← flowItems false fuel)
      else
        let item ← node false false fuel
        return item :: (← flowItems false fuel)

/-- Reads the pairs of a flow mapping. -/
def flowPairs (first : Bool) : Nat → Read (List (Node × Node))
  | 0 => throw .tooDeep
  | fuel + 1 => do
    if ← accept .flowMappingEnd then return []
    else
      unless first do
        unless ← accept .flowEntry do throw .missingEntry
      if ← accept .flowMappingEnd then return []
      else if ← accept .key then
        let key ← nodeUnless [.value, .flowEntry, .flowMappingEnd] false false fuel
        let value ← valueUnless [.flowEntry, .flowMappingEnd] false fuel
        return (key, value) :: (← flowPairs false fuel)
      else
        let key ← node false false fuel
        return (key, .absent) :: (← flowPairs false fuel)

end

/-! ### Reading documents -/

/-- The handles every document knows. -/
def commonHandles : List (List Char × Text.Bytes) :=
  [("!".toList, Text.encodeString "!"), ("!!".toList, Text.encodeString "tag:yaml.org,2002:")]

/-- Passes the directives before a document.  `versioned` says whether there was a version
already. -/
def directives (versioned : Bool) : Nat → Read Unit
  | 0 => throw .tooDeep
  | fuel + 1 => do
    match ← peek? with
    | some (.versionDirective major minor) =>
      if versioned then throw .duplicateDirective
      else if major = 1 ∧ (minor = 1 ∨ minor = 2) then
        pass
        directives true fuel
      else throw .unsupportedVersion
    | some (.tagDirective handle replacement) =>
      if ((← get).handles.lookup handle).isSome then throw .duplicateDirective
      else
        pass
        modify fun r => { r with handles := r.handles ++ [(handle, replacement)] }
        directives versioned fuel
    | _ => modify fun r => { r with handles := r.handles ++ commonHandles }

/-- Whether a token is a directive or a document mark. -/
def isBoundary : Token → Bool
  | .versionDirective _ _ | .tagDirective _ _ | .documentStart | .documentEnd => true
  | _ => false

/-- Reads the first document of a stream, which may lack the mark before it.  There is no
document when there are no tokens. -/
def document? (fuel : Nat) : Read (Option Node) := do
  match ← peek? with
  | none => return none
  | some token =>
    if isBoundary token ∧ token ≠ .documentEnd then
      directives false fuel
      unless ← accept .documentStart do throw .missingDocumentStart
      if (← peek?).all isBoundary then return some .absent
      else return some (← node true false fuel)
    else
      directives false fuel
      return some (← node true false fuel)

/-- Passes the marks after a document; after them the stream must end. -/
def streamEnd : Read Unit := do
  let rest := (← get).tokens.dropWhile (· = .documentEnd)
  unless rest.isEmpty do throw .severalDocuments

end Read

/-- A document: its top node, if it has one, and its parts with an anchor. -/
structure Document where
  root : Option Node
  anchored : List (Nat × Node)

namespace Document

/-- The document that a sequence of tokens shows. -/
def ofTokens (tokens : List Token) : Except Problem Document := do
  let read : Read (Option Node) := do
    let root ← Read.document? (4 * tokens.length + 8)
    Read.streamEnd
    return root
  let (root, _) ← read.run { tokens }
  return { root, anchored := (root.map Node.anchored).getD [] }

/-- The document that a text shows. -/
def ofText (text : List Char) : Except Problem Document := do
  ofTokens (← scan text)

/-- The part for which an alias stands: the last one with its number. -/
def target? (document : Document) (anchor : Nat) : Option Node :=
  document.anchored.reverse.lookup anchor

/-- The scalar for which a node stands. -/
def scalar? (document : Document) : Node → Option Scalar
  | .scalar _ scalar => some scalar
  | .alias anchor =>
    match document.target? anchor with
    | some (.scalar _ scalar) => some scalar
    | _ => none
  | _ => none

end Document

end IslandPlots.Yaml
