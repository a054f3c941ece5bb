import IslandPlots.Yaml.Property
import IslandPlots.Yaml.Scalar

/-!
# From texts to tokens

A scanner reads a text token by token.  Whether a scalar is a key shows only at the colon
after it, so the scanner remembers where the last possible key began, for the block and for
every open flow collection, and puts the tokens that a key brings in front of it when the
colon comes.  A change of indentation opens and closes blocks.
-/

namespace IslandPlots.Yaml

/-- A place at which a key may have begun. -/
structure PossibleKey where
  /-- The number of tokens before the key. -/
  tokens : Nat
  /-- The position of the key. -/
  offset : Nat
  line : Nat
  column : Nat
  /-- Whether the text makes no sense unless it is a key. -/
  required : Bool
deriving DecidableEq, Inhabited

/-- The state of a scanner. -/
structure Scanner where
  cursor : Cursor
  /-- The tokens found so far. -/
  tokens : Array Token := #[]
  /-- The column of the current block; `-1` outside all blocks. -/
  indent : Int := -1
  /-- The columns of the enclosing blocks, inner ones first. -/
  outer : List Int := []
  /-- Whether a key may begin here. -/
  keyAllowed : Bool := true
  /-- The possible key of the innermost flow collection, or of the block. -/
  key : Option PossibleKey := none
  /-- The possible keys of the enclosing flow collections, inner ones first, and of the
  block. -/
  outerKeys : List (Option PossibleKey) := []
deriving Inhabited

namespace Scanner

/-- Whether the scanner is inside a flow collection. -/
def inFlow (s : Scanner) : Bool :=
  !s.outerKeys.isEmpty

/-- The scanner after one more token. -/
def emit (s : Scanner) (token : Token) : Scanner :=
  { s with tokens := s.tokens.push token }

/-- The scanner after a token of `n` characters. -/
def take (s : Scanner) (token : Token) (n : Nat) : Scanner :=
  { s.emit token with cursor := s.cursor.skip n }

/-- The scanner at another position. -/
def moveTo (s : Scanner) (cursor : Cursor) : Scanner :=
  { s with cursor := cursor }

/-! ### Possible keys -/

/-- Gives up the possible key. -/
def dropKey (s : Scanner) : Except Problem Scanner :=
  if s.key.any (·.required) then .error .missingColon else .ok { s with key := none }

/-- Remembers that a key may begin here. -/
def saveKey (s : Scanner) : Except Problem Scanner :=
  if s.keyAllowed then do
    let s ← s.dropKey
    let here := s.cursor
    return { s with
      key := some {
        tokens := s.tokens.size, offset := here.offset, line := here.line,
        column := here.column, required := !s.inFlow && s.indent == here.column } }
  else .ok s

/-- Whether a key that began at `key` can no longer be followed by its colon: keys take one
line and at most 1024 bytes. -/
def isStale (s : Scanner) (key : PossibleKey) : Bool :=
  key.line < s.cursor.line || key.offset + 1024 < s.cursor.offset

/-- Gives up the possible keys that are no longer possible. -/
def dropStaleKeys (s : Scanner) : Except Problem Scanner :=
  let refresh (key : Option PossibleKey) := key.filter fun key => !s.isStale key
  if (s.key :: s.outerKeys).any (·.any fun key => s.isStale key && key.required) then
    .error .missingColon
  else .ok { s with key := refresh s.key, outerKeys := s.outerKeys.map refresh }

/-! ### Indentation -/

/-- Opens a block at `column` if it lies deeper than the current block; the token that
opens it comes after `place` tokens. -/
def openBlock (s : Scanner) (column : Nat) (place : Nat) (token : Token) : Scanner :=
  if !s.inFlow ∧ s.indent < column then
    { s with
      tokens := s.tokens.insertIdxIfInBounds place token
      indent := column
      outer := s.indent :: s.outer }
  else s

/-- Closes the blocks that lie deeper than `column`; `outer` holds the enclosing columns. -/
def closeBlocksFrom (column : Int) (s : Scanner) : List Int → Scanner
  | [] => s
  | parent :: outer =>
    if column < s.indent then
      closeBlocksFrom column { s.emit .blockEnd with indent := parent, outer := outer } outer
    else s

/-- Closes the blocks that lie deeper than `column`. -/
def closeBlocks (s : Scanner) (column : Int) : Scanner :=
  if s.inFlow then s else closeBlocksFrom column s s.outer

/-! ### Tokens -/

/-- Skips spaces, comments and line breaks.  A byte order mark at the beginning of a line is
skipped, too. -/
def skipGaps : Nat → Scanner → Scanner
  | 0, s => s
  | fuel + 1, s =>
    let c := s.cursor
    let c := if c.column = 0 ∧ c.at? '\uFEFF' then c.skip else c
    let c := c.skipWhile fun x => x == ' ' || ((s.inFlow || !s.keyAllowed) && x == '\t')
    let c := c.skipComment
    match c.readBreak? with
    | some (_, c) =>
      skipGaps fuel { s with cursor := c, keyAllowed := s.keyAllowed || !s.inFlow }
    | none => s.moveTo c

/-- Closes everything at the end of a document or of the text. -/
def finish (s : Scanner) : Except Problem Scanner := do
  let s ← (s.closeBlocks (-1)).dropKey
  return { s with keyAllowed := false }

/-- Scans the mark before or after a document. -/
def scanDocumentMark (s : Scanner) (token : Token) : Except Problem Scanner :=
  s.finish.map (·.take token 3)

/-- Scans the beginning of a flow collection. -/
def scanFlowStart (s : Scanner) (token : Token) : Except Problem Scanner := do
  let s ← s.saveKey
  return { s.take token 1 with
    keyAllowed := true, key := none, outerKeys := s.key :: s.outerKeys }

/-- Scans the end of a flow collection. -/
def scanFlowEnd (s : Scanner) (token : Token) : Except Problem Scanner := do
  let s ← s.dropKey
  let s := { s.take token 1 with keyAllowed := false }
  match s.outerKeys with
  | [] => return s
  | key :: outerKeys => return { s with key := key, outerKeys := outerKeys }

/-- Scans the comma between the entries of a flow collection. -/
def scanFlowEntry (s : Scanner) : Except Problem Scanner := do
  let s ← s.dropKey
  return { s.take .flowEntry 1 with keyAllowed := true }

/-- Opens a block at the present column for an indicator, which must stand where a key may
begin. -/
def openHere (s : Scanner) (token : Token) : Except Problem Scanner :=
  if s.inFlow then .ok s
  else if s.keyAllowed then .ok (s.openBlock s.cursor.column s.tokens.size token)
  else .error .misplacedIndicator

/-- Scans the hyphen before an entry of a block sequence. -/
def scanBlockEntry (s : Scanner) : Except Problem Scanner := do
  let s ← s.openHere .blockSequenceStart
  let s ← s.dropKey
  return { s.take .blockEntry 1 with keyAllowed := true }

/-- Scans the question mark before a key. -/
def scanKey (s : Scanner) : Except Problem Scanner := do
  let s ← s.openHere .blockMappingStart
  let s ← s.dropKey
  return { s.take .key 1 with keyAllowed := !s.inFlow }

/-- Scans the colon before a value. -/
def scanValue (s : Scanner) : Except Problem Scanner :=
  match s.key with
  | some key =>
    let s := { s with tokens := s.tokens.insertIdxIfInBounds key.tokens .key, key := none }
    let s := s.openBlock key.column key.tokens .blockMappingStart
    .ok { s.take .value 1 with keyAllowed := false }
  | none => do
    let s ← s.openHere .blockMappingStart
    return { s.take .value 1 with keyAllowed := !s.inFlow }

/-- Scans a token that may be a key or stand at the beginning of one. -/
def scanContent (s : Scanner) (read : Cursor → Except Problem (Token × Cursor)) :
    Except Problem Scanner := do
  let s ← s.saveKey
  let (token, c) ← read s.cursor
  return { (s.emit token).moveTo c with keyAllowed := false }

/-- Scans a plain scalar. -/
def scanPlain (s : Scanner) : Except Problem Scanner := do
  let s ← s.saveKey
  let (text, broken, c) ← readPlain s.inFlow (s.indent + 1) s.cursor
  return { (s.emit (.scalar text .plain)).moveTo c with keyAllowed := broken }

/-- Scans a block scalar. -/
def scanBlock (s : Scanner) (style : Style) : Except Problem Scanner := do
  let s ← s.dropKey
  let (text, c) ← readBlock (style == .folded) s.indent s.cursor
  return { (s.emit (.scalar text style)).moveTo c with keyAllowed := true }

/-- Whether a plain scalar begins at the cursor with the character `x`. -/
def startsPlain (s : Scanner) (x : Char) : Bool :=
  !(isGap x || "-?:,[]\x7b\x7d#&*!|>'\"%@`".toList.contains x)
    || (x == '-' && !(s.cursor.rest[1]?).any isSpace)
    || (!s.inFlow && (x == '?' || x == ':') && !s.cursor.gapAhead 1)

/-- Scans the token that begins with the character `x`. -/
def scanToken (s : Scanner) (x : Char) : Except Problem Scanner :=
  let c := s.cursor
  if c.column = 0 ∧ x = '%' then do
    let s ← s.finish
    let (token, c) ← readDirective s.cursor
    return (s.emit token).moveTo c
  else if c.atDocumentMark then
    s.scanDocumentMark (if x = '-' then .documentStart else .documentEnd)
  else if x = '[' then s.scanFlowStart .flowSequenceStart
  else if x = '{' then s.scanFlowStart .flowMappingStart
  else if x = ']' then s.scanFlowEnd .flowSequenceEnd
  else if x = '}' then s.scanFlowEnd .flowMappingEnd
  else if x = ',' then s.scanFlowEntry
  else if x = '-' ∧ c.gapAhead 1 then s.scanBlockEntry
  else if x = '?' ∧ (s.inFlow ∨ c.gapAhead 1) then s.scanKey
  else if x = ':' ∧ (s.inFlow ∨ c.gapAhead 1) then s.scanValue
  else if x = '*' then
    s.scanContent fun c => (readAnchorName c).map fun (name, c) => (.alias name, c)
  else if x = '&' then
    s.scanContent fun c => (readAnchorName c).map fun (name, c) => (.anchor name, c)
  else if x = '!' then s.scanContent (readTag s.inFlow)
  else if x = '|' ∧ !s.inFlow then s.scanBlock .literal
  else if x = '>' ∧ !s.inFlow then s.scanBlock .folded
  else if x = '\'' then
    s.scanContent fun c =>
      (readQuoted x c).map fun (text, c) => (.scalar text .singleQuoted, c)
  else if x = '"' then
    s.scanContent fun c =>
      (readQuoted x c).map fun (text, c) => (.scalar text .doubleQuoted, c)
  else if s.startsPlain x then s.scanPlain
  else .error .unexpectedCharacter

/-- Scans the rest of the text. -/
def scanRest : Nat → Scanner → Except Problem Scanner
  | 0, s => .ok s
  | fuel + 1, s => do
    let s := s.skipGaps (s.cursor.rest.length + 1)
    let s ← s.dropStaleKeys
    let s := s.closeBlocks s.cursor.column
    match s.cursor.peek? with
    | none => s.finish
    | some x => do
      let s ← s.scanToken x
      scanRest fuel s

end Scanner

/-- The tokens of a text. -/
def scan (text : List Char) : Except Problem (List Token) :=
  match text.find? fun c => !isAllowed c with
  | some c => .error (.forbiddenCharacter c)
  | none =>
    (Scanner.scanRest (text.length + 1) { cursor := { rest := text } }).map (·.tokens.toList)

end IslandPlots.Yaml
