import IslandPlots.Yaml.Cursor

/-!
# YAML scalars

Reading of plain, quoted and block scalars.  Each reader begins at the first character of
the scalar and returns its text and the position after it.
-/

namespace IslandPlots.Yaml

/-! ### Gaps between the words of a scalar -/

/-- The spaces and line breaks between two words of a scalar. -/
structure Gap where
  /-- The spaces, as long as there is no line break. -/
  spaces : List Char := []
  /-- Whether there is a line break. -/
  broken : Bool := false
  /-- The first line break. -/
  first : List Char := []
  /-- The further line breaks. -/
  further : List Char := []
deriving DecidableEq, Inhabited

namespace Gap

/-- What a gap contributes to the text: one line break is folded into a space, and of
several the first is dropped. -/
def text (gap : Gap) : List Char :=
  if gap.broken then
    if gap.first = ['\n'] then
      if gap.further = [] then [' '] else gap.further
    else gap.first ++ gap.further
  else gap.spaces

/-- The gap after one more space. -/
def addSpace (gap : Gap) (space : Char) : Gap :=
  if gap.broken then gap else { gap with spaces := gap.spaces ++ [space] }

/-- The gap after one more line break. -/
def addBreak (gap : Gap) (text : List Char) : Gap :=
  if gap.broken then { gap with further := gap.further ++ text }
  else { gap with spaces := [], broken := true, first := text }

/-- Reads on over spaces and line breaks.  After a line break no tab may stand in a column
before `indent`. -/
def read (indent : Int) : Nat → Gap → Cursor → Except Problem (Gap × Cursor)
  | 0, gap, c => .ok (gap, c)
  | fuel + 1, gap, c =>
    match c.readBreak?, c.peek? with
    | some (text, c), _ => read indent fuel (gap.addBreak text) c
    | none, some x =>
      if isSpace x then
        if gap.broken ∧ x = '\t' ∧ (c.column : Int) < indent then .error .tabInIndentation
        else read indent fuel (gap.addSpace x) c.skip
      else .ok (gap, c)
    | none, none => .ok (gap, c)

end Gap

/-! ### Plain scalars -/

/-- Whether `x`, followed by `rest`, ends a plain scalar. -/
def endsPlain (inFlow : Bool) (x : Char) (rest : List Char) : Bool :=
  (x == ':' && rest.head?.all isGap) || (inFlow && ",[]\x7b\x7d".toList.contains x)

/-- The word of a plain scalar at the beginning of a text. -/
def plainWord (inFlow : Bool) : List Char → Except Problem (List Char)
  | [] => .ok []
  | x :: rest =>
    if isGap x then .ok []
    else if inFlow && x == ':' && rest.head?.any ",?[]\x7b\x7d".toList.contains then
      .error .unexpectedColon
    else if endsPlain inFlow x rest then .ok []
    else (plainWord inFlow rest).map (x :: ·)

/-- Reads the words of a plain scalar after `text` and `gap`.  The result holds the gap
after the last word too.  Outside flow collections the scalar ends at a line that begins
before column `indent`. -/
def plainWords (inFlow : Bool) (indent : Int) :
    Nat → List Char → Gap → Cursor → Except Problem (List Char × Gap × Cursor)
  | 0, text, gap, c => .ok (text, gap, c)
  | fuel + 1, text, gap, c =>
    if c.atDocumentMark || c.at? '#' then .ok (text, gap, c)
    else do
      let word ← plainWord inFlow c.rest
      let c := c.skip word.length
      let (text, gap) := if word = [] then (text, gap) else (text ++ gap.text ++ word, {})
      if c.peek?.any isGap then
        let (gap, c) ← gap.read indent (c.rest.length + 1) c
        if !inFlow ∧ (c.column : Int) < indent then .ok (text, gap, c)
        else plainWords inFlow indent fuel text gap c
      else .ok (text, gap, c)

/-- Reads a plain scalar; `indent` is the first column in which it can go on.  The result
also says whether a line break stands between the scalar and the position after it. -/
def readPlain (inFlow : Bool) (indent : Int) (c : Cursor) :
    Except Problem (List Char × Bool × Cursor) :=
  (plainWords inFlow indent (c.rest.length + 1) [] {} c).map
    fun (text, gap, c) => (text, gap.broken, c)

/-! ### Quoted scalars -/

/-- The character for which an escape letter stands. -/
def escapedChar? : Char → Option Char
  | '0' => some '\x00'
  | 'a' => some '\x07'
  | 'b' => some '\x08'
  | 't' => some '\t'
  | '\t' => some '\t'
  | 'n' => some '\n'
  | 'v' => some '\x0B'
  | 'f' => some '\x0C'
  | 'r' => some '\r'
  | 'e' => some '\x1B'
  | ' ' => some ' '
  | '"' => some '"'
  | '/' => some '/'
  | '\\' => some '\\'
  | 'N' => some '\u0085'
  | '_' => some '\u00A0'
  | 'L' => some '\u2028'
  | 'P' => some '\u2029'
  | _ => none

/-- The number of hexadecimal digits after an escape letter. -/
def escapeLength? : Char → Option Nat
  | 'x' => some 2
  | 'u' => some 4
  | 'U' => some 8
  | _ => none

/-- The character with the code that the hexadecimal digits `digits` show. -/
def charOfHex? (digits : List Char) : Option Char := do
  let values ← digits.mapM hexValue?
  let code := values.foldl (fun code value => 16 * code + value) 0
  if code.isValidChar then some (Char.ofNat code) else none

/-- Reads an escape sequence at its letter. -/
def readEscape (c : Cursor) : Except Problem (Char × Cursor) :=
  match c.peek? with
  | none => .error .badEscape
  | some letter =>
    match escapedChar? letter, escapeLength? letter with
    | some x, _ => .ok (x, c.skip)
    | none, some n =>
      let digits := c.skip.rest.take n
      match if digits.length = n then charOfHex? digits else none with
      | some x => .ok (x, c.skip (n + 1))
      | none => .error .badEscape
    | none, none => .error .badEscape

/-- Reads the word of a quoted scalar after `text`.  The result says whether the word ends
with an escaped line break. -/
def quotedWord (quote : Char) :
    Nat → List Char → Cursor → Except Problem (List Char × Bool × Cursor)
  | 0, text, c => .ok (text, false, c)
  | fuel + 1, text, c =>
    match c.rest with
    | [] => .ok (text, false, c)
    | x :: rest =>
      if isGap x then .ok (text, false, c)
      else if x = quote then
        if quote = '\'' ∧ rest.head? = some '\'' then
          quotedWord quote fuel (text ++ ['\'']) (c.skip 2)
        else .ok (text, false, c)
      else if quote = '"' ∧ x = '\\' then
        if rest.head?.any isBreak then .ok (text, true, c.skip.skipBreak)
        else do
          let (x, c) ← readEscape c.skip
          quotedWord quote fuel (text ++ [x]) c
      else quotedWord quote fuel (text ++ [x]) c.skip

/-- Reads the words of a quoted scalar after `text`, up to the closing quote. -/
def quotedWords (quote : Char) :
    Nat → List Char → Cursor → Except Problem (List Char × Cursor)
  | 0, _, _ => .error .unclosedQuote
  | fuel + 1, text, c =>
    if c.atDocumentMark || c.atEnd then .error .unclosedQuote
    else do
      let (text, escaped, c) ← quotedWord quote (c.rest.length + 1) text c
      if c.at? quote then .ok (text, c.skip)
      else
        let (gap, c) ← Gap.read 0 (c.rest.length + 1) { broken := escaped } c
        quotedWords quote fuel (text ++ gap.text) c

/-- Reads a quoted scalar at its opening quote. -/
def readQuoted (quote : Char) (c : Cursor) : Except Problem (List Char × Cursor) :=
  quotedWords quote (c.rest.length + 1) [] c.skip

/-! ### Block scalars -/

/-- What becomes of the line breaks at the end of a block scalar. -/
inductive Chomping where
  | strip
  | clip
  | keep
deriving DecidableEq

/-- Reads a chomping indicator, if there is one. -/
def readChomping? (c : Cursor) : Option (Chomping × Cursor) :=
  match c.peek? with
  | some '+' => some (.keep, c.skip)
  | some '-' => some (.strip, c.skip)
  | _ => none

/-- Reads an indentation indicator, if there is one; `0` stands for none. -/
def readIndentation (c : Cursor) : Except Problem (Nat × Cursor) :=
  match c.peek? with
  | some '0' => .error .badBlockHeader
  | some x => .ok (if x.isDigit then (x.toNat - '0'.toNat, c.skip) else (0, c))
  | none => .ok (0, c)

/-- Reads the header of a block scalar after its first character, up to the end of the
line. -/
def readHeader (c : Cursor) : Except Problem (Chomping × Nat × Cursor) := do
  let (chomping, indentation, c) ←
    match readChomping? c with
    | some (chomping, c) => do
      let (indentation, c) ← readIndentation c
      pure (chomping, indentation, c)
    | none => do
      let (indentation, c) ← readIndentation c
      match if indentation = 0 then none else readChomping? c with
      | some (chomping, c) => pure (chomping, indentation, c)
      | none => pure (.clip, indentation, c)
  let c := (c.skipWhile isSpace).skipComment
  if c.atLineEnd then .ok (chomping, indentation, c.skipBreak)
  else .error .badBlockHeader

/-- Reads empty lines and the indentation of the line after them.  The indentation is at
most `limit` spaces if there is a limit.  The result holds the line breaks and the largest
column reached. -/
def readEmptyLines (limit : Option Nat) :
    Nat → List Char → Nat → Cursor → Except Problem (List Char × Nat × Cursor)
  | 0, breaks, column, c => .ok (breaks, column, c)
  | fuel + 1, breaks, column, c =>
    let room := (limit.getD (c.column + c.rest.length)) - c.column
    let c := c.skip ((c.rest.take room).takeWhile (· == ' ')).length
    let column := max column c.column
    if limit.all (c.column < ·) ∧ c.at? '\t' then .error .tabInIndentation
    else
      match c.readBreak? with
      | some (text, c) => readEmptyLines limit fuel (breaks ++ text) column c
      | none => .ok (breaks, column, c)

/-- Reads the lines of a block scalar that are indented by `indent`.  Before them come
`text`, the line break `last` of the last line, and the line breaks `breaks` of the empty
lines after it; `spaced` says whether that last line begins with a space.  The result holds
the text, the last line break and the line breaks of the empty lines at the end. -/
def blockLines (folding : Bool) (indent : Nat) :
    Nat → List Char → List Char → List Char → Bool → Cursor →
      Except Problem (List Char × List Char × List Char × Cursor)
  | 0, text, last, breaks, _, c => .ok (text, last, breaks, c)
  | fuel + 1, text, last, breaks, spaced, c =>
    if c.column ≠ indent ∨ c.atEnd then .ok (text, last, breaks, c)
    else do
      let spacedHere := c.peek?.any isSpace
      let joint :=
        if folding ∧ last = ['\n'] ∧ !spaced ∧ !spacedHere then
          if breaks = [] then [' '] else breaks
        else last ++ breaks
      let (line, c) := c.span fun x => !isBreak x
      let (last, c) := (c.readBreak?).getD ([], c)
      let (breaks, _, c) ← readEmptyLines (some indent) (c.rest.length + 1) [] 0 c
      blockLines folding indent fuel (text ++ joint ++ line) last breaks spacedHere c

/-- Reads a block scalar at its first character; `parent` is the column of the enclosing
block, and `-1` when there is none. -/
def readBlock (folding : Bool) (parent : Int) (c : Cursor) :
    Except Problem (List Char × Cursor) := do
  let (chomping, indentation, c) ← readHeader c.skip
  let explicit : Option Nat :=
    if indentation = 0 then none else some ((max parent 0).toNat + indentation)
  let (breaks, column, c) ← readEmptyLines explicit (c.rest.length + 1) [] 0 c
  let indent := explicit.getD (max (max column (parent + 1).toNat) 1)
  let (text, last, breaks, c) ←
    blockLines folding indent (c.rest.length + 1) [] [] breaks false c
  let ending :=
    match chomping with
    | .strip => []
    | .clip => last
    | .keep => last ++ breaks
  return (text ++ ending, c)

end IslandPlots.Yaml
