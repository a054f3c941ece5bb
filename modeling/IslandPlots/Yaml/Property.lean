import IslandPlots.Yaml.Cursor
import IslandPlots.Yaml.Token

/-!
# Anchors, tags and directives

Reading of the tokens that are neither content nor structure.  Each reader begins at the
indicator of its token and returns the token and the position after it.
-/

namespace IslandPlots.Yaml

/-! ### Anchors -/

/-- Reads the name of an anchor or an alias. -/
def readAnchorName (c : Cursor) : Except Problem (List Char × Cursor) :=
  let (name, c) := c.skip.span isWord
  if name ≠ [] ∧ (c.gapAhead 0 ∨ c.peek?.any "?:,]\x7d%@`".toList.contains) then .ok (name, c)
  else .error .badAnchor

/-! ### Tags -/

/-- Reads an octet written as a percent sign and two hexadecimal digits. -/
def readOctet? (c : Cursor) : Option (UInt8 × Cursor) :=
  match c.rest with
  | '%' :: high :: low :: _ => do
    let high ← hexValue? high
    let low ← hexValue? low
    some (UInt8.ofNat (16 * high + low), c.skip 3)
  | _ => none

/-- Reads octets that go on a character of more than one byte. -/
def readOctets : Nat → Text.Bytes → Cursor → Except Problem (Text.Bytes × Cursor)
  | 0, bytes, c => .ok (bytes, c)
  | n + 1, bytes, c =>
    match readOctet? c with
    | some (octet, c) =>
      if octet.toNat / 64 = 2 then readOctets n (bytes ++ [octet]) c else .error .badTag
    | none => .error .badTag

/-- Reads the octets of one character. -/
def readEscapedCharacter (c : Cursor) : Except Problem (Text.Bytes × Cursor) :=
  match readOctet? c with
  | none => .error .badTag
  | some (octet, c) =>
    let n := octet.toNat
    if n < 0x80 then .ok ([octet], c)
    else if n / 32 = 6 then readOctets 1 [octet] c
    else if n / 16 = 14 then readOctets 2 [octet] c
    else if n / 8 = 30 then readOctets 3 [octet] c
    else .error .badTag

/-- Whether a character may stand in a tag.  Between angle brackets and in directives the
indicators of flow sequences may, too. -/
def isTagCharacter (verbatim : Bool) (x : Char) : Bool :=
  isWord x || ";/?:@&=+$.%!~*'()".toList.contains x || (verbatim && ",[]".toList.contains x)

/-- Reads the characters of a tag after `bytes`. -/
def readTagText (verbatim : Bool) :
    Nat → Text.Bytes → Cursor → Except Problem (Text.Bytes × Cursor)
  | 0, bytes, c => .ok (bytes, c)
  | fuel + 1, bytes, c =>
    match c.peek? with
    | some '%' => do
      let (octets, c) ← readEscapedCharacter c
      readTagText verbatim fuel (bytes ++ octets) c
    | some x =>
      if isTagCharacter verbatim x then
        readTagText verbatim fuel (bytes ++ String.utf8EncodeChar x) c.skip
      else .ok (bytes, c)
    | none => .ok (bytes, c)

/-- Reads the text of a tag, which comes after `head` and must not be empty unless `head`
is not.  A zero octet ends the tag: what comes after it is read but does not count. -/
def readTagTail (verbatim : Bool) (head : List Char) (c : Cursor) :
    Except Problem (Text.Bytes × Cursor) := do
  let (bytes, after) ← readTagText verbatim (c.rest.length + 1) (Text.encode head.tail) c
  if head = [] ∧ after.offset = c.offset then .error .badTag
  else .ok (bytes.takeWhile (· ≠ 0), after)

/-- Reads a tag handle: an exclamation mark, which letters and another exclamation mark
may follow.  Without the second mark the letters belong to the tag rather than to a
handle. -/
def readTagHandle (c : Cursor) : Except Problem (List Char × Cursor) :=
  if c.at? '!' then
    let (word, c) := c.skip.span isWord
    if c.at? '!' then .ok ('!' :: word ++ ['!'], c.skip) else .ok ('!' :: word, c)
  else .error .badTag

/-- Whether a handle has two exclamation marks. -/
def isClosedHandle (handle : List Char) : Bool :=
  2 ≤ handle.length && handle.getLast? == some '!'

/-- Reads a tag. -/
def readTag (inFlow : Bool) (c : Cursor) : Except Problem (Token × Cursor) := do
  let (token, c) ←
    if c.skip.at? '<' then do
      let (suffix, c) ← readTagTail true [] (c.skip 2)
      if c.at? '>' then pure (Token.tag [] suffix, c.skip) else .error .badTag
    else do
      let (handle, c) ← readTagHandle c
      if isClosedHandle handle then
        let (suffix, c) ← readTagTail false [] c
        pure (Token.tag handle suffix, c)
      else
        let (suffix, c) ← readTagTail false handle c
        if suffix = [] then pure (Token.tag [] (Text.encode ['!']), c)
        else pure (Token.tag ['!'] suffix, c)
  if c.gapAhead 0 ∨ (inFlow ∧ c.at? ',') then .ok (token, c) else .error .badTag

/-! ### Directives -/

/-- Reads a part of a version number. -/
def readVersionPart (c : Cursor) : Except Problem (Nat × Cursor) :=
  let (digits, c) := c.span Char.isDigit
  if digits = [] ∨ 9 < digits.length then .error .badDirective
  else .ok (Nat.ofDigitChars 10 digits 0, c)

/-- Reads a version number. -/
def readVersion (c : Cursor) : Except Problem (Token × Cursor) := do
  let (major, c) ← readVersionPart (c.skipWhile isSpace)
  if c.at? '.' then
    let (minor, c) ← readVersionPart c.skip
    return (.versionDirective major minor, c)
  else .error .badDirective

/-- Reads a tag handle and what it stands for. -/
def readTagReplacement (c : Cursor) : Except Problem (Token × Cursor) := do
  let (handle, c) ← readTagHandle (c.skipWhile isSpace)
  if handle ≠ ['!'] ∧ !isClosedHandle handle then .error .badDirective
  else if !c.peek?.any isSpace then .error .badDirective
  else
    let (replacement, c) ← readTagTail true [] (c.skipWhile isSpace)
    if c.gapAhead 0 then return (.tagDirective handle replacement, c)
    else .error .badDirective

/-- Reads a directive up to the end of its line. -/
def readDirective (c : Cursor) : Except Problem (Token × Cursor) := do
  let (name, c) := c.skip.span isWord
  if name = [] ∨ !c.gapAhead 0 then .error .badDirective
  let (token, c) ←
    if name = "YAML".toList then readVersion c
    else if name = "TAG".toList then readTagReplacement c
    else .error .badDirective
  let c := (c.skipWhile isSpace).skipComment
  if c.atLineEnd then .ok (token, c.skipBreak) else .error .badDirective

end IslandPlots.Yaml
