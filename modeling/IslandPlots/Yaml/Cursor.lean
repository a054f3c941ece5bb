import IslandPlots.Text.Utf8
import IslandPlots.Yaml.Problem

/-!
# Reading positions

The classes of characters that matter to YAML, and the position of a reader in a text: the
characters still to be read, how many bytes were read, and in which line and column the
reader stands.
-/

namespace IslandPlots.Yaml

/-! ### Classes of characters -/

/-- The characters that may occur in a YAML text. -/
def isAllowed (c : Char) : Bool :=
  let n := c.toNat
  n == 0x09 || n == 0x0A || n == 0x0D || (0x20 ≤ n && n ≤ 0x7E) || n == 0x85
    || (0xA0 ≤ n && n ≤ 0xD7FF) || (0xE000 ≤ n && n ≤ 0xFFFD) || 0x10000 ≤ n

/-- A space or a tab. -/
def isSpace (c : Char) : Bool :=
  c == ' ' || c == '\t'

/-- A character that ends a line. -/
def isBreak (c : Char) : Bool :=
  c == '\r' || c == '\n' || c == '\u0085' || c == '\u2028' || c == '\u2029'

/-- A space, a tab or the end of a line. -/
def isGap (c : Char) : Bool :=
  isSpace c || isBreak c

/-- A letter, a digit, a hyphen or an underscore. -/
def isWord (c : Char) : Bool :=
  c.isAlphanum || c == '-' || c == '_'

/-- The value of a hexadecimal digit. -/
def hexValue? (c : Char) : Option Nat :=
  if c.isDigit then some (c.toNat - '0'.toNat)
  else if 'a' ≤ c && c ≤ 'f' then some (c.toNat - 'a'.toNat + 10)
  else if 'A' ≤ c && c ≤ 'F' then some (c.toNat - 'A'.toNat + 10)
  else none

/-! ### Positions -/

/-- A reader's position in a text. -/
structure Cursor where
  /-- The characters still to be read. -/
  rest : List Char
  /-- The number of bytes read. -/
  offset : Nat := 0
  /-- The number of lines read. -/
  line : Nat := 0
  /-- The number of characters read in the current line. -/
  column : Nat := 0
deriving DecidableEq, Inhabited

namespace Cursor

/-- The next character. -/
def peek? (c : Cursor) : Option Char :=
  c.rest.head?

/-- Whether the next character is `x`. -/
def at? (c : Cursor) (x : Char) : Bool :=
  c.peek? == some x

/-- Whether the text ends here. -/
def atEnd (c : Cursor) : Bool :=
  c.rest.isEmpty

/-- Whether there is a gap or the end of the text `n` characters ahead. -/
def gapAhead (c : Cursor) (n : Nat) : Bool :=
  (c.rest[n]?).all isGap

/-- Whether the line or the text ends here. -/
def atLineEnd (c : Cursor) : Bool :=
  c.peek?.all isBreak

/-- The position `n` characters further on the same line. -/
def skip (c : Cursor) (n : Nat := 1) : Cursor :=
  { c with
    rest := c.rest.drop n
    offset := c.offset + Text.byteCount (c.rest.take n)
    column := c.column + n }

/-- The characters of a class that come next, and the position after them. -/
def span (c : Cursor) (p : Char → Bool) : List Char × Cursor :=
  let taken := c.rest.takeWhile p
  (taken, c.skip taken.length)

/-- The position after the characters of a class that come next. -/
def skipWhile (c : Cursor) (p : Char → Bool) : Cursor :=
  (c.span p).2

/-- The line break that comes next as it counts in a text, and the position after it.  All
breaks count as a line feed except the separators of lines and of paragraphs, which stay
what they are. -/
def readBreak? (c : Cursor) : Option (List Char × Cursor) :=
  let next (n : Nat) : Cursor :=
    { rest := c.rest.drop n
      offset := c.offset + Text.byteCount (c.rest.take n)
      line := c.line + 1
      column := 0 }
  match c.rest with
  | '\r' :: '\n' :: _ => some (['\n'], next 2)
  | x :: _ =>
    if x = '\u2028' ∨ x = '\u2029' then some ([x], next 1)
    else if isBreak x then some (['\n'], next 1)
    else none
  | [] => none

/-- The position after a line break, if there is one. -/
def skipBreak (c : Cursor) : Cursor :=
  match c.readBreak? with
  | some (_, c) => c
  | none => c

/-- The position after a comment, if there is one. -/
def skipComment (c : Cursor) : Cursor :=
  if c.at? '#' then c.skipWhile fun x => !isBreak x else c

/-- Whether a line of three hyphens or three dots begins here. -/
def atDocumentMark (c : Cursor) : Bool :=
  c.column == 0 && c.gapAhead 3
    && (c.rest.take 3 == ['-', '-', '-'] || c.rest.take 3 == ['.', '.', '.'])

end Cursor

end IslandPlots.Yaml
