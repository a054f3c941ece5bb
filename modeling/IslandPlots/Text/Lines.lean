import IslandPlots.Text.Utf8

/-!
# Lines

A file of lines is a sequence of bytes in which each line is followed by a line feed.  In
reading, a carriage return just before the line feed is not part of the line, and bytes
after the last line feed are a line too, though an unfinished one: it keeps a carriage
return at its end.
-/

namespace IslandPlots.Text

/-- The line feed. -/
def lineFeed : UInt8 := 0x0A

/-- The carriage return. -/
def carriageReturn : UInt8 := 0x0D

/-- A finished line whose bytes are given last first: its bytes in order, without the
carriage return at its end. -/
def finishLine : Bytes → Bytes
  | [] => []
  | byte :: rest => if byte = carriageReturn then rest.reverse else (byte :: rest).reverse

/-- The lines of a sequence of bytes that comes after the bytes `seen` of the current line,
which are given last first. -/
def linesFrom (seen : Bytes) : Bytes → List Bytes
  | [] => if seen = [] then [] else [seen.reverse]
  | byte :: rest =>
    if byte = lineFeed then finishLine seen :: linesFrom [] rest
    else linesFrom (byte :: seen) rest

/-- The lines of a sequence of bytes. -/
def splitLines (bytes : Bytes) : List Bytes :=
  linesFrom [] bytes

/-- The lines of a sequence of bytes as strings, with U+FFFD for every defect. -/
def readLines (bytes : Bytes) : List String :=
  (splitLines bytes).map fun line => String.ofList (decodeLenient line)

/-- The bytes of lines, each followed by a line feed. -/
def writeLines (lines : List String) : Bytes :=
  lines.flatMap fun line => encodeString line ++ [lineFeed]

end IslandPlots.Text
