/-!
# Owner names in records

A record shows its owner on one line between separators, so the four characters that would
break the line are written as a backslash and a letter.
-/

namespace IslandPlots

/-- The character between the fields of a record. -/
def fieldSeparator : Char := ';'

namespace Owner

/-- The written form of one character of an owner name. -/
def escapeChar (c : Char) : List Char :=
  if c = '\\' then ['\\', '\\']
  else if c = fieldSeparator then ['\\', 's']
  else if c = '\n' then ['\\', 'n']
  else if c = '\r' then ['\\', 'r']
  else [c]

/-- The written form of an owner name. -/
def escape (name : List Char) : List Char :=
  name.flatMap escapeChar

/-- What is wrong with the written form of an owner name. -/
inductive Defect where
  | separator
  | truncated
  | unknown (letter : Char)
deriving DecidableEq

/-- The wording of a defect. -/
def Defect.reason : Defect → String
  | .separator => "owner contains an unescaped separator"
  | .truncated => "owner escape sequence truncated"
  | .unknown letter => s!"owner has unknown escape '\\{letter}'"

/-- The character an escape letter stands for. -/
def unescapeLetter? (letter : Char) : Option Char :=
  if letter = 's' then some fieldSeparator
  else if letter = 'n' then some '\n'
  else if letter = 'r' then some '\r'
  else if letter = '\\' then some '\\'
  else none

/-- The owner name with a given written form; the first defect from the left is
reported. -/
def unescape : List Char → Except Defect (List Char)
  | [] => .ok []
  | ['\\'] => .error .truncated
  | '\\' :: letter :: rest =>
    match unescapeLetter? letter with
    | some c => (unescape rest).map (c :: ·)
    | none => .error (.unknown letter)
  | c :: rest =>
    if c = fieldSeparator then .error .separator else (unescape rest).map (c :: ·)

end Owner

end IslandPlots
