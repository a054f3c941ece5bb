import IslandPlots.Coord

/-!
# Decimal numerals

Writing and reading of whole numbers in decimal.  The reader takes leading zeros and one
sign, and nothing else: no blanks, no separators, no empty digit string.
-/

namespace IslandPlots.Text

/-- The decimal numeral of a natural number, without leading zeros. -/
def numeral (n : Nat) : List Char :=
  Nat.toDigits 10 n

/-- The decimal numeral of an integer: a minus sign stands before a negative one. -/
def signedNumeral : Int → List Char
  | .ofNat n => numeral n
  | .negSucc n => '-' :: numeral (n + 1)

/-- The number a non-empty text of digits denotes. -/
def readDigits? (text : List Char) : Option Nat :=
  if text ≠ [] ∧ text.all Char.isDigit then some (Nat.ofDigitChars 10 text 0) else none

/-- The number denoted by digits after an optional plus sign. -/
def readUnsigned? : List Char → Option Nat
  | '+' :: text => readDigits? text
  | text => readDigits? text

/-- The number denoted by digits after an optional sign. -/
def readSigned? : List Char → Option Int
  | '+' :: text => (readDigits? text).map Int.ofNat
  | '-' :: text => (readDigits? text).map fun n => -Int.ofNat n
  | text => (readDigits? text).map Int.ofNat

/-- The number a text denotes, if it is an unsigned 64-bit number. -/
def readStamp? (text : List Char) : Option UInt64 :=
  match readUnsigned? text with
  | some n => if h : n < UInt64.size then some (UInt64.ofNatLT n h) else none
  | none => none

/-- The number a text denotes, if it is a signed 32-bit number. -/
def readBlocks? (text : List Char) : Option Blocks :=
  match readSigned? text with
  | some n => if h : Fits n then some ⟨n, h⟩ else none
  | none => none

/-- The number a text denotes, if it is a signed 64-bit number. -/
def readWide? (text : List Char) : Option Int :=
  (readSigned? text).filter fun n =>
    -9223372036854775808 ≤ n && n ≤ 9223372036854775807

end IslandPlots.Text
