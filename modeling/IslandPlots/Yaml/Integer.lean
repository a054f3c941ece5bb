import IslandPlots.Yaml.Node

/-!
# Whole numbers in YAML

A whole number is written in decimal without superfluous zeros, or in base 16, 8 or 2 after
`0x`, `0o` or `0b`; one sign may stand before it.
-/

namespace IslandPlots.Yaml

/-- The number that a non-empty text of digits of a base denotes. -/
def readBase? (base : Nat) (text : List Char) : Option Nat := do
  let values ← text.mapM hexValue?
  if text ≠ [] ∧ values.all (· < base) then
    some (values.foldl (fun n value => base * n + value) 0)
  else none

/-- The number that a text without a sign denotes. -/
def readMagnitude? : List Char → Option Nat
  | '0' :: 'x' :: digits => readBase? 16 digits
  | '0' :: 'o' :: digits => readBase? 8 digits
  | '0' :: 'b' :: digits => readBase? 2 digits
  | ['0'] => some 0
  | '0' :: _ => none
  | digits => readBase? 10 digits

/-- The number that a text denotes. -/
def readInteger? : List Char → Option Int
  | '+' :: text => (readMagnitude? text).map Int.ofNat
  | '-' :: text => (readMagnitude? text).map fun n => -Int.ofNat n
  | text => (readMagnitude? text).map Int.ofNat

/-- The tag of whole numbers. -/
def integerTag : Text.Bytes :=
  Text.encodeString "tag:yaml.org,2002:int"

/-- The number for which a scalar stands.  Quoted and folded scalars stand for texts, and
so do literal scalars unless they are tagged as whole numbers. -/
def Scalar.integer? (scalar : Scalar) : Option Int :=
  match scalar.style with
  | .plain => readInteger? scalar.text
  | .literal => if scalar.tag = some integerTag then readInteger? scalar.text else none
  | _ => none

end IslandPlots.Yaml
