/-!
# UTF-8

Texts as bytes and bytes as texts.  `decode` reads a sequence of bytes as characters; a
maximal subpart of a byte sequence that begins a character but does not complete one, and
a byte that cannot begin a character, are both read as `none`.  The strict reader refuses
bytes with such a defect, the lenient one shows U+FFFD for each.
-/

namespace IslandPlots.Text

/-- A sequence of bytes, such as the content of a file. -/
abbrev Bytes := List UInt8

/-- The bytes of a text. -/
def encode (text : List Char) : Bytes :=
  text.flatMap String.utf8EncodeChar

/-- The number of bytes of a text. -/
def byteCount : List Char → Nat
  | [] => 0
  | c :: text => c.utf8Size + byteCount text

/-- The bytes of a string. -/
def encodeString (text : String) : Bytes :=
  encode text.toList

/-- What a decoder has seen of a character: nothing, or a proper part of its bytes.  In
the second case `value` holds the bits seen so far, `missing + 1` bytes are still to come,
and the next one must lie between `low` and `high`. -/
inductive Pending where
  | none
  | part (value : Nat) (missing : Nat) (low high : Nat)
deriving DecidableEq, Inhabited

/-- The bounds of a byte that continues a character, unless the first byte narrows them. -/
def Pending.more (value missing : Nat) : Pending :=
  .part value missing 0x80 0xBF

/-- The effect of a byte at the beginning of a character: the characters it completes, and
what is pending after it. -/
def lead (byte : UInt8) : List (Option Char) × Pending :=
  let b := byte.toNat
  if b < 0x80 then ([some (Char.ofNat b)], .none)
  else if b < 0xC2 then ([none], .none)
  else if b < 0xE0 then ([], .more (b - 0xC0) 0)
  else if b = 0xE0 then ([], .part 0 1 0xA0 0xBF)
  else if b = 0xED then ([], .part 0xD 1 0x80 0x9F)
  else if b < 0xF0 then ([], .more (b - 0xE0) 1)
  else if b = 0xF0 then ([], .part 0 2 0x90 0xBF)
  else if b < 0xF4 then ([], .more (b - 0xF0) 2)
  else if b = 0xF4 then ([], .part 4 2 0x80 0x8F)
  else ([none], .none)

/-- The effect of a byte on what is pending: the characters it completes, and what is
pending after it.  A byte that cannot continue the pending part ends it as a defect and
begins anew. -/
def feed (pending : Pending) (byte : UInt8) : List (Option Char) × Pending :=
  match pending with
  | .none => lead byte
  | .part value missing low high =>
    let b := byte.toNat
    if low ≤ b ∧ b ≤ high then
      let value := value * 64 + (b - 0x80)
      match missing with
      | 0 => ([some (Char.ofNat value)], .none)
      | missing + 1 => ([], .more value missing)
    else
      let (out, pending) := lead byte
      (none :: out, pending)

/-- The characters of a sequence of bytes when `pending` has been seen before it. -/
def decodeFrom : Pending → Bytes → List (Option Char)
  | .none, [] => []
  | .part .., [] => [none]
  | pending, byte :: rest =>
    let (out, pending) := feed pending byte
    out ++ decodeFrom pending rest

/-- The characters of a sequence of bytes; `none` stands for a defect. -/
def decode (bytes : Bytes) : List (Option Char) :=
  decodeFrom .none bytes

/-- The text of a sequence of bytes, with U+FFFD for every defect. -/
def decodeLenient (bytes : Bytes) : List Char :=
  (decode bytes).map (·.getD '\uFFFD')

/-- The text of a sequence of bytes without a defect. -/
def decodeStrict? (bytes : Bytes) : Option (List Char) :=
  (decode bytes).mapM id

end IslandPlots.Text
