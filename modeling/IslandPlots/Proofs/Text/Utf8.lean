import IslandPlots.Text.Utf8
import Mathlib.Tactic.SplitIfs

/-!
# Decoding what was encoded

The bytes of a text decode to the text, whatever bytes follow (`decode_encode_append`).
When the bytes of a text are cut off, the characters before the cut are read as they were,
and a character that the cut goes through is read as one defect: `shown text k` is what the
lenient reader sees of the first `k` bytes (`decodeLenient_take_encode`).

Whatever the bytes are, those before a byte of ASCII are decoded as if nothing came after them
(`decode_append_ascii`), and a character of ASCII is decoded only from the byte that shows it
(`exists_of_mem_decodeFrom`, `toNat_of_getLast?_decode`).
-/

namespace IslandPlots.Text

/-! ### Feeding many bytes -/

/-- The characters that bytes complete after `pending`, and what is pending after them. -/
def feedAll : Pending → Bytes → List (Option Char) × Pending
  | pending, [] => ([], pending)
  | pending, byte :: rest =>
    let first := feed pending byte
    let others := feedAll first.2 rest
    (first.1 ++ others.1, others.2)

/-- A sequence of bytes is decoded by feeding its beginning and decoding what is left. -/
theorem decodeFrom_append (pending : Pending) (xs ys : Bytes) :
  decodeFrom pending (xs ++ ys)
    = (feedAll pending xs).1 ++ decodeFrom (feedAll pending xs).2 ys
  := by
  induction xs generalizing pending with
  | nil => rfl
  | cons byte xs ih =>
    cases pending <;> simp only [List.cons_append, decodeFrom, feedAll, ih, List.append_assoc]

/-- Two sequences of bytes are fed one after the other. -/
theorem feedAll_append (pending : Pending) (xs ys : Bytes) :
  feedAll pending (xs ++ ys)
    = ((feedAll pending xs).1 ++ (feedAll (feedAll pending xs).2 ys).1,
        (feedAll (feedAll pending xs).2 ys).2)
  := by
  induction xs generalizing pending with
  | nil => rfl
  | cons byte xs ih =>
    simp only [List.cons_append, feedAll, ih, List.append_assoc]

/-- A byte that completes no character only changes what is pending. -/
theorem feedAll_of_feed
    {pending next : Pending} {byte : UInt8} (h : feed pending byte = ([], next))
    (rest : Bytes) :
  feedAll pending (byte :: rest) = feedAll next rest
  := by
  rw [feedAll, h]
  rfl

/-- Feeding one byte. -/
@[simp]
theorem feedAll_single (pending : Pending) (byte : UInt8) :
  feedAll pending [byte] = feed pending byte
  := by
  simp only [feedAll, List.append_nil]

/-- A byte at the beginning of a character after which nothing is pending has completed
something. -/
theorem lead_ne_nil {byte : UInt8} (h : (lead byte).2 = .none) :
  (lead byte).1 ≠ []
  := by
  simp only [lead, Pending.more] at h ⊢
  split_ifs at h ⊢ <;> simp_all

/-- A byte after which nothing is pending has completed something. -/
theorem feed_ne_nil {pending : Pending} {byte : UInt8} (h : (feed pending byte).2 = .none) :
  (feed pending byte).1 ≠ []
  := by
  cases pending with
  | none => exact lead_ne_nil h
  | part value missing low high =>
    simp only [feed] at h ⊢
    split_ifs at h ⊢
    · cases missing with
      | zero => simp
      | succ missing => cases h
    · simp

/-- Bytes after which nothing is pending have completed something. -/
theorem feedAll_ne_nil
    {pending : Pending} {bytes : Bytes} (hb : bytes ≠ [])
    (h : (feedAll pending bytes).2 = .none) :
  (feedAll pending bytes).1 ≠ []
  := by
  induction bytes generalizing pending with
  | nil => exact absurd rfl hb
  | cons byte bytes ih =>
    simp only [feedAll] at h ⊢
    intro hnil
    obtain ⟨hfirst, hothers⟩ := List.append_eq_nil_iff.1 hnil
    rcases bytes with _ | ⟨next, rest⟩
    · exact feed_ne_nil h hfirst
    · exact ih (List.cons_ne_nil _ _) h hothers

/-- Bytes are decoded to something. -/
theorem decode_ne_nil {bytes : Bytes} (h : bytes ≠ []) :
  decode bytes ≠ []
  := by
  have hsplit := decodeFrom_append .none bytes []
  rw [List.append_nil] at hsplit
  rw [decode, hsplit]
  rcases hafter : (feedAll .none bytes).2 with _ | ⟨value, missing, low, high⟩
  · rw [decodeFrom, List.append_nil]
    exact feedAll_ne_nil h hafter
  · exact List.append_ne_nil_of_right_ne_nil _ (List.cons_ne_nil _ _)

/-! ### The bytes of one character -/

/-- A small number is the value of its byte. -/
theorem toNat_ofNat {n : Nat} (h : n < 0x100) :
  (UInt8.ofNat n).toNat = n
  := by
  rw [UInt8.toNat_ofNat', Nat.mod_eq_of_lt h]

/-- The first byte of a character of two bytes. -/
theorem feed_two {n : Nat} (hl : 2 ≤ n) (hu : n < 0x20) :
  feed .none (.ofNat (n + 0xC0)) = ([], .more n 0)
  := by
  simp only [feed, lead, toNat_ofNat (show n + 0xC0 < 0x100 by omega)]
  rw [if_neg (by omega), if_neg (by omega), if_pos (by omega), Nat.add_sub_cancel]

/-- The first byte of a character of three bytes. -/
theorem feed_three {n : Nat} (hu : n < 0x10) :
  feed .none (.ofNat (n + 0xE0))
    = ([], .part n 1 (if n = 0 then 0xA0 else 0x80) (if n = 0xD then 0x9F else 0xBF))
  := by
  simp only [feed, lead, toNat_ofNat (show n + 0xE0 < 0x100 by omega)]
  rw [if_neg (by omega), if_neg (by omega), if_neg (by omega)]
  split
  · obtain rfl : n = 0 := by omega
    rfl
  · split
    · obtain rfl : n = 0xD := by omega
      rfl
    · rw [if_pos (by omega), if_neg (by omega), if_neg (by omega), Nat.add_sub_cancel]
      rfl

/-- The first byte of a character of four bytes. -/
theorem feed_four {n : Nat} (hu : n ≤ 4) :
  feed .none (.ofNat (n + 0xF0))
    = ([], .part n 2 (if n = 0 then 0x90 else 0x80) (if n = 4 then 0x8F else 0xBF))
  := by
  simp only [feed, lead, toNat_ofNat (show n + 0xF0 < 0x100 by omega)]
  rw [if_neg (by omega), if_neg (by omega), if_neg (by omega), if_neg (by omega),
    if_neg (by omega), if_neg (by omega)]
  split
  · obtain rfl : n = 0 := by omega
    rfl
  · split
    · rw [if_neg (by omega), if_neg (by omega), Nat.add_sub_cancel]
      rfl
    · obtain rfl : n = 4 := by omega
      rfl

/-- A byte within the bounds continues the pending character, and completes it when no
byte was missing besides it. -/
theorem feed_part
    {value missing low high n : Nat} (h : n < 0x100) (hl : low ≤ n) (hu : n ≤ high) :
  feed (.part value missing low high) (.ofNat n)
    = match missing with
      | 0 => ([some (Char.ofNat (value * 64 + (n - 0x80)))], .none)
      | missing + 1 => ([], .more (value * 64 + (n - 0x80)) missing)
  := by
  simp only [feed, toNat_ofNat h]
  exact if_pos ⟨hl, hu⟩

/-- The bytes of a character complete it. -/
@[simp]
theorem feedAll_encodeChar (c : Char) :
  feedAll .none (String.utf8EncodeChar c) = ([some c], .none)
  := by
  have hc : Char.ofNat c.val.toNat = c := Char.ofNat_toNat c
  have hv : c.val.toNat < 0xD800 ∨ 0xDFFF < c.val.toNat ∧ c.val.toNat < 0x110000 := c.valid
  unfold String.utf8EncodeChar
  generalize c.val.toNat = n at hc hv
  dsimp only
  split
  · rw [feedAll_single]
    simp only [feed, lead, toNat_ofNat (show n < 0x100 by omega)]
    rw [if_pos (by omega), hc]
  split
  · rw [feedAll_of_feed (feed_two (n := n / 64 % 0x20) (by omega) (by omega)),
      feedAll_single, Pending.more, feed_part (by omega) (by omega) (by omega)]
    have hn : n / 64 % 0x20 * 64 + (n % 0x40 + 0x80 - 0x80) = n := by
      omega
    rw [hn, hc]
  split
  · rw [feedAll_of_feed (feed_three (n := n / 4096 % 0x10) (by omega)),
      feedAll_of_feed (feed_part (by omega) (by split <;> omega) (by split <;> omega)),
      feedAll_single, Pending.more, feed_part (by omega) (by omega) (by omega)]
    have hn : (n / 4096 % 0x10 * 64 + (n / 64 % 0x40 + 0x80 - 0x80)) * 64
        + (n % 0x40 + 0x80 - 0x80) = n := by
      omega
    rw [hn, hc]
  · rw [feedAll_of_feed (feed_four (n := n / 262144 % 0x08) (by omega)),
      feedAll_of_feed (feed_part (by omega) (by split <;> omega) (by split <;> omega)),
      Pending.more, feedAll_of_feed (feed_part (by omega) (by omega) (by omega)),
      feedAll_single, Pending.more, feed_part (by omega) (by omega) (by omega)]
    have hn : ((n / 262144 % 0x08 * 64 + (n / 4096 % 0x40 + 0x80 - 0x80)) * 64
        + (n / 64 % 0x40 + 0x80 - 0x80)) * 64 + (n % 0x40 + 0x80 - 0x80) = n := by
      omega
    rw [hn, hc]

/-- Some, but not all of the bytes of a character complete nothing and leave a part of a
character pending. -/
theorem feedAll_take_encodeChar
    {c : Char} {k : Nat} (hl : 0 < k) (hu : k < c.utf8Size) :
  (feedAll .none ((String.utf8EncodeChar c).take k)).1 = []
    ∧ (feedAll .none ((String.utf8EncodeChar c).take k)).2 ≠ .none
  := by
  have hlength := String.length_utf8EncodeChar c
  have htake : (String.utf8EncodeChar c).take k ≠ [] := by
    apply List.ne_nil_of_length_pos
    rw [List.length_take]
    omega
  have hdrop : (String.utf8EncodeChar c).drop k ≠ [] := by
    apply List.ne_nil_of_length_pos
    rw [List.length_drop]
    omega
  have hall := feedAll_encodeChar c
  rw [← List.take_append_drop k (String.utf8EncodeChar c), feedAll_append, Prod.mk.injEq]
    at hall
  obtain ⟨hout, hend⟩ := hall
  have hrest := List.length_pos_iff.2 (feedAll_ne_nil hdrop hend)
  have hlen := congrArg List.length hout
  rw [List.length_append, List.length_singleton] at hlen
  constructor
  · apply List.eq_nil_of_length_eq_zero
    omega
  · intro hnone
    have := List.length_pos_iff.2 (feedAll_ne_nil htake hnone)
    omega

/-- A byte of ASCII among the bytes of a character is the character. -/
theorem eq_of_mem_encodeChar
    {c : Char} {byte : UInt8} (h : byte ∈ String.utf8EncodeChar c)
    (hb : byte.toNat < 0x80) :
  c = Char.ofNat byte.toNat
  := by
  have hc : Char.ofNat c.val.toNat = c := Char.ofNat_toNat c
  have hv : c.val.toNat < 0xD800 ∨ 0xDFFF < c.val.toNat ∧ c.val.toNat < 0x110000 := c.valid
  unfold String.utf8EncodeChar at h
  generalize c.val.toNat = n at hc hv h
  dsimp only at h
  split_ifs at h
  · rw [List.mem_singleton] at h
    rw [h, toNat_ofNat (by omega), hc]
  all_goals
    simp only [List.mem_cons, List.not_mem_nil, or_false] at h
    rcases h with rfl | rfl | rfl | rfl <;> rw [toNat_ofNat (by omega)] at hb <;> omega

/-! ### Texts -/

/-- The bytes of a character and a text. -/
@[simp]
theorem encode_cons (c : Char) (text : List Char) :
  encode (c :: text) = String.utf8EncodeChar c ++ encode text
  := rfl

/-- A byte of ASCII among the bytes of a text is a character of the text. -/
theorem mem_of_mem_encode
    {text : List Char} {byte : UInt8} (h : byte ∈ encode text) (hb : byte.toNat < 0x80) :
  Char.ofNat byte.toNat ∈ text
  := by
  obtain ⟨c, hc, hmem⟩ := List.mem_flatMap.1 h
  rw [← eq_of_mem_encodeChar hmem hb]
  exact hc

/-- The bytes of a text decode to the text, whatever follows them. -/
@[simp]
theorem decode_encode_append (text : List Char) (rest : Bytes) :
  decode (encode text ++ rest) = text.map some ++ decode rest
  := by
  induction text with
  | nil => rfl
  | cons c text ih =>
    rw [encode_cons, List.append_assoc, decode, decodeFrom_append, feedAll_encodeChar]
    exact congrArg (some c :: ·) ih

/-- The bytes of a text decode to the text. -/
@[simp]
theorem decodeLenient_encode (text : List Char) :
  decodeLenient (encode text) = text
  := by
  have h := decode_encode_append text []
  rw [List.append_nil] at h
  rw [decodeLenient, h, List.map_append, List.map_map]
  exact (List.append_nil _).trans (List.map_id' text)

/-- What the first `k` bytes of a text show: the characters before the cut, and U+FFFD in
the place of a character that the cut goes through. -/
def shown : List Char → Nat → List Char
  | [], _ => []
  | c :: text, k =>
    if c.utf8Size ≤ k then c :: shown text (k - c.utf8Size)
    else if k = 0 then []
    else ['\uFFFD']

/-- No bytes show nothing. -/
@[simp]
theorem shown_zero (text : List Char) :
  shown text 0 = []
  := by
  cases text with
  | nil => rfl
  | cons c text =>
    have := c.utf8Size_pos
    rw [shown, if_neg (by omega), if_pos rfl]

/-- The first `k` bytes of a text are read as `shown`. -/
@[simp]
theorem decodeLenient_take_encode (text : List Char) (k : Nat) :
  decodeLenient ((encode text).take k) = shown text k
  := by
  induction text generalizing k with
  | nil =>
    rw [show encode [] = [] from rfl, List.take_nil]
    rfl
  | cons c text ih =>
    have hlength := String.length_utf8EncodeChar c
    rw [encode_cons, shown]
    split_ifs with hsize hzero
    · rw [List.take_append, List.take_of_length_le (by omega), hlength, ← ih,
        decodeLenient, decode, decodeFrom_append, feedAll_encodeChar]
      rfl
    · subst hzero
      rfl
    · obtain ⟨hout, hpending⟩ := feedAll_take_encodeChar (c := c) (k := k) (by omega) (by omega)
      rw [List.take_append_of_le_length (by omega), ← List.append_nil (List.take _ _),
        decodeLenient, decode, decodeFrom_append, hout]
      generalize (feedAll .none ((String.utf8EncodeChar c).take k)).2 = pending at hpending
      cases pending with
      | none => exact absurd rfl hpending
      | part => rfl

/-- A cut behind the first of two texts leaves it whole. -/
theorem shown_append_of_le
    {xs : List Char} {k : Nat} (h : (encode xs).length ≤ k) (ys : List Char) :
  shown (xs ++ ys) k = xs ++ shown ys (k - (encode xs).length)
  := by
  induction xs generalizing k with
  | nil => rfl
  | cons c xs ih =>
    rw [encode_cons, List.length_append, String.length_utf8EncodeChar] at h ⊢
    rw [List.cons_append, shown, if_pos (by omega), ih (by omega), Nat.sub_sub]
    rfl

/-- A cut within the first of two texts hides the second. -/
theorem shown_append_of_lt
    {xs : List Char} {k : Nat} (h : k < (encode xs).length) (ys : List Char) :
  shown (xs ++ ys) k = shown xs k
  := by
  induction xs generalizing k with
  | nil => cases h
  | cons c xs ih =>
    rw [encode_cons, List.length_append, String.length_utf8EncodeChar] at h
    rw [List.cons_append, shown, shown]
    split_ifs
    · rw [ih (by omega)]
    · rfl
    · rfl

/-- A text of ASCII is cut between two characters. -/
theorem shown_of_ascii
    {text : List Char} (h : ∀ c ∈ text, c.utf8Size = 1) (k : Nat) :
  shown text k = text.take k
  := by
  induction text generalizing k with
  | nil => simp [shown]
  | cons c text ih =>
    rw [List.forall_mem_cons] at h
    rw [shown, h.1, ih h.2]
    cases k with
    | zero => rfl
    | succ k => rw [if_pos (by omega)]; rfl

/-- A text of ASCII has as many bytes as characters. -/
theorem length_encode_of_ascii {text : List Char} (h : ∀ c ∈ text, c.utf8Size = 1) :
  (encode text).length = text.length
  := by
  induction text with
  | nil => rfl
  | cons c text ih =>
    rw [List.forall_mem_cons] at h
    rw [encode_cons, List.length_append, String.length_utf8EncodeChar, h.1, ih h.2,
      List.length_cons, Nat.add_comm]

/-- All bytes of a text show the text. -/
theorem shown_of_le {text : List Char} {k : Nat} (h : (encode text).length ≤ k) :
  shown text k = text
  := by
  rw [← decodeLenient_take_encode, List.take_of_length_le h, decodeLenient_encode]

/-! ### Bytes of ASCII -/

/-- No byte of ASCII continues what is pending. -/
def Pending.Closed : Pending → Prop
  | .none => True
  | .part _ _ low _ => 0x80 ≤ low

/-- No byte of ASCII continues what a byte at the beginning of a character leaves pending. -/
theorem closed_lead (byte : UInt8) :
  (lead byte).2.Closed
  := by
  simp only [lead, Pending.more]
  split_ifs <;> simp [Pending.Closed]

/-- No byte of ASCII continues what a byte leaves pending. -/
theorem closed_feed (pending : Pending) (byte : UInt8) :
  (feed pending byte).2.Closed
  := by
  cases pending with
  | none => exact closed_lead byte
  | part value missing low high =>
    simp only [feed]
    split_ifs
    · cases missing <;> simp [Pending.more, Pending.Closed]
    · exact closed_lead byte

/-- No byte of ASCII continues what bytes leave pending. -/
theorem closed_feedAll {pending : Pending} (h : pending.Closed) (bytes : Bytes) :
  (feedAll pending bytes).2.Closed
  := by
  induction bytes generalizing pending with
  | nil => exact h
  | cons byte bytes ih => exact ih (closed_feed pending byte)

/-- What is pending ends before a byte of ASCII as it ends at the end of the bytes. -/
theorem decodeFrom_ascii {pending : Pending} (h : pending.Closed) {byte : UInt8}
    (hbyte : byte.toNat < 0x80) (rest : Bytes) :
  decodeFrom pending (byte :: rest) = decodeFrom pending [] ++ decode (byte :: rest)
  := by
  cases pending with
  | none => rfl
  | part value missing low high =>
    have hlow : ¬ (low ≤ byte.toNat ∧ byte.toNat ≤ high) := by
      have : 0x80 ≤ low := h
      omega
    simp only [decode, decodeFrom, feed, if_neg hlow]
    rfl

/-- The bytes before a byte of ASCII are decoded as if nothing came after them. -/
theorem decode_append_ascii (bytes : Bytes) {byte : UInt8} (h : byte.toNat < 0x80)
    (rest : Bytes) :
  decode (bytes ++ byte :: rest) = decode bytes ++ decode (byte :: rest)
  := by
  have hclosed : (feedAll .none bytes).2.Closed := by
    apply closed_feedAll
    trivial
  have hbytes := decodeFrom_append .none bytes []
  rw [List.append_nil] at hbytes
  rw [decode, decode, decodeFrom_append, decodeFrom_ascii hclosed h, hbytes, List.append_assoc]

/-- What is pending can become no character of ASCII. -/
def Pending.High : Pending → Prop
  | .none => True
  | .part value 0 _ _ => 2 ≤ value
  | .part value (_ + 1) low _ => 1 ≤ value ∨ 0x82 ≤ low

/-- What a byte at the beginning of a character leaves pending can become no character of ASCII. -/
theorem high_lead (byte : UInt8) :
  (lead byte).2.High
  := by
  simp only [lead, Pending.more]
  split_ifs <;> simp only [Pending.High] <;> omega

/-- What a byte leaves pending can become no character of ASCII. -/
theorem high_feed {pending : Pending} (h : pending.High) (byte : UInt8) :
  (feed pending byte).2.High
  := by
  cases pending with
  | none => exact high_lead byte
  | part value missing low high =>
    simp only [feed]
    split_ifs with hbyte
    · rcases missing with _ | _ | missing
      · trivial
      · simp only [Pending.High, Pending.more] at h ⊢
        omega
      · simp only [Pending.High, Pending.more] at h ⊢
        omega
    · exact high_lead byte

/-- What bytes leave pending can become no character of ASCII. -/
theorem high_feedAll {pending : Pending} (h : pending.High) (bytes : Bytes) :
  (feedAll pending bytes).2.High
  := by
  induction bytes generalizing pending with
  | nil => exact h
  | cons byte bytes ih => exact ih (high_feed h byte)

/-- The code of a character that was made from a number, if it is not zero. -/
theorem toNat_of_ofNat_eq {n : Nat} {c : Char} (h : Char.ofNat n = c) (hpos : 0 < c.toNat) :
  n = c.toNat
  := by
  by_cases hvalid : n.isValidChar
  · rw [← h, Char.ofNat, dif_pos hvalid]
    rfl
  · rw [← h, Char.ofNat, dif_neg hvalid] at hpos
    cases hpos

section

variable {c : Char} (hpos : 0 < c.toNat) (hascii : c.toNat < 0x80)

include hpos hascii

omit hascii in
/-- A character that is not the zero character is completed at the beginning only by the byte that
shows it. -/
theorem toNat_of_mem_lead {byte : UInt8} (hc : some c ∈ (lead byte).1) :
  byte.toNat = c.toNat
  := by
  simp only [lead] at hc
  split_ifs at hc <;> simp only [List.mem_singleton, List.not_mem_nil, Option.some.injEq,
    reduceCtorEq] at hc
  exact toNat_of_ofNat_eq hc.symm hpos

/-- A character of ASCII is completed only by the byte that shows it. -/
theorem toNat_of_mem_feed
    {pending : Pending} (h : pending.High) {byte : UInt8} (hc : some c ∈ (feed pending byte).1) :
  byte.toNat = c.toNat
  := by
  cases pending with
  | none => exact toNat_of_mem_lead hpos hc
  | part value missing low high =>
    simp only [feed] at hc
    split_ifs at hc with hbyte
    · rcases missing with _ | missing
      · have hvalue := toNat_of_ofNat_eq (List.mem_singleton.1 hc |> Option.some.inj |> Eq.symm) hpos
        have : 2 ≤ value := h
        omega
      · cases hc
    · exact toNat_of_mem_lead hpos ((List.mem_cons.1 hc).resolve_left nofun)

/-- A character of ASCII is decoded only from the byte that shows it. -/
theorem exists_of_mem_decodeFrom
    {pending : Pending} (h : pending.High) {bytes : Bytes} (hc : some c ∈ decodeFrom pending bytes) :
  ∃ byte ∈ bytes, byte.toNat = c.toNat
  := by
  induction bytes generalizing pending with
  | nil =>
    cases pending with
    | none => cases hc
    | part => simp [decodeFrom] at hc
  | cons byte bytes ih =>
    have hsplit : decodeFrom pending (byte :: bytes)
        = (feed pending byte).1 ++ decodeFrom (feed pending byte).2 bytes := by
      cases pending <;> rfl
    rw [hsplit, List.mem_append] at hc
    rcases hc with hfirst | hrest
    · exact ⟨byte, List.mem_cons_self, toNat_of_mem_feed hpos hascii h hfirst⟩
    · obtain ⟨other, hother, heq⟩ := ih (high_feed h byte) hrest
      exact ⟨other, List.mem_cons_of_mem _ hother, heq⟩

/-- The last character is one of ASCII only if the last byte shows it. -/
theorem toNat_of_getLast?_decode
    {bytes : Bytes} {byte : UInt8} (hc : (decode (bytes ++ [byte])).getLast? = some (some c)) :
  byte.toNat = c.toNat
  := by
  have hhigh : (feedAll .none bytes).2.High := by
    apply high_feedAll
    trivial
  rw [decode, decodeFrom_append] at hc
  generalize (feedAll .none bytes).2 = pending at hc hhigh
  have hsplit : decodeFrom pending [byte]
      = (feed pending byte).1 ++ decodeFrom (feed pending byte).2 [] := by
    cases pending <;> rfl
  rw [hsplit] at hc
  rcases hafter : (feed pending byte).2 with _ | ⟨value, missing, low, high⟩
  · rw [hafter, decodeFrom, List.append_nil, List.getLast?_append] at hc
    rcases hlast : (feed pending byte).1.getLast? with _ | last
    · exact absurd (List.getLast?_eq_none_iff.1 hlast) (feed_ne_nil hafter)
    · rw [hlast, Option.some_or] at hc
      exact toNat_of_mem_feed hpos hascii hhigh (List.mem_of_getLast? (hlast.trans hc))
  · rw [hafter, decodeFrom, ← List.append_assoc, List.getLast?_concat] at hc
    cases hc

end

end IslandPlots.Text
