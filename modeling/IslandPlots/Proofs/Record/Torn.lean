import IslandPlots.Proofs.Record.RoundTrip

/-!
# Torn records

When writing the line of a record stops after `k` bytes, the reader finds `Record.torn r k`
there.  A record of which not even the head is complete is no record any more, since a
record has four separators (`Record.torn_of_lt`).  From the head on it keeps its time
stamp, its place and its kind, and its owner is what is left of the name
(`Record.torn_of_le`): nothing in the line says how long the name was.
-/

namespace IslandPlots

namespace Record

/-- The record that the first `k` bytes of the line of a record show. -/
def torn (r : Record) (k : Nat) : Option Record :=
  (parse (String.ofList (Text.shown r.line.toList k))).toOption

/-- The number of bytes of a record before its owner field. -/
def headSize (r : Record) : Nat :=
  r.head.length

/-! ### The head -/

/-- What is cut off in front of a separator, the separator, and the rest make up the
text. -/
theorem eq_of_cut {text field rest : List Char} (h : cut text = (field, some rest)) :
  text = field ++ fieldSeparator :: rest
  := by
  induction text generalizing field with
  | nil => cases h
  | cons c text ih =>
    rw [cut] at h
    split_ifs at h with hc
    · cases h
      rw [hc]
      rfl
    · rcases hcut : cut text with ⟨first, others⟩
      rw [hcut] at h
      cases h
      rw [ih hcut]
      rfl

/-- A text in which something can be cut off has a separator more than what is left. -/
theorem count_of_cut {text field rest : List Char} (h : cut text = (field, some rest)) :
  rest.count fieldSeparator + 1 ≤ text.count fieldSeparator
  := by
  rw [eq_of_cut h, List.count_append, List.count_cons_self]
  omega

/-- The separators in a text that may be missing. -/
def separators (text : Option (List Char)) : Nat :=
  (text.map (·.count fieldSeparator + 1)).getD 0

/-- What is left after a field has a separator less. -/
theorem separators_cut (text : List Char) :
  separators (cut text).2 ≤ text.count fieldSeparator
  := by
  rcases hcut : cut text with ⟨field, _ | rest⟩
  · exact Nat.zero_le _
  · exact count_of_cut hcut

/-- Reading a field takes one separator. -/
theorem separators_of_readField
    {α : Type} {read? : List Char → Option α} {missing : Defect} {bad : String → Defect}
    {text rest : Option (List Char)} {found : α}
    (h : readField read? missing bad text = .ok (found, rest)) :
  separators rest + 1 ≤ separators text
  := by
  obtain ⟨line, field, rfl, hcut, -⟩ := readField_eq_ok_iff.1 h
  have hrest := separators_cut line
  rw [hcut] at hrest
  exact Nat.succ_le_succ hrest

/-- There is a separator before the owner. -/
theorem separators_of_parseOwner
    {kind : Kind} {text : Option (List Char)} {owner : Option String}
    (h : parseOwner kind text = .ok owner) :
  1 ≤ separators text
  := by
  rcases text with _ | text
  · cases h
  · exact Nat.succ_le_succ (Nat.zero_le _)

/-- A record has four separators. -/
theorem four_le_count {text : List Char} {r : Record} (h : parseChars text = .ok r) :
  4 ≤ text.count fieldSeparator
  := by
  obtain ⟨_, _, _, _, _, -, hx, hz, hkind, howner, -⟩ := parseChars_eq_ok_iff.1 h
  have hfirst := separators_cut text
  rw [parseAxis_eq_readField] at hx hz
  rw [parseKind_eq_readField] at hkind
  have hsecond := separators_of_readField hx
  have hthird := separators_of_readField hz
  have hfourth := separators_of_readField hkind
  have hlast := separators_of_parseOwner howner
  omega

/-- A plain text holds no separator. -/
theorem count_of_plain {text : List Char} (h : Plain text) :
  text.count fieldSeparator = 0
  := by
  rw [List.count_eq_zero]
  intro hmem
  exact (h _ hmem).2.1 rfl

/-- The head of a record is a text with three separators, and the fourth. -/
theorem head_eq_append (r : Record) :
  ∃ front, r.head = front ++ [fieldSeparator] ∧ front.count fieldSeparator = 3
  := by
  use Text.numeral r.stamp.toNat ++ fieldSeparator :: (Text.signedNumeral r.place.x
    ++ fieldSeparator :: (Text.signedNumeral r.place.z
      ++ fieldSeparator :: r.kind.word.toList))
  constructor
  · simp [head]
  · simp only [List.count_append, List.count_cons_self, count_of_plain (plain_numeral _),
      count_of_plain (plain_signedNumeral _), count_of_plain (plain_word _)]

/-- The head of a record consists of ASCII characters. -/
theorem utf8Size_of_mem_head {r : Record} {c : Char} (h : c ∈ r.head) :
  c.utf8Size = 1
  := by
  rcases mem_head h with rfl | ⟨-, -, hsize⟩
  · decide
  · exact hsize

/-- The size of the head is its number of bytes. -/
@[simp]
theorem length_encode_head (r : Record) :
  (Text.encode r.head).length = r.headSize
  := Text.length_encode_of_ascii fun _ h => utf8Size_of_mem_head h

/-! ### The torn record -/

/-- A record whose head is not complete is no record. -/
theorem torn_of_lt {r : Record} {k : Nat} (h : k < r.headSize) :
  r.torn k = none
  := by
  have hshown : Text.shown r.line.toList k = r.head.take k := by
    rw [toList_line, Text.shown_append_of_lt (by rw [length_encode_head]; exact h),
      Text.shown_of_ascii fun _ h => utf8Size_of_mem_head h]
  obtain ⟨front, hhead, hcount⟩ := head_eq_append r
  have hk : k ≤ front.length := by
    rw [headSize, hhead, List.length_append, List.length_singleton] at h
    omega
  have htake : (r.head.take k).count fieldSeparator ≤ 3 := by
    rw [hhead, List.take_append_of_le_length hk, ← hcount]
    exact (List.take_sublist k front).count_le fieldSeparator
  rw [torn, hshown, parse, String.toList_ofList]
  rcases hparse : parseChars (r.head.take k) with defect | found
  · rfl
  · have := four_le_count hparse
    omega

/-- A record whose head is complete keeps everything but its owner, which is read from what
is there of the owner field. -/
theorem torn_of_le {r : Record} {k : Nat} (h : r.headSize ≤ k) :
  r.torn k = (parseOwner r.kind (some (Text.shown r.ownerField (k - r.headSize)))).toOption.map
    fun owner => { r with owner := owner }
  := by
  rw [torn, toList_line, Text.shown_append_of_le (by rw [length_encode_head]; exact h),
    length_encode_head, parse, String.toList_ofList, parseChars_head_append]
  cases parseOwner r.kind (some (Text.shown r.ownerField (k - r.headSize))) <;> rfl

/-- A torn record changes the plot in the way of the record that was to be written, or not
at all. -/
theorem eq_of_torn {r found : Record} {k : Nat} (h : r.torn k = some found) :
  found.stamp = r.stamp ∧ found.place = r.place ∧ found.kind = r.kind
  := by
  rcases Nat.lt_or_ge k r.headSize with hk | hk
  · rw [torn_of_lt hk] at h
    cases h
  · rw [torn_of_le hk] at h
    obtain ⟨owner, -, rfl⟩ := Option.map_eq_some_iff.1 h
    exact ⟨rfl, rfl, rfl⟩

/-- All bytes of a line show the record. -/
theorem torn_of_length_le
    {r : Record} (hr : r.Built) {k : Nat} (h : (Text.encodeString r.line).length ≤ k) :
  r.torn k = some r
  := by
  simp [torn, Text.shown_of_le h, hr, Except.toOption]

end Record

end IslandPlots
