import IslandPlots.Proofs.Record.Torn
import Mathlib.Tactic.ByContra

/-!
# Misread owners

When the writing of a record stops inside the owner field, the reader takes what is left of
the field for the owner (`Owner.unescape_shown_escape`).  It notices the cut only where it
goes through an escape; so a torn record is absent, or it is the record, or it names another
owner, and the last happens exactly when the record is misread (`Record.torn_of_misread`,
`Record.torn_of_not_misread`).
-/

namespace IslandPlots

/-! ### What is left of an owner -/

namespace Owner

/-- The owner that is read when `k` bytes of the written form of a name are there. -/
def remains : List Char → Nat → Except Defect (List Char)
  | [], _ => .ok []
  | c :: name, k =>
    let size := (Text.encode (escapeChar c)).length
    if size ≤ k then (remains name (k - size)).map (c :: ·)
    else if k = 0 then .ok []
    else if escapeChar c = [c] then .ok ['\uFFFD']
    else .error .truncated

/-- The number of bytes of the written form of a name. -/
def size (name : List Char) : Nat :=
  (Text.encode (escape name)).length

/-- The size of a name with a first character. -/
@[simp]
theorem size_cons (c : Char) (name : List Char) :
  size (c :: name) = (Text.encode (escapeChar c)).length + size name
  := by
  rw [size, size, ← List.length_append, Text.encode, Text.encode, Text.encode,
    ← List.flatMap_append]
  rfl

/-- A character is written as itself, or as a backslash and a letter. -/
theorem escapeChar_cases (c : Char) :
  escapeChar c = [c]
    ∨ escapeChar c ≠ [c] ∧ ∃ letter, escapeChar c = ['\\', letter] ∧ letter.utf8Size = 1
  := by
  unfold escapeChar
  split_ifs with hb hs hn hr
  · subst hb
    exact .inr ⟨by decide, _, rfl, by decide⟩
  · subst hs
    exact .inr ⟨by decide, _, rfl, by decide⟩
  · subst hn
    exact .inr ⟨by decide, _, rfl, by decide⟩
  · subst hr
    exact .inr ⟨by decide, _, rfl, by decide⟩
  · exact .inl rfl

/-- A character that is written as itself takes its own bytes. -/
theorem length_of_plain {c : Char} (h : escapeChar c = [c]) :
  (Text.encode (escapeChar c)).length = c.utf8Size
  := by
  simp [h, Text.encode]

/-- An escaped character takes two bytes. -/
theorem length_of_escaped {c : Char} (h : escapeChar c ≠ [c]) :
  (Text.encode (escapeChar c)).length = 2
  := by
  rcases escapeChar_cases c with hplain | ⟨-, letter, hescaped, hletter⟩
  · exact absurd hplain h
  · simp [hescaped, hletter, Text.encode]
    rfl

/-- What is read of the first `k` bytes of the written form of a name. -/
theorem unescape_shown_escape (name : List Char) (k : Nat) :
  unescape (Text.shown (escape name) k) = remains name k
  := by
  induction name generalizing k with
  | nil => rfl
  | cons c name ih =>
    have hescape : escape (c :: name) = escapeChar c ++ escape name := rfl
    rw [hescape, remains]
    by_cases hsize : (Text.encode (escapeChar c)).length ≤ k
    · rw [Text.shown_append_of_le hsize, unescape_escapeChar_append, ih]
      exact (if_pos hsize).symm
    · rw [Text.shown_append_of_lt (by omega)]
      simp only [if_neg hsize]
      split_ifs with hzero hplain
      · simp [hzero]
        rfl
      · rw [length_of_plain hplain] at hsize
        rw [hplain, Text.shown, if_neg hsize, if_neg hzero]
        rfl
      · rw [length_of_escaped hplain] at hsize
        obtain rfl : k = 1 := by omega
        rcases escapeChar_cases c with hplain' | ⟨-, letter, hescaped, hletter⟩
        · exact absurd hplain' hplain
        · rw [hescaped, Text.shown, if_pos (by decide)]
          exact congrArg (fun text => unescape ('\\' :: text)) (Text.shown_zero [letter])

/-- The cut after `k` bytes goes through an escape. -/
def SplitsEscape (name : List Char) (k : Nat) : Prop :=
  ∃ before c after, name = before ++ c :: after ∧ escapeChar c ≠ [c] ∧ k = size before + 1

/-- The cut after `k` bytes goes through a U+FFFD at the end of the name, which is what the
reader puts in its place. -/
def SplitsLast (name : List Char) (k : Nat) : Prop :=
  ∃ before, name = before ++ ['\uFFFD'] ∧ size before < k

/-- A cut goes through an escape behind the first character. -/
theorem splitsEscape_cons {c : Char} {name : List Char} {k : Nat}
    (h : (Text.encode (escapeChar c)).length ≤ k) :
  SplitsEscape (c :: name) k ↔ SplitsEscape name (k - (Text.encode (escapeChar c)).length)
  := by
  constructor
  · rintro ⟨before, d, after, hname, hescaped, rfl⟩
    rcases before with _ | ⟨first, before⟩
    · cases hname
      rw [length_of_escaped hescaped] at h
      exact absurd h (by decide)
    · cases hname
      exact ⟨before, d, after, rfl, hescaped, by rw [size_cons]; omega⟩
  · rintro ⟨before, d, after, rfl, hescaped, hk⟩
    exact ⟨c :: before, d, after, rfl, hescaped, by rw [size_cons]; omega⟩

/-- A cut in the first character goes through an escape if the character is escaped. -/
theorem splitsEscape_cons_of_lt {c : Char} {name : List Char} {k : Nat}
    (h : k < (Text.encode (escapeChar c)).length) :
  SplitsEscape (c :: name) k ↔ escapeChar c ≠ [c] ∧ k = 1
  := by
  constructor
  · rintro ⟨before, d, after, hname, hescaped, rfl⟩
    rcases before with _ | ⟨first, before⟩
    · cases hname
      exact ⟨hescaped, rfl⟩
    · cases hname
      rw [size_cons] at h
      omega
  · rintro ⟨hescaped, rfl⟩
    exact ⟨[], c, name, rfl, hescaped, rfl⟩

/-- A cut goes through the last character behind the first one. -/
theorem splitsLast_cons {c : Char} {name : List Char} {k : Nat}
    (h : (Text.encode (escapeChar c)).length ≤ k) (hk : k < size (c :: name)) :
  SplitsLast (c :: name) k ↔ SplitsLast name (k - (Text.encode (escapeChar c)).length)
  := by
  constructor
  · rintro ⟨before, hname, hsize⟩
    rcases before with _ | ⟨first, before⟩
    · cases hname
      rw [size_cons] at hk
      exact absurd hk (by rw [show size [] = 0 from rfl]; omega)
    · cases hname
      exact ⟨before, rfl, by rw [size_cons] at hsize; omega⟩
  · rintro ⟨before, rfl, hsize⟩
    exact ⟨c :: before, rfl, by rw [size_cons]; omega⟩

/-- A cut in the first character goes through the last one if there is no other. -/
theorem splitsLast_cons_of_lt {c : Char} {name : List Char} {k : Nat}
    (h : k < (Text.encode (escapeChar c)).length) :
  SplitsLast (c :: name) k ↔ c = '\uFFFD' ∧ name = [] ∧ k ≠ 0
  := by
  constructor
  · rintro ⟨before, hname, hsize⟩
    rcases before with _ | ⟨first, before⟩
    · cases hname
      exact ⟨rfl, rfl, Nat.ne_of_gt hsize⟩
    · cases hname
      rw [size_cons] at hsize
      omega
  · rintro ⟨rfl, rfl, hk⟩
    exact ⟨[], rfl, Nat.pos_of_ne_zero hk⟩

/-- The reader notices the cuts that go through an escape. -/
theorem remains_eq_error {name : List Char} {k : Nat} :
  (∃ defect, remains name k = .error defect) ↔ SplitsEscape name k
  := by
  induction name generalizing k with
  | nil =>
    constructor
    · rintro ⟨defect, h⟩
      cases h
    · rintro ⟨before, c, after, h, -⟩
      exact absurd h.symm (by simp)
  | cons c name ih =>
    rw [remains]
    by_cases hsize : (Text.encode (escapeChar c)).length ≤ k
    · rw [splitsEscape_cons hsize, ← ih]
      simp only [if_pos hsize]
      rcases remains name (k - (Text.encode (escapeChar c)).length) with defect | left
      · exact ⟨fun _ => ⟨defect, rfl⟩, fun _ => ⟨defect, rfl⟩⟩
      · constructor <;> rintro ⟨defect, h⟩ <;> cases h
    · rw [splitsEscape_cons_of_lt (Nat.lt_of_not_le hsize)]
      simp only [if_neg hsize]
      split_ifs with hzero hplain
      · simp [hzero]
      · simp [hplain]
      · rw [length_of_escaped hplain] at hsize
        exact ⟨fun _ => ⟨hplain, by omega⟩, fun _ => ⟨_, rfl⟩⟩

/-- The reader gets the name from a part of its written form only when the cut goes through
a U+FFFD at its end. -/
theorem remains_eq_self {name : List Char} {k : Nat} (hk : k < size name) :
  remains name k = .ok name ↔ SplitsLast name k
  := by
  induction name generalizing k with
  | nil => cases hk
  | cons c name ih =>
    rw [remains]
    by_cases hsize : (Text.encode (escapeChar c)).length ≤ k
    · rw [splitsLast_cons hsize hk, ← ih (by rw [size_cons] at hk; omega)]
      simp only [if_pos hsize]
      rcases remains name (k - (Text.encode (escapeChar c)).length) with defect | left
      · exact ⟨nofun, nofun⟩
      · constructor
        · intro h
          cases h
          rfl
        · intro h
          cases h
          rfl
    · rw [splitsLast_cons_of_lt (Nat.lt_of_not_le hsize)]
      simp only [if_neg hsize]
      split_ifs with hzero hplain
      · simp [hzero]
      · simp [hzero, eq_comm]
      · have hc : c ≠ '\uFFFD' := by
          rintro rfl
          exact hplain (by decide)
        simp [hc]

/-- A beginning of a name, perhaps with U+FFFD for the next character. -/
def Fragment (name left : List Char) : Prop :=
  ∃ i, left = name.take i ∨ left = name.take i ++ ['\uFFFD']

/-- What the reader gets is a fragment of the name. -/
theorem fragment_of_remains
    {name left : List Char} {k : Nat} (h : remains name k = .ok left) :
  Fragment name left
  := by
  induction name generalizing k left with
  | nil =>
    cases h
    exact ⟨0, .inl rfl⟩
  | cons c name ih =>
    rw [remains] at h
    by_cases hsize : (Text.encode (escapeChar c)).length ≤ k
    · simp only [if_pos hsize] at h
      rcases hrest : remains name (k - (Text.encode (escapeChar c)).length) with defect | rest
      · rw [hrest] at h
        cases h
      · rw [hrest] at h
        cases h
        obtain ⟨i, rfl | rfl⟩ := ih hrest
        · exact ⟨i + 1, .inl rfl⟩
        · exact ⟨i + 1, .inr rfl⟩
    · simp only [if_neg hsize] at h
      split_ifs at h
      · cases h
        exact ⟨0, .inl rfl⟩
      · cases h
        exact ⟨0, .inr rfl⟩

/-- A name that is read with a first character is not empty. -/
theorem map_cons_ne (c : Char) (name : Except Defect (List Char)) :
  name.map (c :: ·) ≠ .ok []
  := by
  cases name <;> nofun

/-- Only the empty text is read as the empty name. -/
theorem eq_nil_of_unescape
    {field : List Char} (h : unescape field = .ok []) :
  field = []
  := by
  unfold unescape at h
  split at h
  · rfl
  · cases h
  · split at h
    · exact absurd h (map_cons_ne _ _)
    · cases h
  · split_ifs at h
    exact absurd h (map_cons_ne _ _)

/-- The owner that a text shows; the empty text shows none. -/
def ofChars (name : List Char) : Option String :=
  if name = [] then none else some (String.ofList name)

end Owner

namespace Record

/-! ### Torn assignments -/

/-- The owner of an assignment is what the owner field is read as. -/
theorem parseOwner_assign (field : List Char) :
  (parseOwner .assign (some field)).toOption
    = (Owner.unescape field).toOption.map Owner.ofChars
  := by
  rcases field with _ | ⟨c, field⟩
  · rfl
  · simp only [parseOwner, if_pos]
    rcases hread : Owner.unescape (c :: field) with defect | name
    · rfl
    · have hname : name ≠ [] := by
        rintro rfl
        cases Owner.eq_nil_of_unescape hread
      simp only [Except.toOption, Option.map_some, Owner.ofChars, if_neg hname]

/-- An assignment shows its owner in the last field. -/
theorem ownerField_assign
    {r : Record} {name : String} (hkind : r.kind = .assign) (howner : r.owner = some name) :
  r.ownerField = Owner.escape name.toList
  := by
  simp only [ownerField, hkind, howner]

/-- An assignment whose head is complete is read with what is left of its owner. -/
theorem torn_assign
    {r : Record} {name : String} (hkind : r.kind = .assign) (howner : r.owner = some name)
    {k : Nat} (h : r.headSize ≤ k) :
  r.torn k = (Owner.remains name.toList (k - r.headSize)).toOption.map
    fun left => { r with owner := Owner.ofChars left }
  := by
  rw [torn_of_le h, hkind, parseOwner_assign, ownerField_assign hkind howner,
    Owner.unescape_shown_escape, Option.map_map]
  rfl

/-- A record without an owner is whole as soon as its head is. -/
theorem torn_of_no_owner
    {r : Record} (howner : r.owner = none) {k : Nat} (h : r.headSize ≤ k) :
  r.torn k = some r
  := by
  have hfield : r.ownerField = [] := by
    unfold ownerField
    rw [howner]
    cases r.kind <;> rfl
  rw [torn_of_le h, hfield, show Text.shown [] (k - r.headSize) = [] from rfl]
  simp only [parseOwner, Except.toOption, Option.map_some, ← howner]

/-- The writing of the line of a record stops after `k` bytes, in the owner field, and the
reader does not notice: neither is an escape split, nor is a U+FFFD read for itself. -/
def Misread (r : Record) (k : Nat) : Prop :=
  ∃ name, r.kind = .assign ∧ r.owner = some name ∧ r.headSize ≤ k
    ∧ k < r.headSize + Owner.size name.toList
    ∧ ¬ Owner.SplitsEscape name.toList (k - r.headSize)
    ∧ ¬ Owner.SplitsLast name.toList (k - r.headSize)

/-- A record that is misread is read with an owner that it does not name, of whose name a
fragment was written. -/
theorem torn_of_misread
    {r : Record} {k : Nat} (h : r.Misread k) :
  ∃ name left, r.owner = some name ∧ Owner.Fragment name.toList left
    ∧ Owner.ofChars left ≠ r.owner ∧ r.torn k = some { r with owner := Owner.ofChars left }
  := by
  obtain ⟨name, hkind, howner, hhead, hsize, hescape, hlast⟩ := h
  rcases hleft : Owner.remains name.toList (k - r.headSize) with defect | left
  · exact absurd (Owner.remains_eq_error.1 ⟨defect, hleft⟩) hescape
  · use name, left, howner, Owner.fragment_of_remains hleft
    constructor
    · intro heq
      rw [howner, Owner.ofChars] at heq
      split_ifs at heq
      apply hlast
      rw [← Owner.remains_eq_self (by omega), hleft, ← Option.some.inj heq, String.toList_ofList]
    · rw [torn_assign hkind howner hhead, hleft]
      rfl

/-- The number of bytes of a line is that of the head and that of the owner field. -/
theorem length_line (r : Record) :
  (Text.encodeString r.line).length = r.headSize + (Text.encode r.ownerField).length
  := by
  rw [Text.encodeString, toList_line, ← length_encode_head, ← List.length_append, Text.encode,
    Text.encode, Text.encode, List.flatMap_append]

/-- The owner that the text of a name shows is the name, unless it is empty. -/
theorem ofChars_toList {name : String} (h : name ≠ "") :
  Owner.ofChars name.toList = some name
  := by
  rw [Owner.ofChars, if_neg, String.ofList_toList]
  intro hnil
  apply h
  rw [← String.ofList_toList (s := name), hnil]

/-- A record that is not misread is absent, or it is read as what it is. -/
theorem torn_of_not_misread
    {r : Record} (hr : r.Built) {k : Nat} (h : ¬ r.Misread k) :
  r.torn k = none ∨ r.torn k = some r
  := by
  rcases Nat.lt_or_ge k r.headSize with hhead | hhead
  · exact .inl (torn_of_lt hhead)
  rcases howner : r.owner with _ | name
  · exact .inr (torn_of_no_owner howner hhead)
  by_cases hkind : r.kind = .assign
  · rcases Nat.lt_or_ge k (r.headSize + Owner.size name.toList) with hsize | hsize
    · rw [torn_assign hkind howner hhead]
      by_cases hescape : Owner.SplitsEscape name.toList (k - r.headSize)
      · obtain ⟨defect, hleft⟩ := Owner.remains_eq_error.2 hescape
        rw [hleft]
        exact .inl rfl
      · have hlast : Owner.SplitsLast name.toList (k - r.headSize) := by
          by_contra hlast
          exact h ⟨name, hkind, howner, hhead, hsize, hescape, hlast⟩
        have hname : name ≠ "" := fun heq => hr.owner_ne_empty (by rw [howner, heq])
        rw [(Owner.remains_eq_self (by omega)).2 hlast]
        right
        simp only [Except.toOption, Option.map_some, ofChars_toList hname, ← howner]
    · right
      apply torn_of_length_le hr
      rw [length_line, ownerField_assign hkind howner]
      exact hsize
  · rw [hr.owner_eq_none hkind] at howner
    cases howner

end Record

end IslandPlots
