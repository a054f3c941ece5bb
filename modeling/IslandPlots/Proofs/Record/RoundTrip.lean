import IslandPlots.Record
import IslandPlots.Proofs.Text.Lines
import IslandPlots.Proofs.Text.Numeral

/-!
# Reading back written records

A record that was built by `Record.assign`, `Record.orphan` or `Record.advance` is what its
line shows (`Record.parse_line`), and the line holds no character that ends a line, whatever
the owner is called (`Record.unbroken_line`).  The owner is written character by character, which
comes to the same as replacing four characters one after the other (`Owner.escape_eq_replaceChar`).

The line consists of a head, which ends with the fourth separator, and the owner field.  The
reader takes the head apart without looking at the owner field
(`Record.parseChars_head_append`).
-/

namespace IslandPlots

/-! ### Owner names -/

namespace Owner

/-- A character that is its own written form is read as itself. -/
theorem unescape_cons {c : Char} (hb : c ≠ '\\') (hs : c ≠ fieldSeparator) (rest : List Char) :
  unescape (c :: rest) = (unescape rest).map (c :: ·)
  := by
  rw [unescape, if_neg hs]
  · rintro rfl
    exact absurd rfl hb
  · rintro letter text rfl
    exact absurd rfl hb

/-- An escape letter after a backslash is read as the character it stands for. -/
theorem unescape_letter
    {letter c : Char} (h : unescapeLetter? letter = some c) (rest : List Char) :
  unescape ('\\' :: letter :: rest) = (unescape rest).map (c :: ·)
  := by
  rw [unescape, h]

/-- The written form of a character is read as the character. -/
@[simp]
theorem unescape_escapeChar_append (c : Char) (rest : List Char) :
  unescape (escapeChar c ++ rest) = (unescape rest).map (c :: ·)
  := by
  unfold escapeChar
  split_ifs with hb hs hn hr
  · subst hb
    exact unescape_letter rfl rest
  · subst hs
    exact unescape_letter rfl rest
  · subst hn
    exact unescape_letter rfl rest
  · subst hr
    exact unescape_letter rfl rest
  · exact unescape_cons hb hs rest

/-- The written form of an owner name is read as the name. -/
@[simp]
theorem unescape_escape (name : List Char) :
  unescape (escape name) = .ok name
  := by
  induction name with
  | nil => rfl
  | cons c name ih =>
    rw [escape, List.flatMap_cons, unescape_escapeChar_append]
    exact congrArg (Except.map (c :: ·)) ih

/-- A text with another one in the place of every occurrence of a character. -/
def replaceChar (c : Char) (replacement text : List Char) : List Char :=
  text.flatMap fun d => if d = c then replacement else [d]

/-- The written form of an owner name comes from four replacements in a row.  The backslashes are
doubled first, since the others bring new ones. -/
theorem escape_eq_replaceChar (name : List Char) :
  escape name
    = replaceChar '\r' ['\\', 'r'] (replaceChar '\n' ['\\', 'n']
      (replaceChar fieldSeparator ['\\', 's'] (replaceChar '\\' ['\\', '\\'] name)))
  := by
  unfold escape replaceChar
  rw [List.flatMap_assoc, List.flatMap_assoc, List.flatMap_assoc]
  congr
  funext c
  unfold escapeChar
  split_ifs with hb hs hn hr
  · subst hb
    rfl
  · subst hs
    rfl
  · subst hn
    rfl
  · subst hr
    rfl
  · simp [hs, hn, hr]

/-- The written form of an owner name holds no separator and nothing that ends a line. -/
theorem mem_escape {name : List Char} {c : Char} (h : c ∈ escape name) :
  c ≠ fieldSeparator ∧ c ≠ '\n' ∧ c ≠ '\r'
  := by
  obtain ⟨d, -, hc⟩ := List.mem_flatMap.1 h
  unfold escapeChar at hc
  split_ifs at hc with hb hs hn hr
  · simp only [List.mem_cons, List.not_mem_nil, or_false, or_self] at hc
    subst hc
    decide
  · simp only [List.mem_cons, List.not_mem_nil, or_false] at hc
    rcases hc with rfl | rfl <;> decide
  · simp only [List.mem_cons, List.not_mem_nil, or_false] at hc
    rcases hc with rfl | rfl <;> decide
  · simp only [List.mem_cons, List.not_mem_nil, or_false] at hc
    rcases hc with rfl | rfl <;> decide
  · rw [List.mem_singleton] at hc
    subst hc
    exact ⟨hs, hn, hr⟩

/-- Only the empty name has an empty written form. -/
theorem escape_eq_nil {name : List Char} :
  escape name = [] ↔ name = []
  := by
  constructor
  · intro h
    have hread := unescape_escape name
    rw [h] at hread
    exact (Except.ok.inj hread).symm
  · rintro rfl
    rfl

/-- A written form that is not empty is read as a name that is not empty. -/
theorem unescape_ne_nil {field name : List Char} (hfield : field ≠ [])
    (h : unescape field = .ok name) :
  name ≠ []
  := by
  unfold unescape at h
  split at h
  · exact absurd rfl hfield
  · cases h
  · split at h
    next c _ =>
      rcases hrest : unescape _ with defect | rest
      · rw [hrest] at h
        cases h
      · rw [hrest] at h
        cases h
        nofun
    · cases h
  · split_ifs at h
    rcases hrest : unescape _ with defect | rest
    · rw [hrest] at h
      cases h
    · rw [hrest] at h
      cases h
      nofun

/-- An owner whose name is not empty is not dropped. -/
theorem filter_eq_self {owner : Option String} (h : owner ≠ some "") :
  owner.filter (· ≠ "") = owner
  := by
  rcases owner with _ | name
  · rfl
  · exact Option.filter_some_pos (by simpa using h)

end Owner

namespace Record

/-! ### Records as the program makes them -/

/-- A record that was made by one of the three ways to make one. -/
inductive Built : Record → Prop where
  | assign (place : Coord) (owner : Option String) (stamp : UInt64) :
    Built (assign place owner stamp)
  | orphan (place : Coord) (stamp : UInt64) : Built (orphan place stamp)
  | advance (place : Coord) (stamp : UInt64) : Built (advance place stamp)

/-- A record that was built names an owner only if it assigns a plot. -/
theorem Built.owner_eq_none {r : Record} (h : r.Built) (hk : r.kind ≠ .assign) :
  r.owner = none
  := by
  cases h with
  | assign => exact absurd rfl hk
  | orphan => rfl
  | advance => rfl

/-- A record that was built does not name an owner by the empty name. -/
theorem Built.owner_ne_empty {r : Record} (h : r.Built) :
  r.owner ≠ some ""
  := by
  cases h with
  | assign place owner stamp =>
    intro heq
    have := Option.mem_filter_iff.1 heq
    simp at this
  | orphan => nofun
  | advance => nofun

/-! ### The head of a line -/

/-- A text of ASCII characters without blanks and separators. -/
def Plain (text : List Char) : Prop :=
  ∀ c ∈ text, Text.isBlank c = false ∧ c ≠ fieldSeparator ∧ c.utf8Size = 1

/-- A digit is one byte long. -/
theorem utf8Size_of_isDigit {c : Char} (h : c.isDigit = true) :
  c.utf8Size = 1
  := by
  rw [Char.utf8Size_eq_one_iff]
  obtain ⟨-, hu⟩ := Char.isDigit_iff_toNat.1 h
  exact UInt32.le_iff_toNat_le.2 (Nat.le_trans hu (by decide))

/-- A digit may stand in a plain text. -/
theorem plain_digit {c : Char} (h : c.isDigit = true) :
  Text.isBlank c = false ∧ c ≠ fieldSeparator ∧ c.utf8Size = 1
  := by
  refine ⟨Text.isBlank_of_isDigit h, ?_, utf8Size_of_isDigit h⟩
  rintro rfl
  cases h

/-- Numerals are plain. -/
theorem plain_numeral (n : Nat) :
  Plain (Text.numeral n)
  := by
  intro c hc
  exact plain_digit (Text.isDigit_of_mem_numeral hc)

/-- Numerals with a sign are plain. -/
theorem plain_signedNumeral (n : Int) :
  Plain (Text.signedNumeral n)
  := by
  intro c hc
  rcases Text.mem_signedNumeral hc with rfl | hc
  · decide
  · exact plain_digit hc

/-- The words for the kinds of changes are plain. -/
theorem plain_word (kind : Kind) :
  Plain kind.word.toList
  := by
  have hall : kind.word.toList.all (fun c =>
      !Text.isBlank c && c ≠ fieldSeparator && c.utf8Size = 1) = true := by
    cases kind <;> decide
  intro c hc
  have hc' := List.all_eq_true.1 hall c hc
  simpa [and_assoc] using hc'

/-- A plain text is not changed by trimming. -/
theorem trim_of_plain {text : List Char} (h : Plain text) :
  Text.trim text = text
  := Text.trim_of_not_blank fun c hc => (h c hc).1

/-- A text without separators before a separator is cut off. -/
theorem cut_append_of_not_mem {field : List Char} (h : fieldSeparator ∉ field) (rest : List Char) :
  cut (field ++ fieldSeparator :: rest) = (field, some rest)
  := by
  induction field with
  | nil => simp [cut]
  | cons c field ih =>
    rw [List.mem_cons, not_or] at h
    rw [List.cons_append, cut, if_neg (Ne.symm h.1), ih h.2]

/-- A plain text before a separator is cut off. -/
theorem cut_append {field : List Char} (h : Plain field) (rest : List Char) :
  cut (field ++ fieldSeparator :: rest) = (field, some rest)
  := by
  apply cut_append_of_not_mem
  intro hmem
  exact (h _ hmem).2.1 rfl

/-- The text of a record before its owner field. -/
def head (r : Record) : List Char :=
  Text.numeral r.stamp.toNat ++ fieldSeparator :: (Text.signedNumeral r.place.x
    ++ fieldSeparator :: (Text.signedNumeral r.place.z
      ++ fieldSeparator :: (r.kind.word.toList ++ [fieldSeparator])))

/-- The text of a line is its head and the owner field. -/
theorem toList_line (r : Record) :
  r.line.toList = r.head ++ r.ownerField
  := by
  rw [line, String.toList_ofList, head]
  simp [fields, List.intercalate, List.intersperse]

/-- The word for a kind of change denotes the kind. -/
@[simp]
theorem ofWord?_word (kind : Kind) :
  Kind.ofWord? kind.word.toList = some kind
  := by
  cases kind <;> decide

/-- Reads one field, and returns the text after it. -/
def readField {α : Type} (read? : List Char → Option α) (missing : Defect)
    (bad : String → Defect) (text : Option (List Char)) :
    Except Defect (α × Option (List Char)) :=
  match text.map cut with
  | none => .error missing
  | some (field, rest) =>
    match read? (Text.trim field) with
    | some found => .ok (found, rest)
    | none => .error (bad (String.ofList field))

/-- A component of a coordinate is a field that shows a number of blocks. -/
theorem parseAxis_eq_readField (axis : Axis) (text : Option (List Char)) :
  parseAxis axis text = readField Text.readBlocks? (.missingAxis axis) (.badAxis axis) text
  := by
  unfold parseAxis readField
  rcases text.map cut with _ | ⟨field, rest⟩
  · rfl
  · dsimp only
    cases Text.readBlocks? (Text.trim field) <;> rfl

/-- The kind of a change is a field that shows a word for it. -/
theorem parseKind_eq_readField (text : Option (List Char)) :
  parseKind text = readField Kind.ofWord? .missingKind .unknownKind text
  := by
  unfold parseKind readField
  rcases text.map cut with _ | ⟨field, rest⟩
  · rfl
  · dsimp only
    cases Kind.ofWord? (Text.trim field) <;> rfl

section

variable {α : Type} {read? : List Char → Option α} {missing : Defect} {bad : String → Defect}

/-- A field is read when there is text left and the reader takes what stands before the first
separator. -/
theorem readField_eq_ok_iff {text rest : Option (List Char)} {found : α} :
  readField read? missing bad text = .ok (found, rest)
    ↔ ∃ line field, text = some line ∧ cut line = (field, rest)
      ∧ read? (Text.trim field) = some found
  := by
  constructor
  · intro h
    rcases text with _ | line
    · cases h
    · rcases hcut : cut line with ⟨field, after⟩
      simp only [readField, Option.map_some, hcut] at h
      split at h
      · next hfound =>
        cases h
        exact ⟨line, field, rfl, hcut, hfound⟩
      · cases h
  · rintro ⟨line, field, rfl, hcut, hfound⟩
    simp only [readField, Option.map_some, hcut, hfound]

/-- A plain field before a separator is read. -/
theorem readField_append {field : List Char} {found : α} (h : Plain field)
    (hfound : read? field = some found) (rest : List Char) :
  readField read? missing bad (some (field ++ fieldSeparator :: rest)) = .ok (found, some rest)
  := by
  rw [← trim_of_plain h] at hfound
  exact readField_eq_ok_iff.2 ⟨_, field, rfl, cut_append h rest, hfound⟩

end

/-- A component of a coordinate is read back. -/
theorem parseAxis_append (axis : Axis) {n : Int} (h : Fits n) (rest : List Char) :
  parseAxis axis (some (Text.signedNumeral n ++ fieldSeparator :: rest))
    = .ok (⟨n, h⟩, some rest)
  := by
  rw [parseAxis_eq_readField]
  exact readField_append (plain_signedNumeral n) (Text.readBlocks?_signedNumeral h) rest

/-- The kind of a change is read back. -/
theorem parseKind_append (kind : Kind) (rest : List Char) :
  parseKind (some (kind.word.toList ++ fieldSeparator :: rest)) = .ok (kind, some rest)
  := by
  rw [parseKind_eq_readField]
  exact readField_append (plain_word kind) (ofWord?_word kind) rest

/-- The head of a record is read back, and what follows is read as the owner. -/
theorem parseChars_head_append (r : Record) (field : List Char) :
  parseChars (r.head ++ field)
    = (parseOwner r.kind (some field)).map fun owner => { r with owner := owner }
  := by
  unfold parseChars head
  simp only [List.append_assoc, List.cons_append, List.nil_append,
    cut_append (plain_numeral r.stamp.toNat), trim_of_plain (plain_numeral r.stamp.toNat),
    Text.readStamp?_numeral, parseAxis_append .x r.place.fits_x,
    parseAxis_append .z r.place.fits_z, parseKind_append, bind, Except.bind]
  cases parseOwner r.kind (some field) <;> rfl

/-! ### Whole lines -/

/-- The owner field of a record that was built is read as the owner. -/
theorem parseOwner_ownerField {r : Record} (h : r.Built) :
  parseOwner r.kind (some r.ownerField) = .ok r.owner
  := by
  rcases hk : r.kind with _ | _ | _
  · rcases ho : r.owner with _ | name
    · simp only [ownerField, hk, ho]
      rfl
    · have hname : name.toList ≠ [] := by
        intro hnil
        apply h.owner_ne_empty
        rw [ho, ← String.ofList_toList (s := name), hnil]
      obtain ⟨c, cs, hcs⟩ := List.exists_cons_of_ne_nil (mt Owner.escape_eq_nil.1 hname)
      simp only [ownerField, hk, ho]
      rw [hcs, parseOwner, ← hcs, if_pos rfl, Owner.unescape_escape]
      · simp only [String.ofList_toList]
      · nofun
  all_goals
    rw [ownerField, hk, h.owner_eq_none (by simp [hk])]
    rfl

/-- The line of a record that was built shows the record. -/
@[simp]
theorem parse_line {r : Record} (h : r.Built) :
  parse r.line = .ok r
  := by
  rw [parse, toList_line, parseChars_head_append, parseOwner_ownerField h]
  rfl

/-- A record is one that was built if it names an owner only when it assigns a plot, and then
not by the empty name. -/
theorem built_of_owner {r : Record} (hnone : r.kind ≠ .assign → r.owner = none)
    (hname : r.owner ≠ some "") :
  r.Built
  := by
  obtain ⟨stamp, place, kind, owner⟩ := r
  cases kind with
  | assign =>
    have := Built.assign place owner stamp
    rwa [assign, Owner.filter_eq_self hname] at this
  | orphan =>
    obtain rfl : owner = none := hnone nofun
    exact .orphan place stamp
  | advance =>
    obtain rfl : owner = none := hnone nofun
    exact .advance place stamp

/-- The owner that is read is named only by a record that assigns a plot, and not by the empty
name. -/
theorem owner_of_parseOwner {kind : Kind} {text : Option (List Char)} {owner : Option String}
    (h : parseOwner kind text = .ok owner) :
  (kind ≠ .assign → owner = none) ∧ owner ≠ some ""
  := by
  unfold parseOwner at h
  split at h
  · cases h
  · cases h
    exact ⟨fun _ => rfl, nofun⟩
  next field hfield =>
    split_ifs at h with hkind
    split at h
    next name hname =>
      cases h
      refine ⟨fun hne => absurd hkind hne, ?_⟩
      intro hempty
      apply Owner.unescape_ne_nil hfield hname
      rw [← String.toList_ofList (l := name), Option.some.inj hempty]
      rfl
    · cases h

/-- A line shows a record when its fields can be read one after the other. -/
theorem parseChars_eq_ok_iff {text : List Char} {r : Record} :
  parseChars text = .ok r
    ↔ ∃ x z afterX afterZ afterKind, Text.readStamp? (Text.trim (cut text).1) = some r.stamp
      ∧ parseAxis .x (cut text).2 = .ok (x, afterX) ∧ parseAxis .z afterX = .ok (z, afterZ)
      ∧ parseKind afterZ = .ok (r.kind, afterKind) ∧ parseOwner r.kind afterKind = .ok r.owner
      ∧ r.place = .ofBlocks x z
  := by
  unfold parseChars
  dsimp only
  constructor
  · intro h
    split at h
    · cases h
    next stamp hstamp =>
      rcases hx : parseAxis .x (cut text).2 with defect | ⟨x, afterX⟩
      · rw [hx] at h
        cases h
      rcases hz : parseAxis .z afterX with defect | ⟨z, afterZ⟩
      · simp only [hx, hz, bind, Except.bind] at h
        cases h
      rcases hkind : parseKind afterZ with defect | ⟨kind, afterKind⟩
      · simp only [hx, hz, hkind, bind, Except.bind] at h
        cases h
      rcases howner : parseOwner kind afterKind with defect | owner
      · simp only [hx, hz, hkind, howner, bind, Except.bind] at h
        cases h
      simp only [hx, hz, hkind, howner, bind, Except.bind, pure, Except.pure] at h
      cases h
      exact ⟨x, z, afterX, afterZ, afterKind, hstamp, rfl, hz, hkind, howner, rfl⟩
  · rintro ⟨x, z, afterX, afterZ, afterKind, hstamp, hx, hz, hkind, howner, hplace⟩
    simp only [hstamp, hx, hz, hkind, howner, bind, Except.bind, pure, Except.pure, ← hplace]

/-- Every record that is read could have been built. -/
theorem built_of_parse {text : String} {r : Record} (h : parse text = .ok r) :
  r.Built
  := by
  obtain ⟨_, _, _, _, _, -, -, -, -, howner, -⟩ := parseChars_eq_ok_iff.1 h
  obtain ⟨hnone, hname⟩ := owner_of_parseOwner howner
  exact built_of_owner hnone hname

/-- A character of the head is plain or a separator. -/
theorem mem_head {r : Record} {c : Char} (h : c ∈ r.head) :
  c = fieldSeparator ∨ (Text.isBlank c = false ∧ c ≠ fieldSeparator ∧ c.utf8Size = 1)
  := by
  simp only [head, List.mem_append, List.mem_cons, List.not_mem_nil, or_false] at h
  rcases h with h | h | h | h | h | h | h | h
  · exact .inr (plain_numeral _ c h)
  · exact .inl h
  · exact .inr (plain_signedNumeral _ c h)
  · exact .inl h
  · exact .inr (plain_signedNumeral _ c h)
  · exact .inl h
  · exact .inr (plain_word _ c h)
  · exact .inl h

/-- A character of the owner field ends no line. -/
theorem mem_ownerField {r : Record} {c : Char} (h : c ∈ r.ownerField) :
  c ≠ fieldSeparator ∧ c ≠ '\n' ∧ c ≠ '\r'
  := by
  unfold ownerField at h
  split at h
  · exact Owner.mem_escape h
  · cases h

/-- The line of a record holds no character that ends a line. -/
theorem unbroken_line (r : Record) :
  Text.Unbroken r.line
  := by
  have hline : ∀ c ∈ r.line.toList, c ≠ '\n' ∧ c ≠ '\r' := by
    intro c hc
    rw [toList_line] at hc
    rcases List.mem_append.1 hc with hc | hc
    · rcases mem_head hc with rfl | ⟨hblank, -, -⟩
      · decide
      · constructor <;> rintro rfl <;> revert hblank <;> decide
    · exact (mem_ownerField hc).2
  exact ⟨fun h => (hline _ h).1 rfl, fun h => (hline _ h).2 rfl⟩

end Record

end IslandPlots
