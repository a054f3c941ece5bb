import IslandPlots.Audit
import IslandPlots.Proofs.Record.Torn
import IslandPlots.Proofs.Text.Grammar

/-!
# The grammar of records

Which lines are records, and of what, said without the reader.  A line consists of four fields, each
with a separator behind it, and the owner, which takes the rest.  The fields show a time stamp, two
components of a coordinate and the kind of the change, and blanks may stand around them; the owner
is left out or, in an assignment, spelt with escapes (`Owner.Spells`, `Record.OwnerShown`).  The
reader takes exactly the lines that show a record (`Record.Shows`, `Record.parse_eq_ok_iff`).
-/

namespace IslandPlots

/-! ### Owner names -/

namespace Owner

/-- A text spells an owner name.  It has no separator, and every backslash in it begins one of four
escapes. -/
inductive Spells : List Char → List Char → Prop where
  | nil : Spells [] []
  | char {c : Char} {text name : List Char} (hb : c ≠ '\\') (hs : c ≠ fieldSeparator)
    (h : Spells text name) : Spells (c :: text) (c :: name)
  | backslash {text name : List Char} (h : Spells text name) :
    Spells ('\\' :: '\\' :: text) ('\\' :: name)
  | separator {text name : List Char} (h : Spells text name) :
    Spells ('\\' :: 's' :: text) (fieldSeparator :: name)
  | lineFeed {text name : List Char} (h : Spells text name) :
    Spells ('\\' :: 'n' :: text) ('\n' :: name)
  | carriageReturn {text name : List Char} (h : Spells text name) :
    Spells ('\\' :: 'r' :: text) ('\r' :: name)

/-- The name that a text spells is read. -/
theorem Spells.unescape_eq {text name : List Char} (h : Spells text name) :
  unescape text = .ok name
  := by
  induction h with
  | nil => rfl
  | char hb hs _ ih => rw [unescape_cons hb hs, ih]; rfl
  | backslash _ ih => rw [unescape_letter rfl, ih]; rfl
  | separator _ ih => rw [unescape_letter rfl, ih]; rfl
  | lineFeed _ ih => rw [unescape_letter rfl, ih]; rfl
  | carriageReturn _ ih => rw [unescape_letter rfl, ih]; rfl

/-- Behind a letter that is an escape letter a name goes on. -/
theorem spells_of_unescapeLetter?
    {letter c : Char} (hletter : unescapeLetter? letter = some c) {text name : List Char}
    (h : Spells text name) :
  Spells ('\\' :: letter :: text) (c :: name)
  := by
  unfold unescapeLetter? at hletter
  split_ifs at hletter with hs hn hr hb
  · cases hletter
    rw [hs]
    exact .separator h
  · cases hletter
    rw [hn]
    exact .lineFeed h
  · cases hletter
    rw [hr]
    exact .carriageReturn h
  · cases hletter
    rw [hb]
    exact .backslash h

/-- A text spells the name that is read. -/
theorem spells_of_unescape {text name : List Char} (h : unescape text = .ok name) :
  Spells text name
  := by
  fun_induction unescape text generalizing name with
  | case1 =>
    cases h
    exact .nil
  | case2 => cases h
  | case3 letter rest c hletter ih =>
    rcases hrest : unescape rest with defect | others
    · rw [hrest] at h
      cases h
    · rw [hrest] at h
      cases h
      exact spells_of_unescapeLetter? hletter (ih hrest)
  | case4 => cases h
  | case5 => cases h
  | case6 c rest htruncated hescape hs ih =>
    have hb : c ≠ '\\' := by
      rintro rfl
      rcases rest with _ | ⟨letter, others⟩
      · exact htruncated rfl rfl
      · exact hescape letter others rfl rfl
    rcases hrest : unescape rest with defect | others
    · rw [hrest] at h
      cases h
    · rw [hrest] at h
      cases h
      exact .char hb hs (ih hrest)

/-- The reader of owner names takes the texts that spell one. -/
theorem unescape_eq_ok_iff {text name : List Char} :
  unescape text = .ok name ↔ Spells text name
  := ⟨spells_of_unescape, Spells.unescape_eq⟩

end Owner

namespace Record

/-- The owner field of a record of a given kind shows the owner. -/
inductive OwnerShown : Kind → List Char → Option String → Prop where
  /-- Nothing stands for no owner. -/
  | absent (kind : Kind) : OwnerShown kind [] none
  /-- Only an assignment has a name, which is not empty. -/
  | named {field name : List Char} (hne : field ≠ []) (h : Owner.Spells field name) :
    OwnerShown .assign field (some (String.ofList name))

/-- A text shows a record. -/
inductive Shows : List Char → Record → Prop where
  | fields {r : Record} {stamp x z kind owner : List Char}
    (hstamp : Text.Padded (Text.Unsigned · r.stamp.toNat) stamp)
    (hx : Text.Padded (Text.Signed · r.place.x) x) (hz : Text.Padded (Text.Signed · r.place.z) z)
    (hkind : Text.Padded (· = r.kind.word.toList) kind) (howner : OwnerShown r.kind owner r.owner) :
    Shows (stamp ++ fieldSeparator :: (x ++ fieldSeparator :: (z ++ fieldSeparator ::
      (kind ++ fieldSeparator :: owner)))) r

/-! ### Fields -/

/-- Texts of digits are plain. -/
theorem plain_of_digits {text : List Char} {n : Nat} (h : Text.Digits text n) :
  Plain text
  := fun c hc => plain_digit (h.isDigit c hc)

/-- A plain text may have a plain character before it. -/
theorem plain_cons {c : Char} {text : List Char}
    (hc : Text.isBlank c = false ∧ c ≠ fieldSeparator ∧ c.utf8Size = 1) (h : Plain text) :
  Plain (c :: text)
  := List.forall_mem_cons.2 ⟨hc, h⟩

/-- Texts that denote natural numbers are plain. -/
theorem solid_of_unsigned {text : List Char} {n : Nat} (h : Text.Unsigned text n) :
  text ≠ [] ∧ Plain text
  := by
  cases h with
  | bare h =>
    obtain ⟨c, cs, rfl, -⟩ := h.exists_cons
    exact ⟨List.cons_ne_nil _ _, plain_of_digits h⟩
  | plus h => exact ⟨List.cons_ne_nil _ _, plain_cons (by decide) (plain_of_digits h)⟩

/-- Texts that denote integers are plain. -/
theorem solid_of_signed {text : List Char} {n : Int} (h : Text.Signed text n) :
  text ≠ [] ∧ Plain text
  := by
  cases h with
  | bare h =>
    obtain ⟨c, cs, rfl, -⟩ := h.exists_cons
    exact ⟨List.cons_ne_nil _ _, plain_of_digits h⟩
  | plus h => exact ⟨List.cons_ne_nil _ _, plain_cons (by decide) (plain_of_digits h)⟩
  | minus h => exact ⟨List.cons_ne_nil _ _, plain_cons (by decide) (plain_of_digits h)⟩

/-- The words for the kinds of changes are plain and not empty. -/
theorem solid_of_word {kind : Kind} {text : List Char} (h : text = kind.word.toList) :
  text ≠ [] ∧ Plain text
  := by
  subst h
  refine ⟨?_, plain_word kind⟩
  cases kind <;> decide

section Fields

variable {P : List Char → Prop} (hP : ∀ core, P core → core ≠ [] ∧ Plain core)

include hP

/-- A field with blanks around a plain text is one that trimming makes into such a text. -/
theorem padded_iff_trim {field : List Char} :
  Text.Padded P field ↔ P (Text.trim field)
  := by
  apply Text.padded_iff
  intro core hcore
  obtain ⟨hne, hplain⟩ := hP core hcore
  exact ⟨hne, fun c hc => (hplain c hc).1⟩

/-- A field with blanks around a plain text is cut off in front of a separator. -/
theorem cut_of_padded {field : List Char} (h : Text.Padded P field) (rest : List Char) :
  cut (field ++ fieldSeparator :: rest) = (field, some rest)
  := by
  have hblank : Text.isBlank fieldSeparator ≠ true := by
    decide
  obtain ⟨front, core, back, rfl, hfront, hcore, hback⟩ := h
  apply cut_append_of_not_mem
  rw [List.mem_append, List.mem_append]
  rintro (hmem | hmem | hmem)
  · exact hblank (hfront _ hmem)
  · exact ((hP core hcore).2 _ hmem).2.1 rfl
  · exact hblank (hback _ hmem)

end Fields

/-! ### Reading the fields -/

/-- A time stamp is read from a field that shows one. -/
theorem readStamp?_trim_iff {field : List Char} {stamp : UInt64} :
  Text.readStamp? (Text.trim field) = some stamp
    ↔ Text.Padded (Text.Unsigned · stamp.toNat) field
  := by
  rw [padded_iff_trim fun _ => solid_of_unsigned]
  apply Text.readStamp?_eq_some_iff

/-- A component of a coordinate is read from a field that shows one. -/
theorem parseAxis_eq_ok_iff {axis : Axis} {text rest : Option (List Char)} {n : Blocks} :
  parseAxis axis text = .ok (n, rest)
    ↔ ∃ line field, text = some line ∧ cut line = (field, rest)
      ∧ Text.Padded (Text.Signed · n.1) field
  := by
  rw [parseAxis_eq_readField, readField_eq_ok_iff]
  simp only [padded_iff_trim fun _ => solid_of_signed, Text.readBlocks?_eq_some_iff]

/-- A word denotes a kind of change if it is the word for it. -/
theorem ofWord?_eq_some_iff {word : List Char} {kind : Kind} :
  Kind.ofWord? word = some kind ↔ word = kind.word.toList
  := by
  constructor
  · intro h
    have hfound : (kind.word.toList == word) = true :=
      List.find?_some (p := fun kind : Kind => kind.word.toList == word) h
    exact (eq_of_beq hfound).symm
  · rintro rfl
    exact ofWord?_word kind

/-- The kind of a change is read from a field that shows one. -/
theorem parseKind_eq_ok_iff {text rest : Option (List Char)} {kind : Kind} :
  parseKind text = .ok (kind, rest)
    ↔ ∃ line field, text = some line ∧ cut line = (field, rest)
      ∧ Text.Padded (· = kind.word.toList) field
  := by
  rw [parseKind_eq_readField, readField_eq_ok_iff]
  simp only [padded_iff_trim fun _ => solid_of_word, ofWord?_eq_some_iff]

/-- An owner is read from a field that shows one. -/
theorem parseOwner_eq_ok_iff {text : Option (List Char)} {kind : Kind} {owner : Option String} :
  parseOwner kind text = .ok owner ↔ ∃ field, text = some field ∧ OwnerShown kind field owner
  := by
  constructor
  · intro h
    unfold parseOwner at h
    split at h
    · cases h
    · cases h
      exact ⟨[], rfl, .absent kind⟩
    · next field hne =>
      split_ifs at h with hkind
      subst hkind
      split at h
      · next name hname =>
        cases h
        exact ⟨field, rfl, .named hne (Owner.unescape_eq_ok_iff.1 hname)⟩
      · cases h
  · rintro ⟨field, rfl, hshown⟩
    cases hshown with
    | absent => rfl
    | named hne h =>
      rw [parseOwner, if_pos rfl, Owner.unescape_eq_ok_iff.2 h]
      exact hne

/-- The reader takes the texts that show a record. -/
theorem parseChars_eq_ok_iff_shows {text : List Char} {r : Record} :
  parseChars text = .ok r ↔ Shows text r
  := by
  constructor
  · intro h
    obtain ⟨x, z, afterX, afterZ, afterKind, hstamp, hx, hz, hkind, howner, hplace⟩ :=
      parseChars_eq_ok_iff.1 h
    obtain ⟨lineX, fieldX, hlineX, hcutX, hfieldX⟩ := parseAxis_eq_ok_iff.1 hx
    obtain ⟨lineZ, fieldZ, rfl, hcutZ, hfieldZ⟩ := parseAxis_eq_ok_iff.1 hz
    obtain ⟨lineKind, fieldKind, rfl, hcutKind, hfieldKind⟩ := parseKind_eq_ok_iff.1 hkind
    obtain ⟨fieldOwner, rfl, hfieldOwner⟩ := parseOwner_eq_ok_iff.1 howner
    have hcut : cut text = ((cut text).1, some lineX) := by
      rw [← hlineX]
    rw [eq_of_cut hcut, eq_of_cut hcutX, eq_of_cut hcutZ, eq_of_cut hcutKind]
    have hfieldX' : Text.Padded (Text.Signed · r.place.x) fieldX := by
      rw [hplace]
      exact hfieldX
    have hfieldZ' : Text.Padded (Text.Signed · r.place.z) fieldZ := by
      rw [hplace]
      exact hfieldZ
    exact .fields (readStamp?_trim_iff.1 hstamp) hfieldX' hfieldZ' hfieldKind hfieldOwner
  · intro h
    cases h with
    | fields hstamp hx hz hkind howner =>
      rw [parseChars_eq_ok_iff, cut_of_padded (fun _ => solid_of_unsigned) hstamp]
      have hcutX := cut_of_padded (fun _ => solid_of_signed) hx
      have hcutZ := cut_of_padded (fun _ => solid_of_signed) hz
      have hcutKind := cut_of_padded (fun _ => solid_of_word) hkind
      exact ⟨⟨r.place.x, r.place.fits_x⟩, ⟨r.place.z, r.place.fits_z⟩, _, _, _,
        readStamp?_trim_iff.2 hstamp, parseAxis_eq_ok_iff.2 ⟨_, _, rfl, hcutX _, hx⟩,
        parseAxis_eq_ok_iff.2 ⟨_, _, rfl, hcutZ _, hz⟩,
        parseKind_eq_ok_iff.2 ⟨_, _, rfl, hcutKind _, hkind⟩,
        parseOwner_eq_ok_iff.2 ⟨_, rfl, howner⟩, rfl⟩

/-- The reader takes exactly the lines that show a record, and reads that record.  Any other line is
corrupt: a replay skips it and an audit reports it, each with the number of the line and one defect.
A record that is read has at least four separators in its line, it names an owner only when it
assigns a plot and never by the empty name, and its own line shows it again. -/
theorem parse_exact (line : String) :
  (∀ r, parse line = .ok r ↔ Shows line.toList r)
    ∧ ((¬ ∃ r, Shows line.toList r) → ∃ defect, parse line = .error defect
      ∧ (∀ replay : Ledger.Replay, (replay.step line).skips
        = replay.skips ++ [.unreadable (replay.lines + 1) defect])
      ∧ ∀ audit : Audit, (audit.count line).unparsable
        = audit.unparsable ++ [.corrupt (audit.lines + 1) defect])
    ∧ ∀ r, parse line = .ok r → 4 ≤ line.toList.count fieldSeparator
      ∧ (r.kind ≠ .assign → r.owner = none) ∧ r.owner ≠ some "" ∧ parse r.line = .ok r
  := by
  refine ⟨fun r => parseChars_eq_ok_iff_shows, ?_, ?_⟩
  · intro hnone
    rcases hparse : parse line with defect | r
    · use defect, rfl
      constructor
      · intro replay
        rw [Ledger.Replay.step, hparse]
      · intro audit
        rw [Audit.count, hparse]
    · exact absurd ⟨r, parseChars_eq_ok_iff_shows.1 hparse⟩ hnone
  · intro r hparse
    have hbuilt := built_of_parse hparse
    exact ⟨four_le_count hparse, hbuilt.owner_eq_none, hbuilt.owner_ne_empty, parse_line hbuilt⟩

/-- Signs, leading zeros and blanks are taken, and the owner is spelt with escapes. -/
example :
  parse "\t+007 ;-0;\u00a0+3; ASSIGN ; a\\s\\\\s "
    = .ok (assign ⟨0, 3, by decide, by decide⟩ (some " a;\\s ") 7)
  := by
  decide +kernel

end Record

end IslandPlots
