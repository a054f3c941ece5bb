import IslandPlots.Proofs.Text.Numeral
import Mathlib.Data.List.Induction
import Mathlib.Data.List.TakeWhile
import Mathlib.Tactic.Use

/-!
# The grammar of numerals

Which texts denote numbers, said without the readers: digits count ones, tens and so on from the
right (`Text.Digits`), and a sign may stand before them (`Text.Unsigned`, `Text.Signed`).  The
readers take exactly these texts, as far as the number is in range (`Text.readStamp?_eq_some_iff`,
`Text.readBlocks?_eq_some_iff`).  A field may have blanks around what it shows (`Text.Padded`), and
these are what trimming removes (`Text.padded_iff`).
-/

namespace IslandPlots.Text

/-! ### Blanks around a text -/

/-- Blanks may stand around a text that has a property. -/
def Padded (P : List Char → Prop) (field : List Char) : Prop :=
  ∃ front core back, field = front ++ (core ++ back)
    ∧ (∀ c ∈ front, isBlank c = true) ∧ P core ∧ ∀ c ∈ back, isBlank c = true

/-- Blanks are dropped up to a text without blanks. -/
theorem dropWhile_append
    {front core : List Char} (hfront : ∀ c ∈ front, isBlank c = true) (hne : core ≠ [])
    (hcore : ∀ c ∈ core, isBlank c = false) (rest : List Char) :
  (front ++ (core ++ rest)).dropWhile isBlank = core ++ rest
  := by
  obtain ⟨c, cs, rfl⟩ := List.exists_cons_of_ne_nil hne
  rw [List.dropWhile_append_of_pos hfront, List.cons_append, List.dropWhile_cons_of_neg]
  rw [hcore c List.mem_cons_self]
  nofun

/-- Trimming leaves a text without blanks that has blanks around it. -/
theorem trim_append
    {front core back : List Char} (hfront : ∀ c ∈ front, isBlank c = true) (hne : core ≠ [])
    (hcore : ∀ c ∈ core, isBlank c = false) (hback : ∀ c ∈ back, isBlank c = true) :
  trim (front ++ (core ++ back)) = core
  := by
  have hend : (core ++ back).reverse.dropWhile isBlank = core.reverse := by
    rw [List.reverse_append, ← List.append_nil core.reverse]
    apply dropWhile_append
    · intro c hc
      exact hback c (List.mem_reverse.1 hc)
    · rwa [Ne, List.reverse_eq_nil_iff]
    · intro c hc
      exact hcore c (List.mem_reverse.1 hc)
  rw [trim, dropWhile_append hfront hne hcore, hend, List.reverse_reverse]

/-- A field is padded exactly when trimming leaves a text with the property, if the texts with the
property are not empty and have no blanks. -/
theorem padded_iff
    {P : List Char → Prop} (hP : ∀ core, P core → core ≠ [] ∧ ∀ c ∈ core, isBlank c = false)
    {field : List Char} :
  Padded P field ↔ P (trim field)
  := by
  constructor
  · rintro ⟨front, core, back, rfl, hfront, hcore, hback⟩
    obtain ⟨hne, hsolid⟩ := hP core hcore
    rwa [trim_append hfront hne hsolid hback]
  · intro h
    let rest := field.dropWhile isBlank
    use field.takeWhile isBlank, trim field, (rest.reverse.takeWhile isBlank).reverse
    refine ⟨?_, fun c => List.mem_takeWhile_imp, h, ?_⟩
    · rw [trim, ← List.reverse_append, List.takeWhile_append_dropWhile, List.reverse_reverse,
        List.takeWhile_append_dropWhile]
    · intro c hc
      exact List.mem_takeWhile_imp (List.mem_reverse.1 hc)

/-! ### Digits -/

/-- A text of one or more digits denotes a number. -/
inductive Digits : List Char → Nat → Prop where
  /-- One digit. -/
  | digit {c : Char} (hc : c.isDigit = true) : Digits [c] (c.toNat - '0'.toNat)
  /-- One more digit at the end. -/
  | concat {text : List Char} {n : Nat} {c : Char} (h : Digits text n) (hc : c.isDigit = true) :
    Digits (text ++ [c]) (10 * n + (c.toNat - '0'.toNat))

/-- A text that denotes a number is one of digits. -/
theorem Digits.isDigit {text : List Char} {n : Nat} (h : Digits text n) :
  ∀ c ∈ text, c.isDigit = true
  := by
  induction h with
  | digit hc =>
    intro d hd
    rwa [List.mem_singleton.1 hd]
  | concat _ hc ih =>
    rw [List.forall_mem_append, List.forall_mem_singleton]
    exact ⟨ih, hc⟩

/-- A text that denotes a number has a digit at its beginning. -/
theorem Digits.exists_cons {text : List Char} {n : Nat} (h : Digits text n) :
  ∃ c cs, text = c :: cs ∧ c.isDigit = true
  := by
  have hdigits := h.isDigit
  rcases text with _ | ⟨c, cs⟩
  · generalize hnil : [] = text at h
    cases h with
    | digit => cases hnil
    | concat => cases List.append_ne_nil_of_right_ne_nil _ (List.cons_ne_nil _ _) hnil.symm
  · exact ⟨c, cs, rfl, hdigits c List.mem_cons_self⟩

/-- The number that digits denote is the one that they are read as. -/
theorem Digits.eq_ofDigitChars {text : List Char} {n : Nat} (h : Digits text n) :
  Nat.ofDigitChars 10 text 0 = n
  := by
  induction h with
  | digit => exact Nat.zero_add _
  | concat _ _ ih =>
    rw [Nat.ofDigitChars_append, ih]
    rfl

/-- Digits denote the number that they are read as. -/
theorem digits_ofDigitChars {text : List Char} (hne : text ≠ [])
    (hdigits : ∀ c ∈ text, c.isDigit = true) :
  Digits text (Nat.ofDigitChars 10 text 0)
  := by
  induction text using List.reverseRecOn with
  | nil => exact absurd rfl hne
  | append_singleton text c ih =>
    rw [List.forall_mem_append, List.forall_mem_singleton] at hdigits
    rw [Nat.ofDigitChars_append]
    by_cases hnil : text = []
    · subst hnil
      have h := Digits.digit hdigits.2
      rw [← Nat.zero_add (c.toNat - '0'.toNat)] at h
      exact h
    · exact .concat (ih hnil hdigits.1) hdigits.2

/-- The reader of digits takes the texts of digits. -/
theorem readDigits?_eq_some_iff {text : List Char} {n : Nat} :
  readDigits? text = some n ↔ Digits text n
  := by
  unfold readDigits?
  constructor
  · intro h
    split_ifs at h with hdigits
    cases h
    exact digits_ofDigitChars hdigits.1 (List.all_eq_true.1 hdigits.2)
  · intro h
    obtain ⟨c, cs, hcons, -⟩ := h.exists_cons
    have hne : text ≠ [] := hcons ▸ List.cons_ne_nil c cs
    rw [if_pos ⟨hne, List.all_eq_true.2 h.isDigit⟩, h.eq_ofDigitChars]

/-! ### Signs -/

/-- A text denotes a natural number; there may be a plus sign. -/
inductive Unsigned : List Char → Nat → Prop where
  | bare {text : List Char} {n : Nat} (h : Digits text n) : Unsigned text n
  | plus {text : List Char} {n : Nat} (h : Digits text n) : Unsigned ('+' :: text) n

/-- A text denotes an integer; there may be a sign. -/
inductive Signed : List Char → Int → Prop where
  | bare {text : List Char} {n : Nat} (h : Digits text n) : Signed text n
  | plus {text : List Char} {n : Nat} (h : Digits text n) : Signed ('+' :: text) n
  | minus {text : List Char} {n : Nat} (h : Digits text n) : Signed ('-' :: text) (-n)

/-- The reader of unsigned numbers takes the texts that denote one. -/
theorem readUnsigned?_eq_some_iff {text : List Char} {n : Nat} :
  readUnsigned? text = some n ↔ Unsigned text n
  := by
  constructor
  · intro h
    unfold readUnsigned? at h
    split at h
    · exact .plus (readDigits?_eq_some_iff.1 h)
    · exact .bare (readDigits?_eq_some_iff.1 h)
  · intro h
    cases h with
    | bare h =>
      rw [← readDigits?_eq_some_iff.2 h]
      obtain ⟨c, cs, rfl, hc⟩ := h.exists_cons
      rw [readUnsigned?]
      rintro rest ⟨⟩
      cases hc
    | plus h => exact readDigits?_eq_some_iff.2 h

/-- The reader of signed numbers takes the texts that denote one. -/
theorem readSigned?_eq_some_iff {text : List Char} {n : Int} :
  readSigned? text = some n ↔ Signed text n
  := by
  constructor
  · intro h
    unfold readSigned? at h
    split at h
    · obtain ⟨m, hm, rfl⟩ := Option.map_eq_some_iff.1 h
      exact .plus (readDigits?_eq_some_iff.1 hm)
    · obtain ⟨m, hm, rfl⟩ := Option.map_eq_some_iff.1 h
      exact .minus (readDigits?_eq_some_iff.1 hm)
    · obtain ⟨m, hm, rfl⟩ := Option.map_eq_some_iff.1 h
      exact .bare (readDigits?_eq_some_iff.1 hm)
  · intro h
    cases h with
    | bare h =>
      have hread := readDigits?_eq_some_iff.2 h
      obtain ⟨c, cs, rfl, hc⟩ := h.exists_cons
      rw [readSigned?, hread]
      · rfl
      · rintro rest ⟨⟩
        cases hc
      · rintro rest ⟨⟩
        cases hc
    | plus h => rw [readSigned?, readDigits?_eq_some_iff.2 h]; rfl
    | minus h => rw [readSigned?, readDigits?_eq_some_iff.2 h]; rfl

/-- The reader of time stamps takes the texts that denote an unsigned 64-bit number. -/
theorem readStamp?_eq_some_iff {text : List Char} {stamp : UInt64} :
  readStamp? text = some stamp ↔ Unsigned text stamp.toNat
  := by
  rw [← readUnsigned?_eq_some_iff, readStamp?]
  rcases readUnsigned? text with _ | n
  · constructor
    · intro h
      cases h
    · intro h
      cases h
  · constructor
    · intro h
      dsimp only at h
      split_ifs at h
      cases h
      rfl
    · intro h
      obtain rfl := Option.some.inj h
      dsimp only
      rw [dif_pos stamp.toNat_lt, UInt64.ofNatLT_toNat]

/-- The reader of components takes the texts that denote a signed 32-bit number. -/
theorem readBlocks?_eq_some_iff {text : List Char} {n : Blocks} :
  readBlocks? text = some n ↔ Signed text n.1
  := by
  rw [← readSigned?_eq_some_iff, readBlocks?]
  rcases readSigned? text with _ | m
  · constructor
    · intro h
      cases h
    · intro h
      cases h
  · constructor
    · intro h
      dsimp only at h
      split_ifs at h
      cases h
      rfl
    · intro h
      obtain rfl := Option.some.inj h
      dsimp only
      rw [dif_pos n.2]

end IslandPlots.Text
