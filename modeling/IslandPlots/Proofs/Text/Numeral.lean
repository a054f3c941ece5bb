import IslandPlots.Text.Blank
import IslandPlots.Text.Numeral

/-!
# Reading back written numerals

The numeral of a number is read as the number (`readStamp?_numeral`,
`readBlocks?_signedNumeral`), and it consists of signs and digits only, so it holds none of
the characters that structure a record.
-/

namespace IslandPlots.Text

/-! ### Characters that need no trimming -/

/-- A text without blanks is not changed by trimming. -/
theorem trim_of_not_blank {text : List Char} (h : ∀ c ∈ text, isBlank c = false) :
  trim text = text
  := by
  have hdrop : ∀ cs : List Char, (∀ c ∈ cs, isBlank c = false) → cs.dropWhile isBlank = cs := by
    intro cs hcs
    cases cs with
    | nil => rfl
    | cons c cs => rw [List.dropWhile_cons_of_neg]; simp [hcs c List.mem_cons_self]
  rw [trim, hdrop text h, hdrop, List.reverse_reverse]
  intro c hc
  exact h c (List.mem_reverse.1 hc)

/-- A digit is not blank. -/
theorem isBlank_of_isDigit {c : Char} (h : c.isDigit = true) :
  isBlank c = false
  := by
  obtain ⟨hl, hu⟩ := Char.isDigit_iff_toNat.1 h
  have hzero : '0'.toNat = 0x30 := rfl
  have hnine : '9'.toNat = 0x39 := rfl
  simp only [isBlank, Bool.or_eq_false_iff, Bool.and_eq_false_iff, decide_eq_false_iff_not,
    beq_eq_false_iff_ne]
  omega

/-! ### Natural numbers -/

/-- A numeral consists of digits. -/
theorem isDigit_of_mem_numeral {n : Nat} {c : Char} (h : c ∈ numeral n) :
  c.isDigit = true
  := Nat.isDigit_of_mem_toDigits (by decide) (by decide) h

/-- Digits are read as the number they denote. -/
@[simp]
theorem readDigits?_numeral (n : Nat) :
  readDigits? (numeral n) = some n
  := by
  unfold readDigits?
  rw [if_pos]
  · exact congrArg some Nat.ofDigitChars_ten_toDigits
  · constructor
    · exact Nat.toDigits_ne_nil
    · rw [List.all_eq_true]
      intro c hc
      exact isDigit_of_mem_numeral hc

/-- A numeral does not begin with a sign. -/
theorem numeral_eq_cons (n : Nat) :
  ∃ c cs, numeral n = c :: cs ∧ c ≠ '+' ∧ c ≠ '-'
  := by
  obtain ⟨c, cs, h⟩ := List.exists_cons_of_ne_nil (Nat.toDigits_ne_nil (n := n) (b := 10))
  have hdigit : c.isDigit = true := isDigit_of_mem_numeral (h ▸ List.mem_cons_self)
  refine ⟨c, cs, h, ?_, ?_⟩ <;> rintro rfl <;> cases hdigit

/-- The numeral of a time stamp is read as the time stamp. -/
@[simp]
theorem readStamp?_numeral (stamp : UInt64) :
  readStamp? (numeral stamp.toNat) = some stamp
  := by
  have hread : readUnsigned? (numeral stamp.toNat) = some stamp.toNat := by
    obtain ⟨c, cs, h, hplus, -⟩ := numeral_eq_cons stamp.toNat
    rw [← readDigits?_numeral, h, readUnsigned?]
    rintro text ⟨⟩
    exact hplus rfl
  rw [readStamp?, hread]
  simp only
  rw [dif_pos stamp.toNat_lt]
  simp

/-! ### Integers -/

/-- The numeral of an integer is read as the integer. -/
theorem readSigned?_signedNumeral (n : Int) :
  readSigned? (signedNumeral n) = some n
  := by
  cases n with
  | ofNat n =>
    obtain ⟨c, cs, h, hplus, hminus⟩ := numeral_eq_cons n
    have hread : readSigned? (numeral n) = (readDigits? (numeral n)).map Int.ofNat := by
      rw [h, readSigned?]
      · rintro text ⟨⟩
        exact hplus rfl
      · rintro text ⟨⟩
        exact hminus rfl
    rw [signedNumeral, hread, readDigits?_numeral]
    rfl
  | negSucc n =>
    rw [signedNumeral, readSigned?, readDigits?_numeral]
    rfl

/-- The numeral of a 32-bit number is read as the number. -/
@[simp]
theorem readBlocks?_signedNumeral {n : Int} (h : Fits n) :
  readBlocks? (signedNumeral n) = some ⟨n, h⟩
  := by
  rw [readBlocks?, readSigned?_signedNumeral]
  simp only
  rw [dif_pos h]

/-- The numeral of an integer consists of digits and a minus sign. -/
theorem mem_signedNumeral {n : Int} {c : Char} (h : c ∈ signedNumeral n) :
  c = '-' ∨ c.isDigit = true
  := by
  cases n with
  | ofNat n => exact .inr (isDigit_of_mem_numeral h)
  | negSucc n =>
    rcases List.mem_cons.1 h with rfl | h
    · exact .inl rfl
    · exact .inr (isDigit_of_mem_numeral h)

end IslandPlots.Text
