import IslandPlots.Proofs.Calendar.Date
import IslandPlots.Proofs.Text.Grammar

/-!
# Times in the logs

A moment is a date with a time of the day; it is shown by six numbers, of which all but the year
have two digits (`Moment.Shown`), and no text shows two moments (`Moment.Shown.unique`).  The text
in the logs shows the moment that is so many seconds after the beginning of 1970
(`Moment.calendar_exact`).
-/

namespace IslandPlots

/-- A date and a time of the day. -/
structure Moment where
  date : Date
  hour : Nat
  minute : Nat
  second : Nat

namespace Moment

/-- A moment of the calendar and of the day. -/
structure Proper (moment : Moment) : Prop where
  date : moment.date.Proper
  hour_lt : moment.hour < 24
  minute_lt : moment.minute < 60
  second_lt : moment.second < 60

/-- The number of seconds from the beginning of 1970 to a moment. -/
def seconds (moment : Moment) : Int :=
  86400 * moment.date.dayNumber + (3600 * moment.hour + 60 * moment.minute + moment.second)

/-- Two digits denote a number. -/
def TwoDigits (text : List Char) (n : Nat) : Prop :=
  Text.Digits text n ∧ text.length = 2

/-- A text shows a moment: the year with at least four characters, the month and the day with
hyphens between them, and after a space the hours, minutes and seconds with colons. -/
def Shown (moment : Moment) (text : List Char) : Prop :=
  ∃ year month day hour minute second : List Char,
    text = year ++ '-' :: (month ++ '-' :: (day ++ ' ' :: (hour ++ ':' :: (minute ++ ':' :: second))))
    ∧ Text.Signed year moment.date.year ∧ 4 ≤ year.length
    ∧ TwoDigits month moment.date.month ∧ TwoDigits day moment.date.day
    ∧ TwoDigits hour moment.hour ∧ TwoDigits minute moment.minute
    ∧ TwoDigits second moment.second

/-- Two digits denote one number. -/
theorem TwoDigits.unique {text : List Char} {n m : Nat} (h : TwoDigits text n)
    (h' : TwoDigits text m) :
  n = m
  := h.1.eq_ofDigitChars.symm.trans h'.1.eq_ofDigitChars

/-- No text shows two moments. -/
theorem Shown.unique {moment other : Moment} {text : List Char} (h : moment.Shown text)
    (h' : other.Shown text) :
  moment = other
  := by
  obtain ⟨year, month, day, hour, minute, second, rfl, hyear, -, hmonth, hday, hhour, hminute,
    hsecond⟩ := h
  obtain ⟨year', month', day', hour', minute', second', heq, hyear', -, hmonth', hday', hhour',
    hminute', hsecond'⟩ := h'
  -- All fields but the first have the same length in both.
  have hlength : year.length = year'.length := by
    have := congrArg List.length heq
    simp only [List.length_append, List.length_cons, hmonth.2, hday.2, hhour.2, hminute.2,
      hsecond.2, hmonth'.2, hday'.2, hhour'.2, hminute'.2, hsecond'.2] at this
    omega
  obtain ⟨rfl, hafter⟩ := List.append_inj heq hlength
  obtain ⟨rfl, hlater⟩ := List.append_inj (List.cons.inj hafter).2 (hmonth.2.trans hmonth'.2.symm)
  obtain ⟨rfl, hclock⟩ := List.append_inj (List.cons.inj hlater).2 (hday.2.trans hday'.2.symm)
  obtain ⟨rfl, hrest⟩ := List.append_inj (List.cons.inj hclock).2 (hhour.2.trans hhour'.2.symm)
  obtain ⟨rfl, hend⟩ := List.append_inj (List.cons.inj hrest).2 (hminute.2.trans hminute'.2.symm)
  obtain rfl := (List.cons.inj hend).2
  have hread := Text.readSigned?_eq_some_iff.2 hyear
  rw [Text.readSigned?_eq_some_iff.2 hyear'] at hread
  obtain ⟨⟨_, _, _⟩, _, _, _⟩ := moment
  obtain ⟨⟨_, _, _⟩, _, _, _⟩ := other
  cases hread
  cases hmonth.unique hmonth'
  cases hday.unique hday'
  cases hhour.unique hhour'
  cases hminute.unique hminute'
  cases hsecond.unique hsecond'
  rfl

/-! ### Padded numerals -/

/-- The characters of a padded numeral. -/
theorem toList_padded (width n : Nat) :
  (padded width n).toList
    = List.replicate (width - (Text.numeral n).length) '0' ++ Text.numeral n
  := by
  have hnumeral : (toString n).toList = Text.numeral n := by
    simp [Text.numeral]
  unfold padded
  rw [String.toList_append, String.toList_ofList, hnumeral, ← String.length_toList, hnumeral]

/-- A zero on the left does not change the number that digits denote. -/
theorem digits_zero {text : List Char} {n : Nat} (h : Text.Digits text n) :
  Text.Digits ('0' :: text) n
  := by
  induction h with
  | digit hc =>
    have hzero : Text.Digits ['0'] 0 := .digit rfl
    have htwo := hzero.concat hc
    rw [Nat.mul_zero, Nat.zero_add] at htwo
    exact htwo
  | concat _ hc ih => exact ih.concat hc

/-- A padded numeral denotes its number. -/
theorem digits_padded (width n : Nat) :
  Text.Digits (padded width n).toList n
  := by
  rw [toList_padded]
  generalize width - (Text.numeral n).length = k
  induction k with
  | zero => exact Text.readDigits?_eq_some_iff.1 (Text.readDigits?_numeral n)
  | succ k ih => exact digits_zero ih

/-- A padded numeral is as long as the width or longer. -/
theorem length_padded (width n : Nat) :
  (padded width n).toList.length = max width (Text.numeral n).length
  := by
  rw [toList_padded, List.length_append, List.length_replicate]
  omega

/-- Numbers below a hundred have two digits. -/
theorem twoDigits_padded {n : Nat} (h : n < 100) :
  TwoDigits (padded 2 n).toList n
  := by
  have hlength : (Text.numeral n).length ≤ 2 :=
    (Nat.length_toDigits_le_iff (by decide) (by decide)).2 h
  refine ⟨digits_padded 2 n, ?_⟩
  rw [length_padded]
  omega

/-- The numeral of a year denotes the year. -/
theorem signed_yearText (year : Int) :
  Text.Signed (yearText year).toList year ∧ 4 ≤ (yearText year).toList.length
  := by
  unfold yearText
  split_ifs with hneg
  · rw [String.toList_append]
    have hyear : year = -(year.natAbs : Int) := by
      omega
    constructor
    · have := Text.Signed.minus (digits_padded 3 year.natAbs)
      rw [← hyear] at this
      exact this
    · rw [List.length_append, length_padded]
      change 4 ≤ 1 + _
      omega
  · have hyear : year = (year.natAbs : Int) := by
      omega
    constructor
    · have := Text.Signed.bare (digits_padded 4 year.natAbs)
      rw [← hyear] at this
      exact this
    · rw [length_padded]
      omega

/-! ### The time of a text -/

/-- The moment a number of seconds after the beginning of 1970. -/
def ofSeconds (seconds : Nat) : Moment where
  date := Date.ofDays (seconds / 86400 : Nat)
  hour := seconds % 86400 / 3600
  minute := seconds % 86400 % 3600 / 60
  second := seconds % 86400 % 60

/-- The moment of a number of seconds is one of the calendar and of the day. -/
theorem proper_ofSeconds (seconds : Nat) :
  (ofSeconds seconds).Proper
  := by
  refine ⟨Date.proper_ofDays _, ?_, ?_, ?_⟩ <;> unfold ofSeconds <;> dsimp only <;> omega

/-- The moment of a number of seconds is that many seconds after the beginning of 1970. -/
theorem seconds_ofSeconds (seconds : Nat) :
  (ofSeconds seconds).seconds = seconds
  := by
  unfold Moment.seconds ofSeconds
  rw [Date.dayNumber_ofDays]
  dsimp only
  omega

/-- The text of a time shows its moment, if the year is a signed 32-bit number. -/
theorem shown_timeText {seconds : Int} (h : Fits (ofSeconds seconds.toNat).date.year) :
  (ofSeconds seconds.toNat).Shown (timeText seconds).toList
  := by
  unfold timeText
  generalize seconds.toNat = n at h ⊢
  obtain ⟨hdate, hhour, hminute, hsecond⟩ := proper_ofSeconds n
  have hlength := Date.monthLength_le (ofSeconds n).date.year (ofSeconds n).date.month
  obtain ⟨hyear, hfour⟩ := signed_yearText (ofSeconds n).date.year
  have hday : (Date.ofDays (n / 86400 : Nat)).wrapYear = (ofSeconds n).date :=
    Date.wrapYear_of_fits h
  have hclock : n % 86400 / 3600 = (ofSeconds n).hour
      ∧ n % 86400 % 3600 / 60 = (ofSeconds n).minute
      ∧ n % 86400 % 60 = (ofSeconds n).second := ⟨rfl, rfl, rfl⟩
  dsimp only
  rw [hday, hclock.1, hclock.2.1, hclock.2.2]
  refine ⟨_, _, _, _, _, _, ?_, hyear, hfour, twoDigits_padded ?_, twoDigits_padded ?_,
    twoDigits_padded ?_, twoDigits_padded ?_, twoDigits_padded ?_⟩
  · have hhyphen (rest : List Char) : "-".toList ++ rest = '-' :: rest := rfl
    have hspace (rest : List Char) : " ".toList ++ rest = ' ' :: rest := rfl
    have hcolon (rest : List Char) : ":".toList ++ rest = ':' :: rest := rfl
    simp only [toString, String.toList_append, List.append_assoc]
    rw [hhyphen, hhyphen, hspace, hcolon, hcolon]
  · exact Nat.lt_of_le_of_lt hdate.month_le (by decide)
  · exact Nat.lt_of_le_of_lt (hdate.day_le.trans hlength) (by decide)
  · exact hhour.trans (by decide)
  · exact hminute.trans (by decide)
  · exact hsecond.trans (by decide)

/-- Dates follow the Gregorian calendar, on both sides of 1970.  If the year in which a day lies is a
signed 32-bit number, the date of the day has this year, a month of the twelve and a day within the
length of the month, and the number of days from the first of January 1970 to this date is that of
the day.  The text of a time shows, if the year is in the same range, a date and a time of the day
that are exactly so many seconds after the beginning of 1970, or at this beginning for times before
it. -/
theorem calendar_exact :
  (∀ days year, Date.InYear days year → Fits year →
      (Date.ofDays days).wrapYear.year = year
      ∧ (Date.ofDays days).wrapYear.Proper
      ∧ (Date.ofDays days).wrapYear.dayNumber = days)
    ∧ ∀ seconds year, Date.InYear (max seconds 0 / 86400) year → Fits year →
      ∃ moment : Moment, moment.date.year = year
        ∧ moment.Proper
        ∧ moment.seconds = max seconds 0
        ∧ moment.Shown (timeText seconds).toList
  := by
  constructor
  · intro days year hin hfits
    have hyear := Date.year_ofDays hin
    rw [Date.wrapYear_of_fits (hyear ▸ hfits)]
    exact ⟨hyear, Date.proper_ofDays days, Date.dayNumber_ofDays days⟩
  · intro seconds year hin hfits
    have hnat : max seconds 0 = seconds.toNat := by
      omega
    rw [hnat] at hin ⊢
    have hyear : (ofSeconds seconds.toNat).date.year = year := Date.year_ofDays hin
    exact ⟨ofSeconds seconds.toNat, hyear, proper_ofSeconds _, seconds_ofSeconds _,
      shown_timeText (hyear ▸ hfits)⟩

/-- The last day of 1969, and the last second of a leap day. -/
theorem calendar_exact_leap_day :
  (Date.InYear (-1) 1969 ∧ Fits 1969 ∧ (Date.ofDays (-1)).wrapYear = ⟨1969, 12, 31⟩
      ∧ (⟨1969, 12, 31⟩ : Date).dayNumber = -1)
    ∧ Date.InYear (max 951868799 0 / 86400) 2000 ∧ Fits 2000
    ∧ timeText 951868799 = "2000-02-29 23:59:59"
    ∧ ∃ moment : Moment, moment.date.year = 2000
      ∧ moment.Proper
      ∧ moment.seconds = 951868799
      ∧ moment.Shown (timeText 951868799).toList
  := by
  have hbefore : Date.InYear (-1) 1969 := by
    decide +kernel
  have hleap : Date.InYear (max 951868799 0 / 86400) 2000 := by
    decide +kernel
  have hfits : Fits 1969 := by
    decide
  have hfits' : Fits 2000 := by
    decide
  have hdate : (Date.ofDays (-1)).wrapYear = ⟨1969, 12, 31⟩ := by
    decide +kernel
  obtain ⟨-, -, hnumber⟩ := calendar_exact.1 (-1) 1969 hbefore hfits
  rw [hdate] at hnumber
  exact ⟨⟨hbefore, hfits, hdate, hnumber⟩, hleap, hfits', by decide +kernel,
    calendar_exact.2 951868799 2000 hleap hfits'⟩

end Moment

end IslandPlots
