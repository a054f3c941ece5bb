import IslandPlots.Calendar
import IslandPlots.Coord
import Mathlib.Tactic.IntervalCases
import Mathlib.Tactic.SplitIfs
import Mathlib.Tactic.Use

/-!
# The Gregorian calendar

The calendar by its rules, without eras and without years that begin in March: every fourth year is a
leap year, except for the centuries that four hundred does not divide, and the number of a day counts
the days of all the years and months since the beginning of 1970, backwards for the days before it
(`Date.dayNumber`).  Each day is that of one proper date (`Date.existsUnique`), and `Date.ofDays`
finds it (`Date.proper_ofDays`, `Date.dayNumber_ofDays`).
-/

namespace IslandPlots

namespace Date

/-! ### Years -/

/-- A leap year. -/
def IsLeap (year : Int) : Prop :=
  4 ∣ year ∧ (100 ∣ year → 400 ∣ year)

instance (year : Int) : Decidable (IsLeap year) :=
  inferInstanceAs (Decidable (4 ∣ year ∧ (100 ∣ year → 400 ∣ year)))

/-- The number of days of a year. -/
def yearLength (year : Int) : Int :=
  if IsLeap year then 366 else 365

/-- The days of a year beyond 365, by the multiples of four, a hundred and four hundred that it
passes. -/
theorem yearLength_eq (year : Int) :
  yearLength year
    = 365 + (year / 4 - (year - 1) / 4) - (year / 100 - (year - 1) / 100)
      + (year / 400 - (year - 1) / 400)
  := by
  have hfour : year / 4 - (year - 1) / 4 = if 4 ∣ year then 1 else 0 := by
    split_ifs <;> omega
  have hcentury : year / 100 - (year - 1) / 100 = if 100 ∣ year then 1 else 0 := by
    split_ifs <;> omega
  have hera : year / 400 - (year - 1) / 400 = if 400 ∣ year then 1 else 0 := by
    split_ifs <;> omega
  rw [hfour, hcentury, hera, yearLength]
  unfold IsLeap
  split_ifs <;> omega

/-- The number of days of a number of years, from a year on. -/
def daysOfYears (first : Int) : Nat → Int
  | 0 => 0
  | n + 1 => yearLength first + daysOfYears (first + 1) n

/-- One more year at the end. -/
theorem daysOfYears_concat (first : Int) (n : Nat) :
  daysOfYears first (n + 1) = daysOfYears first n + yearLength (first + n)
  := by
  induction n generalizing first with
  | zero =>
    change yearLength first + 0 = 0 + yearLength (first + 0)
    rw [Int.add_zero, Int.add_zero, Int.zero_add]
  | succ n ih =>
    have hnext : first + 1 + n = first + (n + 1 : Nat) := by
      omega
    rw [daysOfYears, ih, hnext, ← Int.add_assoc, ← daysOfYears]

/-- The number of days from the beginning of 1970 to the beginning of a year; it is negative for the
years before. -/
def daysBeforeYear (year : Int) : Int :=
  daysOfYears 1970 (year - 1970).toNat - daysOfYears year (1970 - year).toNat

/-- A year begins when the year before it has ended. -/
theorem daysBeforeYear_succ (year : Int) :
  daysBeforeYear (year + 1) = daysBeforeYear year + yearLength year
  := by
  unfold daysBeforeYear
  rcases Int.lt_or_le year 1970 with hlt | hge
  · have hnone : (year - 1970).toNat = 0 := by
      omega
    have hnone' : (year + 1 - 1970).toNat = 0 := by
      omega
    have hfewer : (1970 - year).toNat = (1970 - (year + 1)).toNat + 1 := by
      omega
    rw [hnone, hnone', hfewer, daysOfYears, daysOfYears]
    omega
  · have hnone : (1970 - year).toNat = 0 := by
      omega
    have hnone' : (1970 - (year + 1)).toNat = 0 := by
      omega
    have hmore : (year + 1 - 1970).toNat = (year - 1970).toNat + 1 := by
      omega
    have hyear : (1970 : Int) + (year - 1970).toNat = year := by
      omega
    rw [hnone, hnone', hmore, daysOfYears_concat, hyear, daysOfYears, daysOfYears]
    omega

/-- The number of days before a year, counted by the leap years among the earlier ones. -/
theorem daysBeforeYear_eq (year : Int) :
  daysBeforeYear year
    = 365 * year + (year - 1) / 4 - (year - 1) / 100 + (year - 1) / 400 - 719527
  := by
  refine Int.inductionOn' year 1970 rfl (fun year _ ih => ?_) (fun year _ ih => ?_)
  · rw [daysBeforeYear_succ, yearLength_eq, ih, Int.add_sub_cancel]
    omega
  · have hnext := daysBeforeYear_succ (year - 1)
    rw [yearLength_eq, Int.sub_add_cancel, ih] at hnext
    omega

/-- Years follow one another. -/
theorem daysBeforeYear_le {year other : Int} (h : year ≤ other) :
  daysBeforeYear year ≤ daysBeforeYear other
  := by
  rw [daysBeforeYear_eq, daysBeforeYear_eq]
  omega

/-- A day lies in a year. -/
def InYear (days year : Int) : Prop :=
  daysBeforeYear year ≤ days ∧ days < daysBeforeYear (year + 1)

instance (days year : Int) : Decidable (InYear days year) :=
  inferInstanceAs (Decidable (_ ∧ _))

/-- A day lies in one year only. -/
theorem InYear.unique {days year other : Int} (h : InYear days year) (h' : InYear days other) :
  year = other
  := by
  rcases Int.lt_trichotomy year other with hlt | heq | hgt
  · have := daysBeforeYear_le (Int.add_one_le_of_lt hlt)
    have := h.2
    have := h'.1
    omega
  · exact heq
  · have := daysBeforeYear_le (Int.add_one_le_of_lt hgt)
    have := h'.2
    have := h.1
    omega

/-! ### Months -/

/-- The number of days of a month. -/
def monthLength (year : Int) (month : Nat) : Nat :=
  if month = 2 then if IsLeap year then 29 else 28
  else if month = 4 ∨ month = 6 ∨ month = 9 ∨ month = 11 then 30 else 31

/-- No month has more than 31 days. -/
theorem monthLength_le (year : Int) (month : Nat) :
  monthLength year month ≤ 31
  := by
  unfold monthLength
  split_ifs <;> decide

/-- The number of days from the beginning of a year to the beginning of a month. -/
def daysBeforeMonth (year : Int) : Nat → Nat
  | 0 => 0
  | 1 => 0
  | month + 2 => daysBeforeMonth year (month + 1) + monthLength year (month + 1)

/-- A month begins when the month before it has ended. -/
theorem daysBeforeMonth_succ (year : Int) {month : Nat} (h : 1 ≤ month) :
  daysBeforeMonth year (month + 1) = daysBeforeMonth year month + monthLength year month
  := by
  obtain ⟨earlier, rfl⟩ := Nat.exists_eq_add_of_le' h
  rw [daysBeforeMonth]

/-- Months follow one another. -/
theorem daysBeforeMonth_le (year : Int) {month other : Nat} (hpos : 1 ≤ month)
    (h : month ≤ other) :
  daysBeforeMonth year month ≤ daysBeforeMonth year other
  := by
  induction h with
  | refl => exact Nat.le_refl _
  | step hle ih =>
    rw [Nat.succ_eq_add_one, daysBeforeMonth_succ year (hpos.trans hle)]
    exact Nat.le_add_right_of_le ih

/-- The first two months of a year. -/
theorem daysBeforeMonth_three (year : Int) :
  (daysBeforeMonth year 3 : Int) = yearLength year - 306
  := by
  have hfebruary : daysBeforeMonth year 3 = 31 + if IsLeap year then 29 else 28 := rfl
  rw [hfebruary, yearLength]
  split_ifs <;> rfl

/-- The twelve months make up the year. -/
theorem daysBeforeMonth_thirteen (year : Int) :
  (daysBeforeMonth year 13 : Int) = yearLength year
  := by
  have hmarch : daysBeforeMonth year 13 = daysBeforeMonth year 3 + 306 := rfl
  rw [hmarch, Int.natCast_add, daysBeforeMonth_three]
  exact Int.sub_add_cancel _ _

/-! ### Days -/

/-- A date of the calendar: there are twelve months, and a month has no more days than its length. -/
structure Proper (date : Date) : Prop where
  month_pos : 1 ≤ date.month
  month_le : date.month ≤ 12
  day_pos : 1 ≤ date.day
  day_le : date.day ≤ monthLength date.year date.month

/-- The number of days from the first of January 1970 to a date. -/
def dayNumber (date : Date) : Int :=
  daysBeforeYear date.year + daysBeforeMonth date.year date.month + (date.day - 1)

/-- A proper date lies in its year. -/
theorem Proper.inYear {date : Date} (h : date.Proper) :
  InYear date.dayNumber date.year
  := by
  have hmonths : daysBeforeMonth date.year (date.month + 1) ≤ daysBeforeMonth date.year 13 :=
    daysBeforeMonth_le date.year (Nat.le_add_left 1 _) (Nat.succ_le_succ h.month_le)
  have hmonth := daysBeforeMonth_succ date.year h.month_pos
  have hyear := daysBeforeMonth_thirteen date.year
  have hday := h.day_le
  have hpos := h.day_pos
  rw [InYear, daysBeforeYear_succ, dayNumber]
  omega

/-- No two proper dates have the same number. -/
theorem Proper.eq_of_dayNumber
    {date other : Date} (h : date.Proper) (hother : other.Proper)
    (heq : date.dayNumber = other.dayNumber) :
  date = other
  := by
  obtain ⟨year, month, day⟩ := date
  obtain ⟨year', month', day'⟩ := other
  obtain rfl : year = year' := by
    apply h.inYear.unique
    rw [heq]
    exact hother.inYear
  have hmonth := daysBeforeMonth_succ year h.month_pos
  have hmonth' := daysBeforeMonth_succ year hother.month_pos
  have hpos := h.day_pos
  have hpos' := hother.day_pos
  have hle := h.day_le
  have hle' := hother.day_le
  dsimp only [dayNumber] at *
  obtain rfl : month = month' := by
    rcases Nat.lt_trichotomy month month' with hlt | heq | hgt
    · have := daysBeforeMonth_le year (Nat.le_add_left 1 month) hlt
      omega
    · exact heq
    · have := daysBeforeMonth_le year (Nat.le_add_left 1 month') hgt
      omega
  obtain rfl : day = day' := by
    omega
  rfl

/-! ### Years that begin in March -/

/-- The day number of the first of March. -/
def firstOfMarch (year : Int) : Int :=
  365 * year + year / 4 - year / 100 + year / 400 - epoch

/-- The first of March is the day after the last one of February. -/
theorem firstOfMarch_eq (year : Int) :
  firstOfMarch year = daysBeforeYear year + daysBeforeMonth year 3
  := by
  rw [daysBeforeMonth_three, daysBeforeYear_eq, yearLength_eq, firstOfMarch, epoch]
  omega

/-- The first of March comes 306 days before the end of its year. -/
theorem daysBeforeYear_add_one (year : Int) :
  daysBeforeYear (year + 1) = firstOfMarch year + 306
  := by
  rw [daysBeforeYear_eq, Int.add_sub_cancel, firstOfMarch, epoch]
  omega

/-- The date that comes a number of days after the first of March of a year. -/
def ofMarch (year : Int) (days : Nat) : Date :=
  let monthFromMarch := (5 * days + 2) / 153
  let day := days - (153 * monthFromMarch + 2) / 5 + 1
  let month := if monthFromMarch < 10 then monthFromMarch + 3 else monthFromMarch - 9
  { year := year + (if month ≤ 2 then 1 else 0), month, day }

/-- The lengths of the months from March to December. -/
theorem monthLength_of_march (year : Int) {n : Nat} (h : n < 10) :
  monthLength year (n + 3) + (153 * n + 2) / 5 = (153 * (n + 1) + 2) / 5
  := by
  interval_cases n <;> rfl

/-- The months from March to December begin at regular distances. -/
theorem daysBeforeMonth_of_march (year : Int) {n : Nat} (h : n < 10) :
  daysBeforeMonth year (n + 3) = daysBeforeMonth year 3 + (153 * n + 2) / 5
  := by
  induction n with
  | zero => rfl
  | succ n ih =>
    have hlength := monthLength_of_march year (Nat.lt_of_succ_lt h)
    rw [Nat.add_right_comm, daysBeforeMonth_succ year (by omega), ih (Nat.lt_of_succ_lt h)]
    omega

section

variable {year : Int} {days : Nat} (h : days ≤ 365) (hleap : days = 365 → IsLeap (year + 1))

include h hleap

/-- The date after a number of days is one of the calendar, and these are the days since the first
of March. -/
theorem ofMarch_spec :
  (ofMarch year days).Proper ∧ (ofMarch year days).dayNumber = firstOfMarch year + days
  := by
  unfold ofMarch
  generalize hn : (5 * days + 2) / 153 = n
  rcases Nat.lt_or_ge n 10 with hlt | hge
  · have hlength := monthLength_of_march year hlt
    have hbefore := daysBeforeMonth_of_march year hlt
    have hmonth : ¬ n + 3 ≤ 2 := by omega
    simp only [hlt, hmonth, if_true, if_false, Int.add_zero]
    constructor
    · constructor <;> dsimp only <;> omega
    · rw [dayNumber, firstOfMarch_eq]
      dsimp only
      omega
  · -- January and February belong to the next year of the calendar.
    obtain rfl | rfl : n = 10 ∨ n = 11 := by omega
    · have hjanuary : monthLength (year + 1) 1 = 31 := rfl
      have hbefore : daysBeforeMonth (year + 1) 1 = 0 := rfl
      have hstart := daysBeforeYear_add_one year
      constructor
      · constructor <;> dsimp <;> omega
      · rw [dayNumber]
        dsimp
        omega
    · have hfebruary : monthLength (year + 1) 2 = if IsLeap (year + 1) then 29 else 28 := rfl
      have hbefore : daysBeforeMonth (year + 1) 2 = 31 := rfl
      have hstart := daysBeforeYear_add_one year
      have hlength : days < 337 + monthLength (year + 1) 2 := by
        rw [hfebruary]
        split_ifs with hyear
        · omega
        · have : days ≠ 365 := fun hlast => hyear (hleap hlast)
          omega
      constructor
      · constructor <;> dsimp <;> omega
      · rw [dayNumber]
        dsimp
        omega

end

/-! ### Eras -/

/-- A day of an era of 400 years comes after a number of centuries, groups of four years, years and
days.  A century has no 29th of February at its end, unless it is the last one. -/
structure Split (dayOfEra centuries groups years days : Nat) : Prop where
  sum : dayOfEra = 36524 * centuries + 1461 * groups + 365 * years + days
  centuries_le : centuries ≤ 3
  groups_le : groups ≤ 24
  years_le : years ≤ 3
  days_le : days ≤ 365
  leap : days = 365 → years = 3 ∧ (groups = 24 → centuries = 3)

/-- Every day of an era is found in this way. -/
theorem exists_split {n : Nat} (h : n < 146097) :
  ∃ centuries groups years days, Split n centuries groups years days
  := by
  let c := min (n / 36524) 3
  let q := (n - 36524 * c) / 1461
  let r := min ((n - 36524 * c - 1461 * q) / 365) 3
  use c, q, r, n - 36524 * c - 1461 * q - 365 * r
  have hcentury : c ≤ 3 ∧ 36524 * c ≤ n ∧ n - 36524 * c ≤ 36524
      ∧ (n - 36524 * c = 36524 → c = 3) := by
    omega
  have hgroup : q ≤ 24 ∧ 1461 * q ≤ n - 36524 * c ∧ n - 36524 * c - 1461 * q ≤ 1460 := by
    omega
  constructor <;> omega

section

variable {n c q r d : Nat} (h : Split n c q r d)

include h

/-- The year of a day of an era. -/
theorem Split.yearOfEra_eq :
  yearOfEra n = 100 * c + 4 * q + r
  := by
  obtain ⟨rfl, hc, hq, hr, hd, hleap⟩ := h
  unfold yearOfEra
  generalize hn : 36524 * c + 1461 * q + 365 * r + d = n
  have hcentury : n < 36524 * (c + 1) ∨ c = 3 ∧ n = 146096 := by
    omega
  have hcenturies : n / 36524 = c + n / 146096 := by
    rcases hcentury with hwithin | ⟨rfl, rfl⟩
    · have hfour : n < 146096 := by
        omega
      rw [Nat.div_eq_of_lt hfour, Nat.add_zero]
      omega
    · rfl
  -- The quotient counts the 29ths of February, and one too many on the last days of a year.
  have hgroups : n / 1460 = 25 * c + q ∨ n / 1460 = 25 * c + q + 1 ∧ 0 < d := by
    omega
  omega

/-- The year of a day of an era ends on its 365th day, or on the day after it if it is a leap
year. -/
theorem Split.isLeap (era : Int) (hd : d = 365) :
  IsLeap ((100 * c + 4 * q + r : Nat) + era * 400 + 1)
  := by
  obtain ⟨hr, hlast⟩ := h.leap hd
  have hgroup := h.groups_le
  unfold IsLeap
  omega

/-- The days of an era before the year of one of its days. -/
theorem Split.dayOfYear_eq :
  n - (365 * yearOfEra n + yearOfEra n / 4 - yearOfEra n / 100) = d
  := by
  rw [h.yearOfEra_eq]
  obtain ⟨rfl, hc, hq, hr, -, -⟩ := h
  omega

end

/-! ### The date of a day -/

/-- The date of a day is found from the first of March before it. -/
theorem exists_ofMarch (days : Int) :
  ∃ (year : Int) (dayOfYear : Nat), dayOfYear ≤ 365 ∧ (dayOfYear = 365 → IsLeap (year + 1))
    ∧ days = firstOfMarch year + dayOfYear ∧ ofDays days = ofMarch year dayOfYear
  := by
  have hn : ((days + epoch) % daysPerEra).toNat < 146097 := by
    unfold daysPerEra
    omega
  obtain ⟨c, q, r, d, h⟩ := exists_split hn
  use (100 * c + 4 * q + r : Nat) + (days + epoch) / daysPerEra * 400, d
  refine ⟨h.days_le, h.isLeap _, ?_, ?_⟩
  · obtain ⟨hsum, hc, hq, hr, -, -⟩ := h
    unfold firstOfMarch
    unfold daysPerEra at *
    omega
  · rw [ofDays, h.dayOfYear_eq, h.yearOfEra_eq]
    rfl

/-- The date of a day is one of the calendar. -/
theorem proper_ofDays (days : Int) :
  (ofDays days).Proper
  := by
  obtain ⟨year, dayOfYear, hle, hleap, -, heq⟩ := exists_ofMarch days
  rw [heq]
  exact (ofMarch_spec hle hleap).1

/-- The number of a day is that of its date. -/
theorem dayNumber_ofDays (days : Int) :
  (ofDays days).dayNumber = days
  := by
  obtain ⟨year, dayOfYear, hle, hleap, hdays, heq⟩ := exists_ofMarch days
  rw [heq, hdays]
  exact (ofMarch_spec hle hleap).2

/-- Every day is that of one date of the calendar. -/
theorem existsUnique (days : Int) :
  ∃! date : Date, date.Proper ∧ date.dayNumber = days
  := by
  refine ⟨ofDays days, ⟨proper_ofDays days, dayNumber_ofDays days⟩, ?_⟩
  rintro date ⟨hproper, hnumber⟩
  apply hproper.eq_of_dayNumber (proper_ofDays days)
  rw [hnumber, dayNumber_ofDays]

/-- A day has a date of the year in which it lies. -/
theorem year_ofDays {days year : Int} (h : InYear days year) :
  (ofDays days).year = year
  := by
  have hin := (proper_ofDays days).inYear
  rw [dayNumber_ofDays] at hin
  exact hin.unique h

/-- A year that is a signed 32-bit number does not wrap around. -/
theorem wrapYear_of_fits {date : Date} (h : Fits date.year) :
  date.wrapYear = date
  := by
  unfold Fits at h
  rw [wrapYear, Int.bmod_eq_of_le (by omega) (by omega)]

end Date

end IslandPlots
