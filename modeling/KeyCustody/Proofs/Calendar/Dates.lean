import Mathlib.Data.Int.Init
import Mathlib.Tactic.SplitIfs
import KeyCustody.Calendar

namespace KeyCustody.Calendar

/-! # The calendar, day by day

Dates are told by the rules of the Gregorian calendar alone: the lengths of the months, and leap
days by fours, hundreds and four hundreds of years. Walking from the start of 1970 by these rules,
on and back, comes on each day to the date that is computed for it, and on no other. -/

def IsLeap (year : Int) : Prop := year % 4 = 0 ∧ (year % 100 ≠ 0 ∨ year % 400 = 0)

instance (year : Int) : Decidable (IsLeap year) := inferInstanceAs (Decidable (_ ∧ _))

def monthLength (year month : Int) : Int :=
  if month = 2 then if IsLeap year then 29 else 28
  else if month = 4 ∨ month = 6 ∨ month = 9 ∨ month = 11 then 30
  else 31

structure Date.Valid (date : Date) : Prop where
  month : 1 ≤ date.month ∧ date.month ≤ 12
  day : 1 ≤ date.day ∧ date.day ≤ monthLength date.year date.month

/-- The date of the day after. -/
def Date.next (date : Date) : Date :=
  if date.day < monthLength date.year date.month then { date with day := date.day + 1 }
  else if date.month < 12 then ⟨date.year, date.month + 1, 1⟩
  else ⟨date.year + 1, 1, 1⟩

/-- The date of a day, found by walking from the start of 1970. -/
inductive Dated : Int → Date → Prop where
  | start : Dated 0 ⟨1970, 1, 1⟩
  | next {day : Int} {date : Date} (dated : Dated day date) : Dated (day + 1) date.next
  | back {day : Int} {date : Date} (valid : date.Valid) (dated : Dated (day + 1) date.next) :
      Dated day date

variable {date : Date} {month : Int}

theorem monthLength_bounds (year month : Int) :
    28 ≤ monthLength year month ∧ monthLength year month ≤ 31 := by
  unfold monthLength
  split_ifs <;> decide

namespace Date

theorem one_le_monthLength (year month : Int) : 1 ≤ monthLength year month :=
  Int.le_trans (by decide) (monthLength_bounds year month).1

theorem valid_first (year : Int) (first : 1 ≤ month) (last : month ≤ 12) :
    Valid ⟨year, month, 1⟩ :=
  ⟨⟨first, last⟩, Int.le_refl 1, one_le_monthLength year month⟩

theorem valid_last (year : Int) (first : 1 ≤ month) (last : month ≤ 12) :
    Valid ⟨year, month, monthLength year month⟩ :=
  ⟨⟨first, last⟩, one_le_monthLength year month, Int.le_refl _⟩

/-- All that a step does: it goes on within a month, to the next month or to the next year. -/
theorem Valid.next_cases (valid : date.Valid) :
    (date.day < monthLength date.year date.month ∧
      date.next = ⟨date.year, date.month, date.day + 1⟩) ∨
    (date.month < 12 ∧ date.day = monthLength date.year date.month ∧
      date.next = ⟨date.year, date.month + 1, 1⟩) ∨
    (date.month = 12 ∧ date.day = 31 ∧ date.next = ⟨date.year + 1, 1, 1⟩) := by
  obtain ⟨⟨first, last⟩, low, high⟩ := valid
  by_cases inMonth : date.day < monthLength date.year date.month
  · exact .inl ⟨inMonth, if_pos inMonth⟩
  · have ended : date.day = monthLength date.year date.month := by omega
    by_cases inYear : date.month < 12
    · exact .inr (.inl ⟨inYear, ended, (if_neg inMonth).trans (if_pos inYear)⟩)
    · have december : date.month = 12 := by omega
      rw [december] at ended
      exact .inr (.inr ⟨december, ended, (if_neg inMonth).trans (if_neg inYear)⟩)

theorem Valid.next (valid : date.Valid) : date.next.Valid := by
  obtain ⟨first, last⟩ := valid.month
  rcases valid.next_cases with ⟨inMonth, step⟩ | ⟨inYear, -, step⟩ | ⟨-, -, step⟩
  · rw [step]
    exact ⟨valid.month, Int.le_add_one valid.day.1, inMonth⟩
  · rw [step]
    exact valid_first _ (Int.le_add_one first) inYear
  · rw [step]
    exact valid_first _ (by decide) (by decide)

theorem Valid.exists_previous (valid : date.Valid) :
    ∃ previous : Date, previous.Valid ∧ previous.next = date := by
  obtain ⟨year, month, day⟩ := date
  obtain ⟨⟨first, last⟩, low, high⟩ := valid
  dsimp only at first last low high
  by_cases inMonth : 1 < day
  · have within : day - 1 < monthLength year month := by omega
    refine ⟨⟨year, month, day - 1⟩,
      ⟨⟨first, last⟩, Int.le_sub_one_of_lt inMonth, Int.le_of_lt within⟩, ?_⟩
    rw [Date.next, if_pos within, Int.sub_add_cancel]
  · obtain rfl : day = 1 := by omega
    by_cases inYear : 1 < month
    · have before : month - 1 < 12 := by omega
      refine ⟨_, valid_last year (Int.le_sub_one_of_lt inYear) (Int.le_of_lt before), ?_⟩
      rw [Date.next, if_neg (Int.lt_irrefl _), if_pos before, Int.sub_add_cancel]
    · obtain rfl : month = 1 := by omega
      have december : (1 : Int) ≤ 12 := by decide
      refine ⟨_, valid_last (year - 1) december (Int.le_refl 12), ?_⟩
      rw [Date.next, if_neg (Int.lt_irrefl _), if_neg (Int.lt_irrefl 12), Int.sub_add_cancel]

end Date

/-! ## Years from March

The leap day is the last day of such a year, so the months start on the same days in each. -/

def yearLength (year : Int) : Int := if IsLeap year then 366 else 365

theorem yearLength_bounds (year : Int) : 365 ≤ yearLength year ∧ yearLength year ≤ 366 := by
  rw [yearLength]
  split <;> decide

/-- Days before the first of March of a year, from that of the year zero. -/
def yearStart (year : Int) : Int := 365 * year + year / 4 - year / 100 + year / 400

theorem yearStart_succ (year : Int) :
    yearStart (year + 1) = yearStart year + yearLength (year + 1) := by
  rw [yearLength, yearStart, yearStart]
  split
  · rename_i leap
    rw [IsLeap] at leap
    omega
  · rename_i common
    rw [IsLeap] at common
    omega

/-- Months from March. -/
def fromMarch (month : Int) : Int := if month ≤ 2 then month + 9 else month - 3

/-- Days of a year before a month, both from March. -/
def monthStart (monthFromMarch : Int) : Int := (153 * monthFromMarch + 2) / 5

theorem monthLength_february (year : Int) :
    monthLength year 2 = yearLength year - monthStart 11 := by
  rw [monthLength, if_pos rfl, yearLength]
  split <;> rfl

theorem monthLength_eq (first : 1 ≤ month) (last : month ≤ 12) (other : month ≠ 2) (year : Int) :
    monthLength year month = monthStart (fromMarch month + 1) - monthStart (fromMarch month) := by
  have months : month = 1 ∨ month = 3 ∨ month = 4 ∨ month = 5 ∨ month = 6 ∨ month = 7 ∨
      month = 8 ∨ month = 9 ∨ month = 10 ∨ month = 11 ∨ month = 12 := by omega
  rcases months with rfl | rfl | rfl | rfl | rfl | rfl | rfl | rfl | rfl | rfl | rfl <;> rfl

namespace Date

def marchYear (date : Date) : Int := if date.month ≤ 2 then date.year - 1 else date.year

/-- The day in the year from March, where the first of March is zero. -/
def dayOfYear (date : Date) : Int := monthStart (fromMarch date.month) + date.day - 1

theorem dayOf_eq (date : Date) :
    dayOf date = yearStart date.marchYear + date.dayOfYear - epochOffset := by
  have eras : dayOf date = date.marchYear / 400 * 146097 + (date.marchYear % 400 * 365 +
      date.marchYear % 400 / 4 - date.marchYear % 400 / 100 + date.dayOfYear) - epochOffset := rfl
  rw [eras, yearStart]
  omega

theorem dayOf_next_month (first : 1 ≤ month) (last : month < 12) (year : Int) :
    dayOf ⟨year, month + 1, 1⟩ = dayOf ⟨year, month, monthLength year month⟩ + 1 := by
  simp only [dayOf_eq, marchYear, dayOfYear]
  by_cases february : month = 2
  · have years := yearStart_succ (year - 1)
    rw [Int.sub_add_cancel] at years
    rw [february, monthLength_february]
    change yearStart year + 0 - epochOffset =
      yearStart (year - 1) + (337 + (yearLength year - 337) - 1) - epochOffset + 1
    omega
  · have length := monthLength_eq first (Int.le_of_lt last) february year
    have later : fromMarch (month + 1) = fromMarch month + 1 := by
      unfold fromMarch
      split_ifs <;> omega
    rw [later, length]
    split_ifs <;> omega

theorem dayOf_next_year (year : Int) : dayOf ⟨year + 1, 1, 1⟩ = dayOf ⟨year, 12, 31⟩ + 1 := by
  simp only [dayOf_eq, marchYear, dayOfYear]
  change yearStart (year + 1 - 1) + 306 - epochOffset = yearStart year + 305 - epochOffset + 1
  rw [Int.add_sub_cancel]
  omega

theorem Valid.dayOf_next (valid : date.Valid) : dayOf date.next = dayOf date + 1 := by
  obtain ⟨year, month, day⟩ := date
  rcases valid.next_cases with ⟨inMonth, step⟩ | ⟨inYear, ended, step⟩ | ⟨december, ended, step⟩
  · rw [step, dayOf_eq, dayOf_eq, dayOfYear, dayOfYear, marchYear, marchYear]
    dsimp only
    omega
  · dsimp only at ended
    rw [step, ended, dayOf_next_month valid.month.1 inYear]
  · dsimp only at december ended
    rw [step, december, ended, dayOf_next_year]

/-- The month is found again from the day of the year. -/
theorem Valid.dayOfYear_bounds (valid : date.Valid) :
    0 ≤ date.dayOfYear ∧ date.dayOfYear < yearLength (date.marchYear + 1) ∧
      (5 * date.dayOfYear + 2) / 153 = fromMarch date.month := by
  obtain ⟨year, month, day⟩ := date
  obtain ⟨⟨first, last⟩, low, high⟩ := valid
  dsimp only at first last low high
  have lengths := yearLength_bounds (marchYear ⟨year, month, day⟩ + 1)
  rw [dayOfYear]
  dsimp only
  by_cases february : month = 2
  · subst february
    have inYear : marchYear ⟨year, 2, day⟩ + 1 = year := Int.sub_add_cancel year 1
    have count : fromMarch 2 = 11 := rfl
    have start : monthStart 11 = 337 := rfl
    rw [monthLength_february, start] at high
    rw [inYear] at lengths ⊢
    rw [count, start]
    omega
  · have range : 0 ≤ fromMarch month ∧ fromMarch month ≤ 10 := by
      unfold fromMarch
      split_ifs <;> omega
    rw [monthLength_eq first last february, monthStart, monthStart] at high
    rw [monthStart]
    omega

end Date

/-- The date on a day of a year from March. -/
def dateIn (year dayOfYear : Int) : Date :=
  let monthFromMarch := (5 * dayOfYear + 2) / 153
  let month := if monthFromMarch < 10 then monthFromMarch + 3 else monthFromMarch - 9
  ⟨year + if month ≤ 2 then 1 else 0, month, dayOfYear - monthStart monthFromMarch + 1⟩

theorem Date.Valid.dateIn_eq (valid : date.Valid) :
    dateIn date.marchYear date.dayOfYear = date := by
  obtain ⟨-, -, found⟩ := valid.dayOfYear_bounds
  obtain ⟨first, last⟩ := valid.month
  have month : (if fromMarch date.month < 10 then fromMarch date.month + 3
      else fromMarch date.month - 9) = date.month := by
    unfold fromMarch
    split_ifs <;> omega
  have year : (date.marchYear + if date.month ≤ 2 then 1 else 0) = date.year := by
    rw [marchYear]
    split <;> omega
  have day : date.dayOfYear - monthStart (fromMarch date.month) + 1 = date.day := by
    rw [dayOfYear]
    omega
  rw [dateIn, found, month, year, day]

/-- Days of an era before one of its years. -/
def daysBefore (yearOfEra : Int) : Int := 365 * yearOfEra + yearOfEra / 4 - yearOfEra / 100

/-- The year of an era that a day of the era falls in. -/
def yearOf (dayOfEra : Int) : Int :=
  (dayOfEra - dayOfEra / 1460 + dayOfEra / 36524 - dayOfEra / 146096) / 365

theorem dateOf_of_era {dayOfEra : Int} (low : 0 ≤ dayOfEra) (high : dayOfEra < daysPerEra)
    (era : Int) :
    dateOf (dayOfEra + daysPerEra * era - epochOffset) =
      dateIn (yearOf dayOfEra + era * 400) (dayOfEra - daysBefore (yearOf dayOfEra)) := by
  have quotient : (dayOfEra + daysPerEra * era) / daysPerEra = era := by
    rw [Int.add_mul_ediv_left _ _ (by decide), Int.ediv_eq_zero_of_lt low high, Int.zero_add]
  have remainder : (dayOfEra + daysPerEra * era) % daysPerEra = dayOfEra := by
    rw [Int.add_mul_emod_self_left, Int.emod_eq_of_lt low high]
  have computed (day : Int) : dateOf day =
      dateIn (yearOf ((day + epochOffset) % daysPerEra) + (day + epochOffset) / daysPerEra * 400)
        ((day + epochOffset) % daysPerEra -
          daysBefore (yearOf ((day + epochOffset) % daysPerEra))) := rfl
  rw [computed, Int.sub_add_cancel, quotient, remainder]

/-- A day of an era by its century, the group of four years in it, the year in that and the day. The
last day of a century or of a group is a leap day, where division by their usual lengths is one
too many. -/
theorem yearOf_of_parts {century four year day : Int} (centuries : 0 ≤ century ∧ century ≤ 3)
    (fours : 0 ≤ four ∧ four ≤ 24) (years : 0 ≤ year ∧ year ≤ 3) (days : 0 ≤ day ∧ day ≤ 365)
    (leap : day = 365 → year = 3 ∧ (four = 24 → century = 3)) :
    yearOf (36524 * century + 1461 * four + 365 * year + day) =
      100 * century + 4 * four + year := by
  generalize whole : 36524 * century + 1461 * four + 365 * year + day = dayOfEra
  have inCentury : dayOfEra < 36524 * (century + 1) ∨ century = 3 ∧ dayOfEra = 146096 := by
    by_cases leapDay : day = 365
    · obtain ⟨fourth, last⟩ := leap leapDay
      by_cases ending : four = 24
      · have lastCentury := last ending
        omega
      · omega
    · omega
  have byCentury : dayOfEra / 36524 - dayOfEra / 146096 = century := by
    rcases inCentury with inside | ⟨rfl, rfl⟩
    · have quotient : dayOfEra / 36524 = century := by omega
      omega
    · rfl
  have byFour : dayOfEra / 1460 = 25 * century + four +
      if 1460 ≤ 24 * century + four + 365 * year + day then 1 else 0 := by
    split <;> omega
  rw [yearOf, byFour]
  split <;> omega

theorem yearOf_daysBefore_add {year day : Int} (inEra : 0 ≤ year ∧ year < 400) (low : 0 ≤ day)
    (high : day < yearLength (year + 1)) : yearOf (daysBefore year + day) = year := by
  have lengths := yearLength_bounds (year + 1)
  have parts : daysBefore year + day =
      36524 * (year / 100) + 1461 * (year % 100 / 4) + 365 * (year % 4) + day := by
    rw [daysBefore]
    omega
  have leap : day = 365 → year % 4 = 3 ∧ (year % 100 / 4 = 24 → year / 100 = 3) := by
    intro leapDay
    rw [yearLength] at high
    split at high
    · rename_i leapYear
      obtain ⟨four, hundred⟩ := leapYear
      omega
    · omega
  rw [parts, yearOf_of_parts (by omega) (by omega) (by omega) (by omega) leap]
  omega

theorem yearLength_in_era (year : Int) : yearLength (year % 400 + 1) = yearLength (year + 1) := by
  have same : IsLeap (year % 400 + 1) ↔ IsLeap (year + 1) := by
    unfold IsLeap
    omega
  simp only [yearLength, same]

theorem dateOf_yearStart_add {year day : Int} (low : 0 ≤ day) (high : day < yearLength (year + 1)) :
    dateOf (yearStart year + day - epochOffset) = dateIn year day := by
  have lengths := yearLength_bounds (year + 1)
  have found : yearOf (daysBefore (year % 400) + day) = year % 400 :=
    yearOf_daysBefore_add (by omega) low (by rwa [yearLength_in_era])
  have bounds : 0 ≤ daysBefore (year % 400) + day ∧
      daysBefore (year % 400) + day < daysPerEra := by
    rw [daysBefore, daysPerEra]
    omega
  have parts : yearStart year + day =
      daysBefore (year % 400) + day + daysPerEra * (year / 400) := by
    rw [yearStart, daysBefore, daysPerEra]
    omega
  have whole : year % 400 + year / 400 * 400 = year := by omega
  have rest : daysBefore (year % 400) + day - daysBefore (year % 400) = day := by omega
  rw [parts, dateOf_of_era bounds.1 bounds.2, found, whole, rest]

theorem Date.Valid.dateOf_dayOf (valid : date.Valid) : dateOf (dayOf date) = date := by
  obtain ⟨low, high, -⟩ := valid.dayOfYear_bounds
  rw [dayOf_eq, dateOf_yearStart_add low high, valid.dateIn_eq]

theorem exists_dayOf_eq (day : Int) : ∃ date : Date, date.Valid ∧ dayOf date = day := by
  induction day with
  | zero => exact ⟨⟨1970, 1, 1⟩, ⟨by decide, by decide⟩, rfl⟩
  | succ day induction =>
      obtain ⟨date, valid, found⟩ := induction
      exact ⟨date.next, valid.next, by rw [valid.dayOf_next, found]⟩
  | pred day induction =>
      obtain ⟨date, valid, found⟩ := induction
      obtain ⟨previous, possible, rfl⟩ := valid.exists_previous
      have step := possible.dayOf_next
      exact ⟨previous, possible, by omega⟩

theorem valid_dateOf (day : Int) : (dateOf day).Valid := by
  obtain ⟨date, valid, rfl⟩ := exists_dayOf_eq day
  rwa [valid.dateOf_dayOf]

theorem dayOf_dateOf (day : Int) : dayOf (dateOf day) = day := by
  obtain ⟨date, valid, rfl⟩ := exists_dayOf_eq day
  rw [valid.dateOf_dayOf]

theorem dateOf_add_one (day : Int) : dateOf (day + 1) = (dateOf day).next := by
  have valid := valid_dateOf day
  have step := valid.dayOf_next
  rw [dayOf_dateOf] at step
  rw [← step, valid.next.dateOf_dayOf]

theorem dated_dateOf (day : Int) : Dated day (dateOf day) := by
  induction day with
  | zero => exact .start
  | succ day induction =>
      rw [dateOf_add_one]
      exact .next induction
  | pred day induction =>
      apply Dated.back (valid_dateOf _)
      rw [← dateOf_add_one, Int.sub_add_cancel]
      exact induction

/-- The walk comes on each day to one date, the one that is computed. -/
theorem dated_iff {day : Int} : Dated day date ↔ date = dateOf day := by
  constructor
  · intro dated
    induction dated with
    | start => rfl
    | next dated induction => rw [dateOf_add_one, ← induction]
    | @back day date valid dated induction =>
        have step := valid.dayOf_next
        rw [induction, dayOf_dateOf] at step
        have today : day = dayOf date := by omega
        rw [today, valid.dateOf_dayOf]
  · rintro rfl
    exact dated_dateOf day

end KeyCustody.Calendar
