import Mathlib.Data.List.Basic
import Mathlib.Data.List.Forall2
import Mathlib.Order.Monotone.Basic
import KeyCustody.Proofs.Calendar.Dates
import KeyCustody.Proofs.Text.FixedWidth

namespace KeyCustody.Calendar

/-! # Timestamps

Every field of a timestamp has its own width, from the year down to the second. So the fields can
be read back from their places, and timestamps are ordered as the instants they are of. -/

open Text (DigitsOf)

variable {moment other : Moment} {seconds before after : Int} {text later : List Char}

/-- A calendar and a clock in UTC show the moment at an instant. -/
structure Moment.Marks (moment : Moment) (seconds : Int) : Prop where
  dated : Dated (seconds / 86400) moment.date
  hour : 0 ≤ moment.hour ∧ moment.hour < 24
  minute : 0 ≤ moment.minute ∧ moment.minute < 60
  second : 0 ≤ moment.second ∧ moment.second < 60
  time : seconds % 86400 = moment.hour * 3600 + moment.minute * 60 + moment.second

theorem momentOf_marks (seconds : Int) : (momentOf seconds).Marks seconds := by
  have hour : (momentOf seconds).hour = seconds % 86400 / 3600 := rfl
  have minute : (momentOf seconds).minute = seconds % 86400 / 60 % 60 := rfl
  have second : (momentOf seconds).second = seconds % 86400 % 60 := rfl
  exact ⟨dated_dateOf _, by omega, by omega, by omega, by omega⟩

namespace Moment.Marks

theorem eq_momentOf (marks : moment.Marks seconds) : moment = momentOf seconds := by
  obtain ⟨date, hour, minute, second⟩ := moment
  obtain ⟨dated, hours, minutes, inMinute, time⟩ := marks
  dsimp only at hours minutes inMinute time
  rw [momentOf, Moment.mk.injEq]
  exact ⟨dated_iff.mp dated, by omega, by omega, by omega⟩

theorem valid (marks : moment.Marks seconds) : moment.date.Valid := by
  rw [dated_iff.mp marks.dated]
  exact valid_dateOf _

theorem dayOf_eq (marks : moment.Marks seconds) : dayOf moment.date = seconds / 86400 := by
  rw [dated_iff.mp marks.dated, dayOf_dateOf]

theorem unique (first : moment.Marks before) (second : moment.Marks after) : before = after := by
  have day := first.dayOf_eq
  have otherDay := second.dayOf_eq
  have time := first.time
  have otherTime := second.time
  omega

end Moment.Marks

def layout : List Char :=
  ['Y', 'Y', 'Y', 'Y', 'M', 'M', 'D', 'D', 'T', 'h', 'h', 'm', 'm', 's', 's', 'Z']

def Fits (place c : Char) : Prop := if place = 'T' ∨ place = 'Z' then c = place else c.isDigit

def InForm (text : List Char) : Prop := List.Forall₂ Fits layout text

/-- The number in the places of a field. -/
def fieldAt (place : Char) (text : List Char) : Int :=
  Nat.ofDigitChars 10 (((layout.zip text).filter (·.1 == place)).map (·.2)) 0

theorem digitsOf_paddedNumber (width number : Nat) (positive : 0 < width)
    (fits : number < 10 ^ width) : DigitsOf width number (paddedNumber width number).toList := by
  have padded := Text.digitsOf_padded positive fits
  rw [paddedNumber, Nat.toString_eq_repr, String.toList_append, String.toList_ofList,
    ← String.length_toList, Nat.toList_repr]
  exact padded

namespace Moment

/-- The moment that a text shows in the places of the fields. -/
def read (text : List Char) : Moment :=
  ⟨⟨fieldAt 'Y' text, fieldAt 'M' text, fieldAt 'D' text⟩,
    fieldAt 'h' text, fieldAt 'm' text, fieldAt 's' text⟩

/-- The text has the fields of a moment in digits, each in its own width. -/
inductive Written : Moment → List Char → Prop where
  | fields {y m d h n s : Nat} {year month day hour minute second : List Char}
      (ofYear : DigitsOf 4 y year) (ofMonth : DigitsOf 2 m month) (ofDay : DigitsOf 2 d day)
      (ofHour : DigitsOf 2 h hour) (ofMinute : DigitsOf 2 n minute)
      (ofSecond : DigitsOf 2 s second) :
      Written ⟨⟨y, m, d⟩, h, n, s⟩
        (year ++ month ++ day ++ 'T' :: (hour ++ minute ++ second ++ ['Z']))

theorem Marks.written (marks : moment.Marks seconds)
    (years : 0 ≤ moment.date.year ∧ moment.date.year ≤ 9999) :
    moment.Written moment.text.toList := by
  have months := marks.valid.month
  have days := marks.valid.day
  have month := monthLength_bounds moment.date.year moment.date.month
  have hours := marks.hour
  have minutes := marks.minute
  have inMinute := marks.second
  have year : yearText moment.date.year = paddedNumber 4 moment.date.year.natAbs := by
    rw [yearText, if_neg (Int.not_lt.mpr years.1), if_neg (Int.not_lt.mpr years.2)]
  rw [Moment.text, year]
  obtain ⟨⟨y, m, d⟩, h, n, s⟩ := moment
  obtain ⟨y, rfl⟩ := Int.eq_ofNat_of_zero_le years.1
  obtain ⟨m, rfl⟩ := Int.eq_ofNat_of_zero_le (Int.le_of_lt months.1)
  obtain ⟨d, rfl⟩ := Int.eq_ofNat_of_zero_le (Int.le_of_lt days.1)
  obtain ⟨h, rfl⟩ := Int.eq_ofNat_of_zero_le hours.1
  obtain ⟨n, rfl⟩ := Int.eq_ofNat_of_zero_le minutes.1
  obtain ⟨s, rfl⟩ := Int.eq_ofNat_of_zero_le inMinute.1
  dsimp only at months days month years hours minutes inMinute
  have written := Written.fields
    (digitsOf_paddedNumber 4 y (by decide) (by omega))
    (digitsOf_paddedNumber 2 m (by decide) (by omega))
    (digitsOf_paddedNumber 2 d (by decide) (by omega))
    (digitsOf_paddedNumber 2 h (by decide) (by omega))
    (digitsOf_paddedNumber 2 n (by decide) (by omega))
    (digitsOf_paddedNumber 2 s (by decide) (by omega))
  simpa using written

/-- What is written has the form of a timestamp, and its fields are read from their places. -/
theorem Written.read_eq (written : moment.Written text) : InForm text ∧ read text = moment := by
  obtain ⟨ofYear, ofMonth, ofDay, ofHour, ofMinute, ofSecond⟩ := written
  obtain ⟨y₁, y₂, y₃, y₄, rfl⟩ := List.length_eq_four.mp ofYear.length
  obtain ⟨m₁, m₂, rfl⟩ := List.length_eq_two.mp ofMonth.length
  obtain ⟨d₁, d₂, rfl⟩ := List.length_eq_two.mp ofDay.length
  obtain ⟨h₁, h₂, rfl⟩ := List.length_eq_two.mp ofHour.length
  obtain ⟨n₁, n₂, rfl⟩ := List.length_eq_two.mp ofMinute.length
  obtain ⟨s₁, s₂, rfl⟩ := List.length_eq_two.mp ofSecond.length
  constructor
  · have digits : ∀ c ∈ [y₁, y₂, y₃, y₄] ++ [m₁, m₂] ++ [d₁, d₂] ++ [h₁, h₂] ++ [n₁, n₂] ++
        [s₁, s₂], c.isDigit := by
      simp only [List.forall_mem_append]
      exact ⟨⟨⟨⟨⟨ofYear.digits, ofMonth.digits⟩, ofDay.digits⟩, ofHour.digits⟩, ofMinute.digits⟩,
        ofSecond.digits⟩
    simpa [InForm, layout, Fits, and_assoc] using digits
  · change Moment.mk ⟨Nat.ofDigitChars 10 [y₁, y₂, y₃, y₄] 0, Nat.ofDigitChars 10 [m₁, m₂] 0,
      Nat.ofDigitChars 10 [d₁, d₂] 0⟩ (Nat.ofDigitChars 10 [h₁, h₂] 0)
      (Nat.ofDigitChars 10 [n₁, n₂] 0) (Nat.ofDigitChars 10 [s₁, s₂] 0) = _
    rw [ofYear.number, ofMonth.number, ofDay.number, ofHour.number, ofMinute.number,
      ofSecond.number]

end Moment

/-- Year, month and day in one number, which grows from day to day. -/
def Date.number (date : Date) : Int := (date.year * 100 + date.month) * 100 + date.day

def Moment.clock (moment : Moment) : Int :=
  (moment.hour * 100 + moment.minute) * 100 + moment.second

theorem Date.Valid.number_lt_next {date : Date} (valid : date.Valid) :
    date.number < date.next.number := by
  have ending := valid.day.2
  have length := monthLength_bounds date.year date.month
  rcases valid.next_cases with ⟨-, step⟩ | ⟨-, -, step⟩ | ⟨december, -, step⟩
  all_goals
    rw [step]
    simp only [number]
    omega

theorem number_lt_iff {day later : Int} :
    (dateOf day).number < (dateOf later).number ↔ day < later := by
  have growing : StrictMono fun day => (dateOf day).number := by
    apply strictMono_int_of_lt_succ
    intro day
    rw [dateOf_add_one]
    exact (valid_dateOf day).number_lt_next
  exact growing.lt_iff_lt

theorem Moment.Marks.lt_iff (first : moment.Marks before) (second : other.Marks after) :
    before < after ↔ moment.date.number < other.date.number ∨
      moment.date.number = other.date.number ∧ moment.clock < other.clock := by
  have dates : moment.date.number < other.date.number ↔ before / 86400 < after / 86400 := by
    rw [dated_iff.mp first.dated, dated_iff.mp second.dated, number_lt_iff]
  have converse : other.date.number < moment.date.number ↔ after / 86400 < before / 86400 := by
    rw [dated_iff.mp first.dated, dated_iff.mp second.dated, number_lt_iff]
  have clocks : moment.clock < other.clock ↔ before % 86400 < after % 86400 := by
    have minutes := first.minute
    have inMinute := first.second
    have otherMinutes := second.minute
    have inOther := second.second
    rw [first.time, second.time, clock, clock]
    omega
  rw [dates, clocks]
  omega

theorem Moment.Written.lt_iff (written : moment.Written text)
    (otherWritten : other.Written later) :
    text < later ↔ moment.date.number < other.date.number ∨
      moment.date.number = other.date.number ∧ moment.clock < other.clock := by
  obtain ⟨year, month, day, hour, minute, second⟩ := written
  obtain ⟨otherYear, otherMonth, otherDay, otherHour, otherMinute, otherSecond⟩ := otherWritten
  -- Eight digits of the date, a letter, six digits of the clock, and a letter.
  rw [((year.append month).append day).append_lt_append_iff
      ((otherYear.append otherMonth).append otherDay),
    List.cons_lt_cons_iff,
    ((hour.append minute).append second).append_lt_append_iff
      ((otherHour.append otherMinute).append otherSecond)]
  simp only [Date.number, Moment.clock, Char.lt_irrefl, List.lt_irrefl, false_or, true_and,
    and_false, or_false]
  omega

/-- The year of the instant in UTC is one of the years 0000 to 9999. -/
def InFourDigitYears (seconds : Int) : Prop :=
  ∃ moment : Moment, moment.Marks seconds ∧ 0 ≤ moment.date.year ∧ moment.date.year ≤ 9999

theorem InFourDigitYears.written (years : InFourDigitYears seconds) :
    (momentOf seconds).Written (timestamp seconds).toList := by
  obtain ⟨moment, marks, years⟩ := years
  have written := marks.written years
  rwa [marks.eq_momentOf] at written

/-- A timestamp has sixteen characters in one form. What is read from its places is the date and
time in UTC of the instant and of no other, and timestamps come in the order of time. -/
theorem timestamps_tell_time (first : InFourDigitYears before) (second : InFourDigitYears after) :
    ((timestamp before).length = 16 ∧ InForm (timestamp before).toList) ∧
    (∀ seconds, (Moment.read (timestamp before).toList).Marks seconds ↔ seconds = before) ∧
    (timestamp before < timestamp after ↔ before < after) := by
  obtain ⟨form, read⟩ := first.written.read_eq
  refine ⟨⟨?_, form⟩, fun seconds => ?_, ?_⟩
  · rw [← String.length_toList]
    exact form.length_eq.symm
  · rw [read]
    constructor
    · intro marks
      exact marks.unique (momentOf_marks before)
    · rintro rfl
      exact momentOf_marks _
  · have texts : timestamp before < timestamp after ↔
        (timestamp before).toList < (timestamp after).toList := Iff.rfl
    rw [texts, first.written.lt_iff second.written,
      (momentOf_marks before).lt_iff (momentOf_marks after)]

/-- The last second of February 1900, a year without a leap day, and the second after it. -/
theorem february_of_1900_told :
    (InFourDigitYears (-2203891201) ∧ InFourDigitYears (-2203891200)) ∧
    timestamp (-2203891201) = "19000228T235959Z" ∧
    timestamp (-2203891200) = "19000301T000000Z" ∧
    (Moment.mk ⟨1900, 2, 28⟩ 23 59 59).Marks (-2203891201) ∧
    timestamp (-2203891201) < timestamp (-2203891200) := by
  have first : InFourDigitYears (-2203891201) := ⟨_, momentOf_marks _, by decide, by decide⟩
  have second : InFourDigitYears (-2203891200) := ⟨_, momentOf_marks _, by decide, by decide⟩
  obtain ⟨-, told, order⟩ := timestamps_tell_time first second
  have read : Moment.read (timestamp (-2203891201)).toList = ⟨⟨1900, 2, 28⟩, 23, 59, 59⟩ := by
    decide +kernel
  rw [read] at told
  exact ⟨⟨first, second⟩, by decide +kernel, by decide +kernel, (told _).mpr rfl,
    order.mpr (by decide)⟩

end KeyCustody.Calendar
