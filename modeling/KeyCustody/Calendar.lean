namespace KeyCustody.Calendar

/-! # Dates of the Gregorian calendar, before and after its start

Days are counted from the start of 1970. Counting years from March puts the leap day at
the end of a year, and 400 years always have the same number of days. -/

structure Date where
  year : Int
  month : Int
  day : Int
  deriving DecidableEq, Repr

structure Moment where
  date : Date
  hour : Int
  minute : Int
  second : Int
  deriving DecidableEq, Repr

/-- Days of 400 years. -/
def daysPerEra : Int := 146097

/-- Days from the first of March of the year zero to the start of 1970. -/
def epochOffset : Int := 719468

/-- The date of a day. -/
def dateOf (days : Int) : Date :=
  let shifted := days + epochOffset
  let era := shifted / daysPerEra
  let dayOfEra := shifted % daysPerEra
  let yearOfEra := (dayOfEra - dayOfEra / 1460 + dayOfEra / 36524 - dayOfEra / 146096) / 365
  let dayOfYear := dayOfEra - (365 * yearOfEra + yearOfEra / 4 - yearOfEra / 100)
  let monthFromMarch := (5 * dayOfYear + 2) / 153
  let day := dayOfYear - (153 * monthFromMarch + 2) / 5 + 1
  let month := if monthFromMarch < 10 then monthFromMarch + 3 else monthFromMarch - 9
  let year := yearOfEra + era * 400 + if month ≤ 2 then 1 else 0
  ⟨year, month, day⟩

/-- The day of a date. -/
def dayOf (date : Date) : Int :=
  let year := if date.month ≤ 2 then date.year - 1 else date.year
  let era := year / 400
  let yearOfEra := year % 400
  let monthFromMarch := if date.month ≤ 2 then date.month + 9 else date.month - 3
  let dayOfYear := (153 * monthFromMarch + 2) / 5 + date.day - 1
  let dayOfEra := yearOfEra * 365 + yearOfEra / 4 - yearOfEra / 100 + dayOfYear
  era * daysPerEra + dayOfEra - epochOffset

/-- The moment a number of seconds after the start of 1970. -/
def momentOf (seconds : Int) : Moment :=
  let inDay := seconds % 86400
  ⟨dateOf (seconds / 86400), inDay / 3600, inDay / 60 % 60, inDay % 60⟩

/-- A number in at least `width` digits. -/
def paddedNumber (width number : Nat) : String :=
  let digits := toString number
  String.ofList (List.replicate (width - digits.length) '0') ++ digits

/-- A year in four digits, or with a sign outside of the years 0 to 9999. -/
def yearText (year : Int) : String :=
  if year < 0 then "-" ++ paddedNumber 4 year.natAbs
  else if 9999 < year then "+" ++ paddedNumber 4 year.natAbs
  else paddedNumber 4 year.natAbs

/-- A moment in the basic form `YYYYMMDDThhmmssZ`. -/
def Moment.text (moment : Moment) : String :=
  yearText moment.date.year ++ paddedNumber 2 moment.date.month.natAbs ++
    paddedNumber 2 moment.date.day.natAbs ++ "T" ++ paddedNumber 2 moment.hour.natAbs ++
    paddedNumber 2 moment.minute.natAbs ++ paddedNumber 2 moment.second.natAbs ++ "Z"

/-- The timestamp of a number of seconds after the start of 1970. -/
def timestamp (seconds : Int) : String := (momentOf seconds).text

end KeyCustody.Calendar
