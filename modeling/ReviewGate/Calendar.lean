import ReviewGate.Number.Integer

/-! Dates and times of day: from a count of seconds, and as texts. -/
namespace ReviewGate

/-- A date with a time of day and, if it is known, the distance from universal time in seconds. -/
structure Timestamp where
  year : Nat
  month : Nat
  day : Nat
  hour : Nat
  minute : Nat
  second : Nat
  microsecond : Nat
  offset : Option Int
  deriving DecidableEq

namespace Calendar

/-- Why numbers are no date or time of day. -/
inductive Problem where
  | year (n : Int)
  | month
  | day
  | hour
  | minute
  | second
  | offset (shown : String)
  deriving DecidableEq

def Problem.message : Problem → String
  | .year n => "year " ++ Number.intText n ++ " is out of range"
  | .month => "month must be in 1..12"
  | .day => "day is out of range for month"
  | .hour => "hour must be in 0..23"
  | .minute => "minute must be in 0..59"
  | .second => "second must be in 0..59"
  | .offset shown =>
    "offset must be a timedelta strictly between -timedelta(hours=24) and timedelta(hours=24), not " ++
      shown

def isLeap (year : Nat) : Bool :=
  (year % 4 == 0 && year % 100 != 0) || year % 400 == 0

def daysInMonth (year month : Nat) : Nat :=
  if month = 2 then (if isLeap year then 29 else 28)
  else if month = 4 || month = 6 || month = 9 || month = 11 then 30
  else 31

/-- Year, month and day of a number of days after the first of January 1970. Years are counted from
March, so that the leap day is the last one, in eras of 400 years. -/
def dateOfDays (days : Int) : Int × Nat × Nat :=
  let shifted := days + 719468
  let era := shifted.fdiv 146097
  let dayOfEra := (shifted.fmod 146097).toNat
  let yearOfEra := (dayOfEra - dayOfEra / 1460 + dayOfEra / 36524 - dayOfEra / 146096) / 365
  let dayOfYear := dayOfEra - (365 * yearOfEra + yearOfEra / 4 - yearOfEra / 100)
  let monthFromMarch := (5 * dayOfYear + 2) / 153
  let day := dayOfYear - (153 * monthFromMarch + 2) / 5 + 1
  let month := if monthFromMarch < 10 then monthFromMarch + 3 else monthFromMarch - 9
  let year := (yearOfEra : Int) + era * 400 + (if month ≤ 2 then 1 else 0)
  (year, month, day)

/-- What is wrong with a date, if anything is. -/
def dateProblem? (year month day : Nat) : Option Problem :=
  if year = 0 || 9999 < year then some (.year year)
  else if month = 0 || 12 < month then some .month
  else if day = 0 || daysInMonth year month < day then some .day
  else none

/-- What is wrong with a time of day, if anything is. -/
def timeProblem? (hour minute second : Nat) : Option Problem :=
  if 23 < hour then some .hour
  else if 59 < minute then some .minute
  else if 59 < second then some .second
  else none

/-- A number with zeros before it up to a width. -/
def padded (width n : Nat) : String :=
  let digits := Nat.toDigits 10 n
  String.ofList (List.replicate (width - digits.length) '0' ++ digits)

def dateText (year month day : Nat) : String :=
  padded 4 year ++ "-" ++ padded 2 month ++ "-" ++ padded 2 day

/-- The distance from universal time, to the minute or, if need be, to the second. -/
def offsetText (offset : Int) : String :=
  let size := offset.natAbs
  (if offset < 0 then "-" else "+") ++ padded 2 (size / 3600) ++ ":" ++ padded 2 (size / 60 % 60) ++
    (if size % 60 = 0 then "" else ":" ++ padded 2 (size % 60))

end Calendar

def Timestamp.text (t : Timestamp) : String :=
  Calendar.dateText t.year t.month t.day ++ " " ++ Calendar.padded 2 t.hour ++ ":" ++
    Calendar.padded 2 t.minute ++ ":" ++ Calendar.padded 2 t.second ++
    (if t.microsecond = 0 then "" else "." ++ Calendar.padded 6 t.microsecond) ++
    (match t.offset with
    | none => ""
    | some offset => Calendar.offsetText offset)

/-- The time that lies a number of seconds after the start of 1970. The year must have been checked
to be positive. -/
def Timestamp.ofSeconds (seconds : Int) : Timestamp :=
  let (year, month, day) := Calendar.dateOfDays (seconds.fdiv 86400)
  let rest := (seconds.fmod 86400).toNat
  ⟨year.toNat, month, day, rest / 3600, rest / 60 % 60, rest % 60, 0, none⟩

end ReviewGate
