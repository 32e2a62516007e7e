import SmellCheck.Text.Numeral
/-!
# Timestamps

The date and time of day of an instant, which is given in seconds since
the beginning of 1970, in the calendar that is used today.
-/

namespace SmellCheck

/-- A day of the calendar. -/
structure Date where
  year : Int
  month : Nat
  day : Nat
  deriving DecidableEq

/-- The number of days before a day of a year that begins in March, and
so ends with the leap day, to the beginning of the given month. -/
def daysBeforeMonth (monthFromMarch : Nat) : Nat :=
  (153 * monthFromMarch + 2) / 5

/-- The day that is the given number of days after the first of March of
year zero. Four centuries have as many days as any other four. -/
def Date.ofDayNumber (n : Int) : Date :=
  let era := Int.fdiv n 146097
  let dayOfEra := (Int.fmod n 146097).toNat
  let yearOfEra :=
    (dayOfEra - dayOfEra / 1460 + dayOfEra / 36524 - dayOfEra / 146096) / 365
  let dayOfYear := dayOfEra - (365 * yearOfEra + yearOfEra / 4 - yearOfEra / 100)
  let monthFromMarch := (5 * dayOfYear + 2) / 153
  let month := if monthFromMarch < 10 then monthFromMarch + 3 else monthFromMarch - 9
  { year := era * 400 + yearOfEra + if month ≤ 2 then 1 else 0
    month
    day := dayOfYear - daysBeforeMonth monthFromMarch + 1 }

/-- A number with at least the given number of digits. -/
def padded (width : Nat) (n : Nat) : String :=
  String.ofList (Text.padZeros width (Nat.repr n).toList)

/-- The date with the year, the month and the day apart. -/
def Date.text (d : Date) : String :=
  (if d.year < 0 then "-" else "") ++ padded 4 d.year.natAbs ++ "-" ++ padded 2 d.month
    ++ "-" ++ padded 2 d.day

/-- The days from the first of March of year zero to the beginning of
1970. -/
def dayNumberOf1970 : Int := 719468

/-- The first instant that has a date: the beginning of the first of March
292277022400 years, or 730692556 times four centuries, before the one of
year zero. -/
def firstDatedSecond : Int :=
  -(730692556 * 146097 + dayNumberOf1970) * 86400

/-- An instant that has a date. Those before the first one that has go on
behind the last one of a signed word of 64 bits. -/
def datedSecond (seconds : Int) : Int :=
  if seconds < firstDatedSecond then seconds + 0x10000000000000000 else seconds

/-- The date and time of day of an instant, in universal time. -/
def timestampText (seconds : Int) : String :=
  let seconds := datedSecond seconds
  let date := Date.ofDayNumber (dayNumberOf1970 + Int.fdiv seconds 86400)
  let second := (Int.fmod seconds 86400).toNat
  date.text ++ "T" ++ padded 2 (second / 3600) ++ ":" ++ padded 2 (second / 60 % 60)
    ++ ":" ++ padded 2 (second % 60) ++ "Z"

end SmellCheck
