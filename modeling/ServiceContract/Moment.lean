/-!
# Dates and moments

A document may hold a calendar date, or a moment with a time of day and perhaps an offset from
universal time.

## Main definitions

* `Date`, `Date.isValid`, `Date.text`.
* `Moment`, `Moment.isValid`, `Moment.text`.
* `Moment.instant?`: what moments of different offsets are compared by.
-/

namespace ServiceContract

/-- The number with zeros in front of it, at least `width` characters long. -/
def padded (width n : Nat) : String :=
  let digits := toString n
  String.ofList (List.replicate (width - digits.length) '0') ++ digits

/-- A calendar date. -/
structure Date where
  year : Nat
  month : Nat
  day : Nat
deriving DecidableEq, Inhabited

namespace Date

/-- Whether a year has 29 days in February. -/
def isLeap (year : Nat) : Bool :=
  year % 4 == 0 && (year % 100 != 0 || year % 400 == 0)

/-- The number of days of a month. -/
def daysIn (year month : Nat) : Nat :=
  if month = 2 then (if isLeap year then 29 else 28)
  else if month = 4 ∨ month = 6 ∨ month = 9 ∨ month = 11 then 30
  else 31

/-- Whether the date is one of the calendar's, from the year 1 on. -/
def isValid (d : Date) : Bool :=
  decide (1 ≤ d.year) && decide (1 ≤ d.month) && decide (d.month ≤ 12) && decide (1 ≤ d.day) &&
    decide (d.day ≤ daysIn d.year d.month)

/-- The number of the day, counted from the start of the calendar. -/
def dayNumber (d : Date) : Nat :=
  let years := d.year - 1
  years * 365 + years / 4 - years / 100 + years / 400 +
    (List.range (d.month - 1)).foldl (fun days m => days + daysIn d.year (m + 1)) 0 + d.day

/-- The date as year, month and day joined by hyphens. -/
def text (d : Date) : String :=
  padded 4 d.year ++ "-" ++ padded 2 d.month ++ "-" ++ padded 2 d.day

end Date

/-- A date with a time of day; the offset from universal time is in seconds. -/
structure Moment where
  date : Date
  hour : Nat
  minute : Nat
  second : Nat
  microsecond : Nat
  offset : Option Int
deriving DecidableEq, Inhabited

namespace Moment

/-- Whether date and time are possible and the offset is less than a day. -/
def isValid (m : Moment) : Bool :=
  m.date.isValid && decide (m.hour < 24) && decide (m.minute < 60) && decide (m.second < 60) &&
    m.offset.all fun o => decide (o.natAbs < 86400)

/-- The microseconds from the start of the calendar in universal time, if the offset is known. -/
def instant? (m : Moment) : Option Int :=
  m.offset.map fun o =>
    ((((m.date.dayNumber * 24 + m.hour) * 60 + m.minute) * 60 + m.second : Nat) - o) * 1000000 +
      m.microsecond

/-- An offset as signed hours and minutes, with seconds only where there are some. -/
def offsetText (o : Int) : String :=
  let n := o.natAbs
  (if o < 0 then "-" else "+") ++ padded 2 (n / 3600) ++ ":" ++ padded 2 (n / 60 % 60) ++
    (if n % 60 = 0 then "" else ":" ++ padded 2 (n % 60))

/-- The moment with the separator between date and time. -/
def textWith (separator : String) (m : Moment) : String :=
  m.date.text ++ separator ++ padded 2 m.hour ++ ":" ++ padded 2 m.minute ++ ":" ++
    padded 2 m.second ++ (if m.microsecond = 0 then "" else "." ++ padded 6 m.microsecond) ++
    (m.offset.map offsetText).getD ""

/-- The moment as date and time with a space between. -/
def text (m : Moment) : String :=
  m.textWith " "

end Moment

end ServiceContract
