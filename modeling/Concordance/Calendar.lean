/-!
Dates and moments of the proleptic Gregorian calendar.

* `Date.valid`, `Moment.valid` : the calendar has the day, the clock has the time, and the offset
  from universal time is under a day.
* `Date.text`, `Moment.text` : the plain form, `2024-01-31` and `2024-01-31 10:00:00+01:00`.
* `Date.quoted`, `Moment.quoted` : the form inside a larger value.
* `Moment.compare?` : the order in time; a moment with an offset and one without have none.
-/

namespace Concordance

/-- A day of the calendar. -/
structure Date where
  year : Nat
  month : Nat
  day : Nat
  deriving DecidableEq, Repr, Inhabited

/-- A time of a day, with an offset from universal time in minutes if one is known. -/
structure Moment where
  date : Date
  hour : Nat
  minute : Nat
  second : Nat
  micro : Nat
  offset : Option Int
  deriving DecidableEq, Repr, Inhabited

/-- A number in at least `width` digits, filled up with zeros. -/
def padded (width n : Nat) : String :=
  let ds := Nat.toDigits 10 n
  String.ofList (List.replicate (width - ds.length) '0' ++ ds)

namespace Date

/-- A year with a twenty-ninth of February. -/
def isLeap (year : Nat) : Bool :=
  year % 4 == 0 && (year % 100 != 0 || year % 400 == 0)

/-- The number of days of a month. -/
def monthLength (year : Nat) : Nat → Nat
  | 2 => if isLeap year then 29 else 28
  | 4 => 30
  | 6 => 30
  | 9 => 30
  | 11 => 30
  | _ => 31

/-- The calendar has this day: years run from 1 to 9999. -/
def valid (d : Date) : Bool :=
  1 ≤ d.year && d.year ≤ 9999 && 1 ≤ d.month && d.month ≤ 12 && 1 ≤ d.day &&
    d.day ≤ monthLength d.year d.month

/-- The number of days before this one, counted from the first of January of the year 1. -/
def ordinal (d : Date) : Nat :=
  let y := d.year - 1
  y * 365 + y / 4 - y / 100 + y / 400 +
    (List.range (d.month - 1)).foldl (fun n m => n + monthLength d.year (m + 1)) 0 + (d.day - 1)

/-- Year, month and day, joined by hyphens. -/
def text (d : Date) : String :=
  padded 4 d.year ++ "-" ++ padded 2 d.month ++ "-" ++ padded 2 d.day

/-- The three numbers of a day, in order of size. -/
def parts (d : Date) : List Nat := [d.year, d.month, d.day]

/-- The form inside a larger value. -/
def quoted (d : Date) : String :=
  "datetime.date(" ++ ", ".intercalate (d.parts.map toString) ++ ")"

end Date

namespace Moment

/-- The calendar has the day, the clock the time, and the offset is under a day. -/
def valid (m : Moment) : Bool :=
  m.date.valid && m.hour < 24 && m.minute < 60 && m.second < 60 && m.micro < 1000000 &&
    m.offset.all fun o => o.natAbs < 1440

/-- An offset from universal time. -/
def offsetText (o : Int) : String :=
  (if o < 0 then "-" else "+") ++ padded 2 (o.natAbs / 60) ++ ":" ++ padded 2 (o.natAbs % 60)

/-- Day and time of day, then the fraction of the second unless it is zero, then the offset. -/
def text (m : Moment) : String :=
  m.date.text ++ " " ++ padded 2 m.hour ++ ":" ++ padded 2 m.minute ++ ":" ++ padded 2 m.second ++
    (if m.micro = 0 then "" else "." ++ padded 6 m.micro) ++ (m.offset.map offsetText).getD ""

/-- An offset inside a quoted moment: whole days are split off downwards. -/
def offsetQuoted (o : Int) : String :=
  if o = 0 then "datetime.timezone.utc"
  else
    let days := if o < 0 then "days=-1, " else ""
    let seconds := (o % 1440) * 60
    "datetime.timezone(datetime.timedelta(" ++ days ++ "seconds=" ++ toString seconds ++ "))"

/-- The form inside a larger value; a zero fraction is left out, and zero seconds with it. -/
def quoted (m : Moment) : String :=
  let tail :=
    if m.micro ≠ 0 then [m.second, m.micro] else if m.second ≠ 0 then [m.second] else []
  let zone := (m.offset.map fun o => ", tzinfo=" ++ offsetQuoted o).getD ""
  "datetime.datetime(" ++
    ", ".intercalate ((m.date.parts ++ [m.hour, m.minute] ++ tail).map toString) ++ zone ++ ")"

/-- The microseconds since the start of the calendar, in universal time if an offset is known. -/
def instant (m : Moment) : Int :=
  let minutes : Int := (m.date.ordinal * 24 + m.hour) * 60 + m.minute
  ((minutes - m.offset.getD 0) * 60 + m.second) * 1000000 + m.micro

/-- The order in time, for two moments that both have an offset or both lack one. -/
def compare? (a b : Moment) : Option Ordering :=
  if a.offset.isSome == b.offset.isSome then some (compare a.instant b.instant) else none

end Moment
end Concordance
