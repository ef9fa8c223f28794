import RepoScan.Text.Basic
import RepoScan.Text.Quoted

/-!
# Dates and moments

Days of the proleptic Gregorian calendar from year 1 to year 9999, and moments of a day with an
optional distance from universal time.  `Calendar/Iso` reads them.

A day counted by `Date.ordinal` and found again by `Date.ofOrdinal?` is what week dates go through.
-/

namespace RepoScan

/-- Why numbers do not name a day or a moment. -/
inductive CalendarFault where
  /-- A text is of none of the forms of days or moments. -/
  | malformed (given : Text)
  | year (given : Int)
  | month
  | day
  | hour
  | minute
  | second
  /-- The distance from universal time, in millionths of a second, is a day or more. -/
  | offset (distance : Int)
deriving DecidableEq

/-- A day. -/
structure Date where
  year : Nat
  month : Nat
  day : Nat
deriving DecidableEq

namespace Date

/-- A year with a 29th of February. -/
def isLeap (year : Nat) : Bool := year % 4 == 0 && (year % 100 != 0 || year % 400 == 0)

/-- The number of days of a month. -/
def daysIn (year month : Nat) : Nat :=
  match month with
  | 2 => if isLeap year then 29 else 28
  | 4 | 6 | 9 | 11 => 30
  | _ => 31

/-- The day with the given numbers. -/
def make (year month day : Nat) : Except CalendarFault Date :=
  if year = 0 || 9999 < year then .error (.year year)
  else if month = 0 || 12 < month then .error .month
  else if day = 0 || daysIn year month < day then .error .day
  else .ok ⟨year, month, day⟩

/-- The number of days before the first of January. -/
def daysBeforeYear (year : Nat) : Nat :=
  let y := year - 1
  y * 365 + y / 4 - y / 100 + y / 400

/-- The number of days of a year before the first of a month. -/
def daysBeforeMonth (year month : Nat) : Nat :=
  (List.range (month - 1)).foldl (fun n m => n + daysIn year (m + 1)) 0

/-- The place of a day in the calendar; the first day has place 1. -/
def ordinal (d : Date) : Nat := daysBeforeYear d.year + daysBeforeMonth d.year d.month + d.day

/-- The day at a place of the calendar. -/
def ofOrdinal? (n : Nat) : Option Date :=
  if n = 0 || daysBeforeYear 10000 < n then none
  else
    let guess := (n - 1) / 366 + 1
    let year := ((List.range 30).map (guess + ·)).findSome? fun y =>
      if daysBeforeYear y < n && n ≤ daysBeforeYear (y + 1) then some y else none
    year.bind fun y =>
      let left := n - daysBeforeYear y
      (List.range 12).findSome? fun m =>
        let before := daysBeforeMonth y (m + 1)
        if before < left && left ≤ before + daysIn y (m + 1) then some ⟨y, m + 1, left - before⟩
        else none

/-- The order of the calendar. -/
def before (a b : Date) : Bool :=
  a.year < b.year || (a.year = b.year && (a.month < b.month ||
    (a.month = b.month && a.day < b.day)))

/-- The place of the Monday of the first week of a year: the week that holds the year's first
Thursday. -/
def firstMonday (year : Nat) : Int :=
  let first : Int := daysBeforeYear year + 1
  let weekday : Int := (first + 6) % 7
  if 3 < weekday then first - weekday + 7 else first - weekday

/-- The year has a week 53. -/
def hasLongYear (year : Nat) : Bool :=
  let weekday := (daysBeforeYear year + 7) % 7
  weekday = 3 || (weekday = 2 && isLeap year)

/-- The day with the given week date; `none` where the year has no such week or the week no such day.
Years without days are told as if they lacked months. -/
def ofWeek? (year week weekday : Nat) : Option (Except CalendarFault Date) :=
  if week = 0 || 53 < week || (week = 53 && !hasLongYear year) then none
  else if weekday = 0 || 7 < weekday then none
  else if year = 0 then some (.error .month)
  else match ofOrdinal? (firstMonday year + (week - 1) * 7 + (weekday - 1)).toNat with
    | some d => some (.ok d)
    | none => some (.error (.year (year + 1)))

/-- A number with at least `width` digits. -/
def padded (width n : Nat) : Text :=
  let ds := Text.ofNat n
  List.replicate (width - ds.length) ('0' : CodePoint) ++ ds

/-- The day as year, month and day. -/
def toIso (d : Date) : Text :=
  Text.join "-" [padded 4 d.year, padded 2 d.month, padded 2 d.day]

end Date

/-- A moment: a day, a time of the day and, where it is known, the distance from universal time in
millionths of a second. -/
structure Moment where
  date : Date
  hour : Nat
  minute : Nat
  second : Nat
  micro : Nat
  offset : Option Int
deriving DecidableEq

namespace Moment

/-- The millionths of a second. -/
def aSecond : Int := 1000000

/-- The millionths of a day. -/
def aDay : Int := 86400 * aSecond

/-- A distance from universal time, if there is one, is less than a day. -/
def checkOffset (offset : Option Int) : Except CalendarFault Unit :=
  match offset with
  | some s => if aDay ≤ s.natAbs then .error (.offset s) else .ok ()
  | none => .ok ()

/-- The moment with the given numbers, of which the distance from universal time is checked first
and the date next. -/
def make (year month day hour minute second micro : Nat) (offset : Option Int) :
    Except CalendarFault Moment := do
  checkOffset offset
  let date ← Date.make year month day
  if 23 < hour then throw .hour
  if 59 < minute then throw .minute
  if 59 < second then throw .second
  pure ⟨date, hour, minute, second, micro, offset⟩

/-- The millionths from the start of the calendar to the moment, in its own time. -/
def ticks (m : Moment) : Int :=
  m.date.ordinal * aDay + (m.hour * 3600 + m.minute * 60 + m.second) * aSecond + m.micro

/-- Two moments are one instant.  A moment whose distance from universal time is not known is no
instant of one whose distance is. -/
def sameInstant (a b : Moment) : Bool :=
  match a.offset, b.offset with
  | none, none => a.ticks == b.ticks
  | some s, some t => a.ticks - s == b.ticks - t
  | _, _ => false

/-- Seconds and millionths with a mark in front of each, where they are not zero. -/
def smallParts (seconds micros : Nat) : Text :=
  (if seconds = 0 && micros = 0 then [] else Text.ofString ":" ++ Date.padded 2 seconds)
    ++ (if micros = 0 then [] else Text.ofString "." ++ Date.padded 6 micros)

/-- The distance from universal time as hours and minutes, with smaller parts where there are any. -/
def offsetText (s : Int) : Text :=
  let micros := s.natAbs
  let n := micros / 1000000
  (if s < 0 then ("-" : Text) else ("+" : Text)) ++ Date.padded 2 (n / 3600) ++ ":"
    ++ Date.padded 2 (n / 60 % 60) ++ smallParts (n % 60) (micros % 1000000)

/-- The moment with `mark` between the day and the time. -/
def toIsoWith (mark : Text) (m : Moment) : Text :=
  m.date.toIso ++ mark
    ++ Text.join ":" [Date.padded 2 m.hour, Date.padded 2 m.minute, Date.padded 2 m.second]
    ++ (if m.micro = 0 then [] else Text.ofString "." ++ Date.padded 6 m.micro)
    ++ (match m.offset with
      | some s => offsetText s
      | none => [])

/-- The moment as it is written in reports. -/
def toIso (m : Moment) : Text := m.toIsoWith "T"

/-- The millionths that the digits of a fraction spell, beyond the sixth ignored. -/
def fraction (t : Text) : Nat :=
  let ds := t.take 6
  ds.foldl (fun v c => v * 10 + (c.val - 48)) 0 * Nat.pow 10 (6 - ds.length)

end Moment

/-- Millionths of a second as days, seconds of a day and millionths, the latter two never negative,
as they are named in messages. -/
def durationText (n : Int) : Text :=
  let days := n / Moment.aDay
  let seconds := n % Moment.aDay / Moment.aSecond
  let micros := n % Moment.aSecond
  let parts := [(("days" : Text), days), ("seconds", seconds), ("microseconds", micros)].filter
    fun p => p.2 != 0
  "datetime.timedelta("
    ++ (if parts.isEmpty then ("0" : Text)
      else Text.join ", " (parts.map fun p => p.1 ++ "=" ++ Text.ofInt p.2)) ++ ")"

/-- What is wrong with the numbers. -/
def CalendarFault.message : CalendarFault → Text
  | .malformed t => "Invalid isoformat string: " ++ t.quoted
  | .year n => "year " ++ Text.ofInt n ++ " is out of range"
  | .month => "month must be in 1..12"
  | .day => "day is out of range for month"
  | .hour => "hour must be in 0..23"
  | .minute => "minute must be in 0..59"
  | .second => "second must be in 0..59"
  | .offset s =>
    "offset must be a timedelta strictly between -timedelta(hours=24) and timedelta(hours=24), not "
      ++ durationText s ++ "."

end RepoScan
