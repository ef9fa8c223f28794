import RepoScan.Calendar
import RepoScan.Text.Utf8

/-!
# Reading dates and moments

A day is written as a calendar date or a week date, each with or without hyphens.  A moment is
written as a day, a mark of any kind and a time, with or without colons, down to millionths of a
second, and may end in a distance from universal time.

* `Date.readIso`, `Moment.readIso` : the day or moment that a text names, or what is wrong with it.

Positions in a text are counted in bytes, so the forms are read from the bytes of a text, each as a
character.
-/

namespace RepoScan

namespace Date

/-- The bytes of a text, each as a character. -/
def bytesOf? (t : Text) : Option Text :=
  (Utf8.encode? t).map fun bs => bs.map fun b => CodePoint.ofNat b.toNat

/-- The number that the next `n` characters spell, all ASCII digits, and the rest. -/
def takeNumber? (n : Nat) (t : Text) : Option (Nat × Text) :=
  let ds := t.take n
  if ds.length = n && ds.all (·.isAsciiDigit) then
    some (ds.foldl (fun v c => v * 10 + (c.val - 48)) 0, t.drop n)
  else none

/-- What follows the character `c` at the start of a text. -/
def skip? (c : CodePoint) : Text → Option Text
  | d :: t => if d = c then some t else none
  | [] => none

/-- A month and a day, with a hyphen between them or none. -/
def monthDay? (hyphens : Bool) (t : Text) : Option (Nat × Nat) := do
  let (month, t) ← takeNumber? 2 t
  let t ← if hyphens then skip? '-' t else some t
  let (day, _) ← takeNumber? 2 t
  pure (month, day)

/-- A week of a year and a day of it, Monday where none is given. -/
def weekDay? (hyphens : Bool) (year : Nat) (t : Text) : Option (Except CalendarFault Date) := do
  let (week, t) ← takeNumber? 2 t
  if t.isEmpty then ofWeek? year week 1
  else
    let t ← if hyphens then skip? '-' t else some t
    let (day, _) ← takeNumber? 1 t
    ofWeek? year week day

/-- The day that bytes name, if they are of one of the forms.  What follows the day is not looked
at. -/
def ofBytes? (t : Text) : Option (Except CalendarFault Date) := do
  let (year, t) ← takeNumber? 4 t
  let (hyphens, t) := match skip? '-' t with
    | some t => (true, t)
    | none => (false, t)
  match skip? 'W' t with
  | some t => weekDay? hyphens year t
  | none => (monthDay? hyphens t).map fun (month, day) => make year month day

/-- The day that a text names.  Its length in bytes has to be that of one of the forms. -/
def readIso (t : Text) : Except CalendarFault Date :=
  let day := (bytesOf? t).bind fun bs =>
    if bs.length = 7 || bs.length = 8 || bs.length = 10 then ofBytes? bs else none
  day.getD (.error (.malformed t))

/-- The day that a text names, if it names one. -/
def ofIso? (t : Text) : Option Date := (readIso t).toOption

end Date

namespace Moment

/-! ### Times -/

/-- A time of the day: hours, minutes and seconds as far as they are given, and millionths. -/
structure Clock where
  parts : List Nat
  micro : Nat
  /-- Something is left after the time. -/
  hasMore : Bool

/-- The millionths that the digits of a fraction spell, followed by `follows` or by nothing. -/
def takeFraction? (follows : Bool) (parts : List Nat) (t : Text) : Option Clock :=
  let ds := t.take 6
  if ds.all (·.isAsciiDigit) then
    let rest := (t.drop 6).dropWhile (·.isAsciiDigit)
    some ⟨parts.reverse, fraction ds, !rest.isEmpty || follows⟩
  else none

/-- At most `left` numbers of two digits, and a fraction after a point, a comma or the last number.
`colons` says whether colons stand between the numbers, once that is known; `parts` are the numbers
so far, reversed.  A single character after a number is left over. -/
def takeClock? (follows : Bool) : (left : Nat) → (colons : Option Bool) → (parts : List Nat) →
    Text → Option Clock
  | 0, _, parts, t => takeFraction? follows parts t
  | left + 1, colons, parts, t =>
    match Date.takeNumber? 2 t with
    | none => none
    | some (n, []) => some ⟨(n :: parts).reverse, 0, follows⟩
    | some (n, [_]) => some ⟨(n :: parts).reverse, 0, true⟩
    | some (n, c :: t) =>
      let colons := colons.getD (c = ':')
      if colons && c = ':' then takeClock? follows left (some colons) (n :: parts) t
      else if c = '.' || c = ',' then takeFraction? follows (n :: parts) t
      else if !colons then takeClock? follows left (some colons) (n :: parts) (c :: t)
      else none

/-- The seconds of a time. -/
def Clock.seconds (c : Clock) : Nat :=
  c.parts.getD 0 0 * 3600 + c.parts.getD 1 0 * 60 + c.parts.getD 2 0

/-- A character that begins the distance from universal time. -/
def isOffsetMark (c : CodePoint) : Bool := c.isIn "+-Z"

/-- The distance from universal time that a text spells; less than a second counts as none. -/
def offsetOf? (t : Text) : Option Int :=
  match t with
  | [] => none
  | mark :: t =>
    if mark = 'Z' && t.isEmpty then some 0
    else match takeClock? false 3 none [] t with
      | none => none
      | some c =>
        let n : Int := c.seconds * aSecond + c.micro
        if c.hasMore then none
        else if c.seconds = 0 then some 0
        else some (if mark = '-' then -n else n)

/-- A time and the distance from universal time after it, if there is one. -/
def timeOf? (t : Text) : Option (Clock × Option Int) := do
  let clock := t.takeWhile fun c => !isOffsetMark c
  let rest := t.drop clock.length
  let c ← takeClock? (!rest.isEmpty) 3 none [] clock
  if rest.isEmpty then if c.hasMore then none else some (c, none)
  else (offsetOf? rest).map fun o => (c, some o)

/-! ### Moments -/

/-- The character at a position is the given one. -/
def hasAt (n : Nat) (c : CodePoint) (t : Text) : Bool := t[n]? == some c

/-- The character at a position is a digit. -/
def hasDigitAt (n : Nat) (t : Text) : Bool := t[n]?.any (·.isAsciiDigit)

/-- How many of the bytes of a text name the day. -/
def dateSize? (t : Text) : Option Nat :=
  if t.length = 7 then some 7
  else if hasAt 4 '-' t then
    if !hasAt 5 'W' t then some 10
    else if t.length < 8 then none
    else if !hasAt 8 '-' t then some 8
    else if t.length = 9 then none
    else if hasDigitAt 10 t then some 8
    else some 10
  else if hasAt 4 'W' t then
    let n := 7 + ((t.drop 7).takeWhile (·.isAsciiDigit)).length
    some (if n < 9 then n else if n % 2 = 0 then 7 else 8)
  else some 8

/-- The number of bytes of a character that begins with a byte. -/
def widthAt (b : CodePoint) : Nat :=
  if b.val < 0x80 then 1 else if b.val < 0xE0 then 2 else if b.val < 0xF0 then 3 else 4

/-- A surrogate at a place where the mark between day and time can stand is as good as any other
mark. -/
def withPlainMark (t : Text) : Text :=
  let place := [7, 8, 10].find? fun n => t[n]?.any (·.isSurrogate)
  match place with
  | some n => t.set n 'T'
  | none => t

/-- The moment that bytes name, if they are of one of the forms.  A day alone is its first moment. -/
def ofBytes? (t : Text) : Option (Except CalendarFault Moment) := do
  let size ← dateSize? t
  let date ← Date.ofBytes? (t.take size)
  match t.drop size with
  | [] => some (date.map fun d => ⟨d, 0, 0, 0, 0, none⟩)
  | mark :: rest =>
    let (c, offset) ← timeOf? ((mark :: rest).drop (widthAt mark))
    some (do
      checkOffset offset
      let d ← date
      make d.year d.month d.day (c.parts.getD 0 0) (c.parts.getD 1 0) (c.parts.getD 2 0) c.micro
        offset)

/-- The moment that a text names. -/
def readIso (t : Text) : Except CalendarFault Moment :=
  ((Date.bytesOf? (withPlainMark t)).bind ofBytes?).getD (.error (.malformed t))

/-- The moment that a text names, if it names one. -/
def ofIso? (t : Text) : Option Moment := (readIso t).toOption

end Moment

end RepoScan
