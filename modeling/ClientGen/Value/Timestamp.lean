/-!
# Dates and times

A date, or a date with a time of day, a fraction of a second and an offset from universal time. Two
texts belong to one: the one that is shown, and the one for a place inside a list or a mapping.
-/

namespace ClientGen

/-- An offset from universal time in minutes. -/
abbrev Offset := Int

/-- A time of day. -/
structure DayTime where
  hour : Nat
  minute : Nat
  second : Nat
  microsecond : Nat
  offset : Option Offset
deriving DecidableEq, Repr

/-- A date, with a time of day if it has one. -/
structure Timestamp where
  year : Nat
  month : Nat
  day : Nat
  time : Option DayTime
deriving DecidableEq, Repr

namespace Timestamp

/-! ## The calendar -/

/-- Whether a year has a leap day. -/
def isLeap (year : Nat) : Bool := year % 4 == 0 && (year % 100 != 0 || year % 400 == 0)

/-- The days of a month. -/
def daysIn (year month : Nat) : Nat :=
  if month = 2 then (if isLeap year then 29 else 28)
  else if month = 4 ∨ month = 6 ∨ month = 9 ∨ month = 11 then 30
  else 31

/-- The days of a year before the month after `month`. -/
def daysThrough (year : Nat) : (month : Nat) → Nat
  | 0 => 0
  | month + 1 => daysThrough year month + daysIn year (month + 1)

/-- The number of a day, counted from the first day of the first year. -/
def dayNumber (t : Timestamp) : Nat :=
  let before := t.year - 1
  365 * before + before / 4 - before / 100 + before / 400 + daysThrough t.year (t.month - 1) + t.day

/-- The microseconds of universal time up to a time with an offset. -/
def instant? (t : Timestamp) : Option Int := do
  let time ← t.time
  let offset ← time.offset
  let minutes : Int := (24 * t.dayNumber + time.hour) * 60 + time.minute
  return (60 * (minutes - offset) + time.second) * 1000000 + time.microsecond

/-- Whether two texts name one time. Times with offsets are compared by what they are in universal
time. -/
def same (a b : Timestamp) : Bool :=
  a == b || match a.instant?, b.instant? with
    | some m, some n => m == n
    | _, _ => false

/-! ## Written forms -/

/-- A number with at least `width` digits. -/
def padded (width n : Nat) : String :=
  let ds := (toString n).toList
  String.ofList (List.replicate (width - ds.length) '0' ++ ds)

/-- An offset as it is shown. -/
def offsetText (offset : Offset) : String :=
  (if offset < 0 then "-" else "+") ++ padded 2 (offset.natAbs / 60) ++ ":"
    ++ padded 2 (offset.natAbs % 60)

/-- A time of day as it is shown. -/
def timeText (t : DayTime) : String :=
  padded 2 t.hour ++ ":" ++ padded 2 t.minute ++ ":" ++ padded 2 t.second
    ++ (if t.microsecond = 0 then "" else "." ++ padded 6 t.microsecond)
    ++ (t.offset.map offsetText).getD ""

/-- The text that is shown. -/
def text (t : Timestamp) : String :=
  padded 4 t.year ++ "-" ++ padded 2 t.month ++ "-" ++ padded 2 t.day
    ++ (t.time.map fun time => " " ++ timeText time).getD ""

/-- The text of a span of time, given in minutes. -/
def spanText (minutes : Int) : String :=
  let days := minutes.fdiv 1440
  let seconds := 60 * minutes.fmod 1440
  let parts := (if days = 0 then [] else [s!"days={days}"])
    ++ (if seconds = 0 then [] else [s!"seconds={seconds}"])
  "datetime.timedelta(" ++ (if parts.isEmpty then "0" else ", ".intercalate parts) ++ ")"

/-- An offset inside another text. -/
def offsetInner (offset : Offset) : String :=
  if offset = 0 then "datetime.timezone.utc"
  else "datetime.timezone(" ++ spanText offset ++ ")"

/-- The text for a place inside a list or a mapping. -/
def inner (t : Timestamp) : String :=
  let date := [t.year, t.month, t.day].map toString
  match t.time with
  | none => "datetime.date(" ++ ", ".intercalate date ++ ")"
  | some time =>
    let clock :=
      if time.microsecond ≠ 0 then [time.hour, time.minute, time.second, time.microsecond]
      else if time.second ≠ 0 then [time.hour, time.minute, time.second]
      else [time.hour, time.minute]
    "datetime.datetime(" ++ ", ".intercalate (date ++ clock.map toString)
      ++ (time.offset.map fun o => ", tzinfo=" ++ offsetInner o).getD "" ++ ")"

end Timestamp

end ClientGen
