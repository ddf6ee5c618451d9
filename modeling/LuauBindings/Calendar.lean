import LuauBindings.Text.Column

/-!
# Dates and times of day

A `Date` is a day of the proleptic Gregorian calendar in the years 1 to 9999; a `Timestamp` adds a
time of day to the microsecond and, if it is known, an offset from universal time of less than a
day. `Date.check` and `Timestamp.check` say which field of a date or time is out of range first.
-/

namespace LuauBindings

/-- A day of the calendar. -/
structure Date where
  year : Nat
  month : Nat
  day : Nat
deriving DecidableEq, Repr

/-- A day and a time of day; `offset` is in seconds east of universal time. -/
structure Timestamp where
  date : Date
  hour : Nat
  minute : Nat
  second : Nat
  microsecond : Nat
  offset : Option Int
deriving DecidableEq, Repr

/-- Why the fields of a date or time name none. -/
inductive CalendarFault
  | year (given : Nat)
  | month
  | day
  | hour
  | minute
  | second
  /-- An offset of a day or more, in seconds. -/
  | offset (seconds : Int)
deriving DecidableEq, Repr

namespace Calendar

def isLeap (year : Nat) : Bool :=
  year % 4 == 0 && (year % 100 != 0 || year % 400 == 0)

/-- The number of days of a month, `1 ≤ month ≤ 12`. -/
def daysIn (year month : Nat) : Nat :=
  if month = 2 then (if isLeap year then 29 else 28)
  else if month = 4 ∨ month = 6 ∨ month = 9 ∨ month = 11 then 30
  else 31

/-- A length of time, in seconds, as days and the seconds of a day. -/
def durationText (seconds : Int) : String :=
  let days := seconds.fdiv 86400
  let rest := seconds.fmod 86400
  let parts := (if days = 0 then [] else ["days=" ++ toString days]) ++
    (if rest = 0 then [] else ["seconds=" ++ toString rest])
  "datetime.timedelta(" ++ (if parts.isEmpty then "0" else ", ".intercalate parts) ++ ")"

end Calendar

def CalendarFault.message : CalendarFault → String
  | .year given => "year " ++ given.repr ++ " is out of range"
  | .month => "month must be in 1..12"
  | .day => "day is out of range for month"
  | .hour => "hour must be in 0..23"
  | .minute => "minute must be in 0..59"
  | .second => "second must be in 0..59"
  | .offset seconds =>
    "offset must be a timedelta strictly between -timedelta(hours=24) and timedelta(hours=24), not "
      ++ Calendar.durationText seconds ++ "."

namespace Date

/-- The first field out of range. -/
def check (d : Date) : Except CalendarFault Date :=
  if d.year = 0 ∨ 9999 < d.year then .error (.year d.year)
  else if d.month = 0 ∨ 12 < d.month then .error .month
  else if d.day = 0 ∨ Calendar.daysIn d.year d.month < d.day then .error .day
  else .ok d

/-- The days from the beginning of the year 1 to the end of `d`. -/
def ordinal (d : Date) : Nat :=
  let y := d.year - 1
  let before := (List.range (d.month - 1)).map fun m => Calendar.daysIn d.year (m + 1)
  365 * y + y / 4 - y / 100 + y / 400 + before.foldl (· + ·) 0 + d.day

/-- Year, month and day with hyphens between them. -/
def isoText (d : Date) : String :=
  Text.zeroPadded 4 d.year ++ "-" ++ Text.zeroPadded 2 d.month ++ "-" ++ Text.zeroPadded 2 d.day

/-- The date as messages show it. -/
def shown (d : Date) : String :=
  "datetime.date(" ++ ", ".intercalate ([d.year, d.month, d.day].map Nat.repr) ++ ")"

end Date

namespace Timestamp

/-- The first field out of range. The offset is looked at before all others. -/
def check (t : Timestamp) : Except CalendarFault Timestamp :=
  match t.offset with
  | some s => if 86400 ≤ s.natAbs then .error (.offset s) else fields
  | none => fields
where
  /-- The fields other than the offset. -/
  fields : Except CalendarFault Timestamp :=
    match t.date.check with
    | .error e => .error e
    | .ok _ =>
      if 23 < t.hour then .error .hour
      else if 59 < t.minute then .error .minute
      else if 59 < t.second then .error .second
      else .ok t

/-- The microseconds from the beginning of the year 1, on the clock of `t`. -/
def clock (t : Timestamp) : Int :=
  (((t.date.ordinal * 24 + t.hour) * 60 + t.minute) * 60 + t.second) * 1000000 + t.microsecond

/-- Two timestamps are the same moment: with offsets, in universal time, without, on the clock; one
with an offset is never the same as one without. -/
def same (t u : Timestamp) : Bool :=
  match t.offset, u.offset with
  | some a, some b => t.clock - a * 1000000 == u.clock - b * 1000000
  | none, none => t.clock == u.clock
  | _, _ => false

/-- Date, time and offset, with the microseconds only if there are any. -/
def isoText (t : Timestamp) : String :=
  let time := ":".intercalate ([t.hour, t.minute, t.second].map (Text.zeroPadded 2))
  let fraction := if t.microsecond = 0 then "" else "." ++ Text.zeroPadded 6 t.microsecond
  let zone := match t.offset with
    | none => ""
    | some s =>
      (if s < 0 then "-" else "+") ++ Text.zeroPadded 2 (s.natAbs / 3600) ++ ":" ++
        Text.zeroPadded 2 (s.natAbs / 60 % 60)
  t.date.isoText ++ "T" ++ time ++ fraction ++ zone

/-- The timestamp as messages show it: seconds and microseconds only if they are needed. -/
def shown (t : Timestamp) : String :=
  let small :=
    if t.microsecond ≠ 0 then [t.second, t.microsecond]
    else if t.second ≠ 0 then [t.second] else []
  let fields := [t.date.year, t.date.month, t.date.day, t.hour, t.minute] ++ small
  let zone := match t.offset with
    | none => []
    | some 0 => ["tzinfo=datetime.timezone.utc"]
    | some s => ["tzinfo=datetime.timezone(" ++ Calendar.durationText s ++ ")"]
  "datetime.datetime(" ++ ", ".intercalate (fields.map Nat.repr ++ zone) ++ ")"

end Timestamp

end LuauBindings
