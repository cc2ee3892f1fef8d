/-!
# Moments

A moment is a day, a time of day, or both, then perhaps with a distance from universal time. It is
shown in two ways: by itself, as dates and times are written, and inside a list or a table, as the
parts that it is made of.
-/

namespace ImportAtlas

/-- A day of the calendar. -/
structure Day where
  year : Nat
  month : Nat
  day : Nat
  deriving DecidableEq, Repr

/-- A time of day. -/
structure DayTime where
  hour : Nat
  minute : Nat
  second : Nat
  microsecond : Nat := 0
  deriving DecidableEq, Repr

/-- A point in time, or a part of one. -/
inductive Moment where
  | day (d : Day)
  | time (t : DayTime)
  /-- A time on a day; `zone` is how many minutes it is ahead of universal time, if that is
  known. -/
  | both (d : Day) (t : DayTime) (zone : Option Int)
  deriving DecidableEq, Repr

/-- The number of days of a month. -/
def daysOf (year month : Nat) : Nat :=
  if month = 2 then
    if year % 4 = 0 && (year % 100 != 0 || year % 400 = 0) then 29 else 28
  else if [4, 6, 9, 11].contains month then 30
  else 31

/-- A number in at least `width` digits. -/
def padded (width n : Nat) : String :=
  let ds := Nat.toDigits 10 n
  String.ofList (List.replicate (width - ds.length) '0' ++ ds)

/-- A day as it is written. -/
def Day.text (d : Day) : String :=
  padded 4 d.year ++ "-" ++ padded 2 d.month ++ "-" ++ padded 2 d.day

/-- The numbers that make up a day. -/
def Day.parts (d : Day) : List Nat :=
  [d.year, d.month, d.day]

/-- The number of days up to a day, from the first of the year one on. -/
def Day.ordinal (d : Day) : Nat :=
  let before := d.year - 1
  365 * before + before / 4 - before / 100 + before / 400
    + (List.range' 1 (d.month - 1)).foldl (fun n month => n + daysOf d.year month) 0 + d.day

/-- A time as it is written; its fraction has six digits, or is left out. -/
def DayTime.text (t : DayTime) : String :=
  padded 2 t.hour ++ ":" ++ padded 2 t.minute ++ ":" ++ padded 2 t.second
    ++ if t.microsecond = 0 then "" else "." ++ padded 6 t.microsecond

/-- The numbers that make up a time. Seconds and their fraction are left out if nothing comes behind
them but zeros. -/
def DayTime.parts (t : DayTime) : List Nat :=
  [t.hour, t.minute] ++
    if t.microsecond ≠ 0 then [t.second, t.microsecond]
    else if t.second ≠ 0 then [t.second]
    else []

/-- The minutes since midnight. -/
def DayTime.minutes (t : DayTime) : Nat :=
  60 * t.hour + t.minute

namespace Moment

/-- The point in time that a moment is, in microseconds, if its distance from universal time is
known. -/
def instant? : Moment → Option Int
  | both d t (some zone) =>
    let minutes := 1440 * Int.ofNat d.ordinal + Int.ofNat t.minutes - zone
    some (1000000 * (60 * minutes + t.second) + t.microsecond)
  | _ => none

/-- A distance from universal time as it is written. -/
def zoneText (zone : Int) : String :=
  let minutes := zone.natAbs
  (if zone < 0 then "-" else "+") ++ padded 2 (minutes / 60) ++ ":" ++ padded 2 (minutes % 60)

/-- A distance from universal time inside another value: whole days, rounded down, and seconds. -/
def zoneNested (zone : Int) : String :=
  if zone = 0 then
    "datetime.timezone.utc"
  else
    let days := if zone < 0 then "days=-1, " else ""
    let seconds := 60 * (zone + if zone < 0 then 1440 else 0)
    "datetime.timezone(datetime.timedelta(" ++ days ++ "seconds=" ++ toString seconds ++ "))"

/-- A moment by itself. -/
def text : Moment → String
  | day d => d.text
  | time t => t.text
  | both d t zone => d.text ++ " " ++ t.text ++ (zone.map zoneText).getD ""

/-- A moment inside another value. -/
def nested : Moment → String
  | day d => "datetime.date(" ++ numbers d.parts ++ ")"
  | time t => "datetime.time(" ++ numbers t.parts ++ ")"
  | both d t zone =>
    let zone := zone.map fun z => ", tzinfo=" ++ zoneNested z
    "datetime.datetime(" ++ numbers (d.parts ++ t.parts) ++ zone.getD "" ++ ")"
where
  /-- Numbers with commas between them. -/
  numbers (ns : List Nat) : String :=
    ", ".intercalate (ns.map toString)

end Moment

end ImportAtlas
