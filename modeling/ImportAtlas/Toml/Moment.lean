import ImportAtlas.Setting.Value
import ImportAtlas.Toml.Text

/-!
# Dates and times

A date, a time of day, or both with an optional distance from universal time. Only days that
exist are dates. Fractions of a second are kept to six digits.
-/

namespace ImportAtlas.Toml

/-- The number written by exactly `count` decimal digits. -/
def fixedDigits? (count : Nat) (s : List Char) : Option (Nat × List Char) :=
  let ds := s.take count
  if ds.length = count && ds.all Char.isDigit then
    some (ds.foldl (fun n d => 10 * n + (d.toNat - '0'.toNat)) 0, s.drop count)
  else
    none

/-- A number of two digits in a range, both ends included. -/
def twoDigits? (low high : Nat) (s : List Char) : Option (Nat × List Char) :=
  (fixedDigits? 2 s).filter fun r => low ≤ r.1 && r.1 ≤ high

/-- The text behind the character `c`. -/
def after? (c : Char) : List Char → Option (List Char)
  | d :: s => if c == d then some s else none
  | [] => none

/-- The fraction of a second behind a point, in microseconds; nothing if there is none. -/
def microseconds (s : List Char) : Nat × List Char :=
  match s with
  | '.' :: t =>
    let ds := t.takeWhile Char.isDigit
    match fixedDigits? 6 ((ds ++ List.replicate 6 '0').take 6) with
    | some (n, _) => if ds.isEmpty then (0, s) else (n, t.dropWhile Char.isDigit)
    | none => (0, s)
  | _ => (0, s)

/-- A time of day. -/
def time? (s : List Char) : Option (DayTime × List Char) := do
  let (hour, s) ← twoDigits? 0 23 s
  let s ← after? ':' s
  let (minute, s) ← twoDigits? 0 59 s
  let s ← after? ':' s
  let (second, s) ← twoDigits? 0 59 s
  let (microsecond, s) := microseconds s
  return ({ hour, minute, second, microsecond }, s)

/-- The distance from universal time, in minutes; nothing if there is none. -/
def zone (s : List Char) : Option Int × List Char :=
  let distance? : Option (Int × List Char) := do
    let mark ← s.head?
    if mark != '+' && mark != '-' then none
    else
      let (hour, t) ← twoDigits? 0 23 (s.drop 1)
      let t ← after? ':' t
      let (minute, t) ← twoDigits? 0 59 t
      let minutes : Int := 60 * hour + minute
      return (if mark == '-' then -minutes else minutes, t)
  match s with
  | 'Z' :: t | 'z' :: t => (some 0, t)
  | _ => (distance?.map (·.1), (distance?.map (·.2)).getD s)

/-- How a date or a time is found at the start of a text. -/
inductive Found where
  | moment (m : Moment) (rest : List Char)
  /-- It is written like a date, but there is no such day. -/
  | noSuchDay
  | nothing

/-- A date, alone or with a time of day. -/
def date (s : List Char) : Found :=
  let written? := do
    let (year, s) ← fixedDigits? 4 s
    let s ← after? '-' s
    let (month, s) ← twoDigits? 1 12 s
    let s ← after? '-' s
    let (day, s) ← twoDigits? 1 31 s
    return (year, month, day, s)
  match written? with
  | none => .nothing
  | some (year, month, day, rest) =>
    if year = 0 || daysOf year month < day then .noSuchDay
    else
      let found : Day := { year, month, day }
      match rest with
      | c :: t =>
        if c == 'T' || c == 't' || c == ' ' then
          match time? t with
          | some (time, t) =>
            let (zone, t) := zone t
            .moment (.both found time zone) t
          | none => .moment (.day found) rest
        else .moment (.day found) rest
      | [] => .moment (.day found) []

/-- A date or a time of day at the start of a text. -/
def moment (s : List Char) : Found :=
  match date s with
  | .nothing =>
    match time? s with
    | some (time, rest) => .moment (.time time) rest
    | none => .nothing
  | found => found

end ImportAtlas.Toml
