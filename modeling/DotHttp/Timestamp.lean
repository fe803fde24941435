/-!
Points in time of the calendar: days, and times of day to the microsecond with an optional zone.
-/

namespace DotHttp

def paddedText (width n : Nat) : String :=
  let digits := toString n
  String.ofList (List.replicate (width - digits.length) '0') ++ digits

def daysIn (year month : Nat) : Nat :=
  match month with
  | 2 => if (year % 4 = 0 && year % 100 != 0) || year % 400 = 0 then 29 else 28
  | 4 | 6 | 9 | 11 => 30
  | _ => 31

/-- A day of the calendar. -/
structure Date where
  year : Nat
  month : Nat
  day : Nat
  deriving DecidableEq, Repr, Inhabited

namespace Date

def isReal (d : Date) : Bool :=
  1 ≤ d.year && 1 ≤ d.month && d.month ≤ 12 && 1 ≤ d.day && d.day ≤ daysIn d.year d.month

def text (d : Date) : String :=
  s!"{paddedText 4 d.year}-{paddedText 2 d.month}-{paddedText 2 d.day}"

/-- The text of a day in a message. -/
def quotedText (d : Date) : String :=
  s!"datetime.date({d.year}, {d.month}, {d.day})"

end Date

/-- A time of a day. `zone` counts the minutes ahead of universal time. -/
structure Timestamp where
  date : Date
  hour : Nat
  minute : Nat
  second : Nat
  microsecond : Nat
  zone : Option Int
  deriving DecidableEq, Repr, Inhabited

namespace Timestamp

def minutesPerDay : Nat := 1440

def secondsPerDay : Nat := 86400

/-- Whether there is such a time. A zone is less than a day away. -/
def isReal (t : Timestamp) : Bool :=
  t.date.isReal && t.hour < 24 && t.minute < 60 && t.second < 60 &&
    (t.zone.map Int.natAbs).all (· < minutesPerDay)

def zoneText (minutes : Int) : String :=
  let n := minutes.natAbs
  (if minutes < 0 then "-" else "+") ++ paddedText 2 (n / 60) ++ ":" ++ paddedText 2 (n % 60)

def text (t : Timestamp) : String :=
  let time := s!"{paddedText 2 t.hour}:{paddedText 2 t.minute}:{paddedText 2 t.second}"
  let fraction := if t.microsecond = 0 then "" else "." ++ paddedText 6 t.microsecond
  t.date.text ++ " " ++ time ++ fraction ++ (t.zone.map zoneText).getD ""

/-- The text of a zone in a message: a distance of a whole number of days and seconds. -/
def quotedZone (minutes : Int) : String :=
  let distance (text : String) : String := s!"datetime.timezone(datetime.timedelta({text}))"
  let seconds := 60 * minutes.natAbs
  if minutes = 0 then "datetime.timezone.utc"
  else if minutes < 0 then distance s!"days=-1, seconds={secondsPerDay - seconds}"
  else distance s!"seconds={seconds}"

/-- The text of a time in a message. Seconds of zero are left out, unless a fraction follows. -/
def quotedText (t : Timestamp) : String :=
  let fraction := if t.microsecond = 0 then [] else [t.microsecond]
  let seconds := if t.second = 0 && fraction.isEmpty then [] else [t.second]
  let numbers := [t.date.year, t.date.month, t.date.day, t.hour, t.minute] ++ seconds ++ fraction
  let zone := (t.zone.map fun z => ", tzinfo=" ++ quotedZone z).getD ""
  "datetime.datetime(" ++ ", ".intercalate (numbers.map toString) ++ zone ++ ")"

end Timestamp

end DotHttp
