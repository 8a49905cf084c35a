set_option autoImplicit false

namespace Permits

namespace Calendar

def isLeap (year : Nat) : Bool := year % 4 = 0 && (year % 100 ≠ 0 || year % 400 = 0)

def daysInMonth (year month : Nat) : Nat :=
  match month with
  | 2 => if isLeap year then 29 else 28
  | 4 | 6 | 9 | 11 => 30
  | 1 | 3 | 5 | 7 | 8 | 10 | 12 => 31
  | _ => 0

def padded (width number : Nat) : String :=
  let digits := Nat.toDigits 10 number
  String.ofList (List.replicate (width - digits.length) '0' ++ digits)

end Calendar

structure Date where
  year : Nat
  month : Nat
  day : Nat
  deriving DecidableEq

namespace Date

/-- A date that exists: years count from one to 9999. -/
def make? (year month day : Nat) : Option Date :=
  if 1 ≤ year ∧ year ≤ 9999 ∧ 1 ≤ day ∧ day ≤ Calendar.daysInMonth year month then
    some ⟨year, month, day⟩
  else none

def dayNumber (date : Date) : Nat :=
  let past := date.year - 1
  let before := (List.range (date.month - 1)).foldl
    (fun days month => days + Calendar.daysInMonth date.year (month + 1)) 0
  365 * past + past / 4 - past / 100 + past / 400 + before + date.day

def text (date : Date) : String :=
  Calendar.padded 4 date.year ++ "-" ++ Calendar.padded 2 date.month ++ "-" ++
    Calendar.padded 2 date.day

def display (date : Date) : String :=
  "datetime.date(" ++ toString date.year ++ ", " ++ toString date.month ++ ", " ++
    toString date.day ++ ")"

end Date

/-- A time of a day, perhaps with its distance from universal time in minutes. -/
structure Moment where
  date : Date
  hour : Nat
  minute : Nat
  second : Nat
  microsecond : Nat
  offset : Option Int
  deriving DecidableEq

namespace Moment

/-- A moment that exists. Offsets stay below a day in either direction. -/
def make? (date : Date) (hour minute second microsecond : Nat) (offset : Option Int) :
    Option Moment :=
  if hour < 24 ∧ minute < 60 ∧ second < 60 ∧ microsecond < 1000000 ∧
      ∀ minutes ∈ offset, minutes.natAbs < 24 * 60 then
    some ⟨date, hour, minute, second, microsecond, offset⟩
  else none

/-- The microseconds from the start of the calendar, in universal time if the offset is known. -/
def instant (moment : Moment) : Int :=
  let minutes : Int := (moment.date.dayNumber * 24 + moment.hour) * 60 + moment.minute
  ((minutes - moment.offset.getD 0) * 60 + moment.second) * 1000000 + moment.microsecond

private def offsetText (minutes : Int) : String :=
  (if minutes < 0 then "-" else "+") ++ Calendar.padded 2 (minutes.natAbs / 60) ++ ":" ++
    Calendar.padded 2 (minutes.natAbs % 60)

/-- Date and time with a space between them. A whole second has no fraction. -/
def text (moment : Moment) : String :=
  moment.date.text ++ " " ++ Calendar.padded 2 moment.hour ++ ":" ++
    Calendar.padded 2 moment.minute ++ ":" ++ Calendar.padded 2 moment.second ++
    (if moment.microsecond = 0 then "" else "." ++ Calendar.padded 6 moment.microsecond) ++
    (moment.offset.elim "" offsetText)

/-- An offset inside the text of a collection: days and seconds, where seconds never count
backwards. -/
private def offsetDisplay (minutes : Int) : String :=
  if minutes = 0 then "datetime.timezone.utc"
  else
    let seconds := toString ((minutes * 60).emod 86400)
    let days := if minutes < 0 then "days=-1, " else ""
    "datetime.timezone(datetime.timedelta(" ++ days ++ "seconds=" ++ seconds ++ "))"

/-- A moment inside the text of a collection. Seconds are left out when they and the fraction are
zero, and the fraction when it is zero. -/
def display (moment : Moment) : String :=
  let fields := [moment.date.year, moment.date.month, moment.date.day, moment.hour, moment.minute]
  let seconds := if moment.second = 0 ∧ moment.microsecond = 0 then [] else [moment.second]
  let fraction := if moment.microsecond = 0 then [] else [moment.microsecond]
  "datetime.datetime(" ++ ", ".intercalate ((fields ++ seconds ++ fraction).map toString) ++
    moment.offset.elim "" (fun minutes => ", tzinfo=" ++ offsetDisplay minutes) ++ ")"

end Moment

end Permits
