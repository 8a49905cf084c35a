import Permits.Value.Calendar

set_option autoImplicit false

namespace Permits.Yaml

/-- The time of a written moment. The offset is in minutes. -/
structure ClockTime where
  hour : Nat
  minute : Nat
  second : Nat
  microsecond : Nat
  offset : Option Int

/-- A date as written, perhaps with a time, before it is known to exist. -/
structure Timestamp where
  year : Nat
  month : Nat
  day : Nat
  time : Option ClockTime

namespace Timestamp

private abbrev Reading (α : Type) : Type := StateT (List Char) Option α

private def char (wanted : Char) : Reading Unit := fun cs =>
  match cs with
  | c :: rest => if c = wanted then some ((), rest) else none
  | [] => none

private def next? : Reading (Option Char) := fun cs => some (cs.head?, cs)

private def skip (inClass : Char → Bool) : Reading Nat := fun cs =>
  some ((cs.takeWhile inClass).length, cs.dropWhile inClass)

private def digits (least most : Nat) : Reading Nat := fun cs =>
  let run := (cs.take most).takeWhile Char.isDigit
  if least ≤ run.length then
    some (run.foldl (fun value c => value * 10 + (c.toNat - '0'.toNat)) 0, cs.drop run.length)
  else none

/-- A fraction of a second in microseconds. Digits beyond them are not read. -/
private def fraction : Reading Nat := do
  if (← next?) ≠ some '.' then return 0
  char '.'
  fun cs =>
    let run := cs.takeWhile Char.isDigit
    let six := (run ++ List.replicate 6 '0').take 6
    some (six.foldl (fun value c => value * 10 + (c.toNat - '0'.toNat)) 0, cs.drop run.length)

/-- The distance from universal time, if one is written, after perhaps some blanks. -/
private def offset : Reading (Option Int) := do
  let blanks ← skip fun c => c = ' ' || c = '\t'
  match ← next? with
  | some 'Z' => char 'Z'; return some 0
  | some '+' => char '+'; return some (← minutes)
  | some '-' => char '-'; return some (-(← minutes))
  | _ => if blanks = 0 then return none else failure
where
  minutes : Reading Int := do
    let hours ← digits 1 2
    if (← next?) = some ':' then
      char ':'
      return hours * 60 + (← digits 2 2)
    else return hours * 60

private def clockTime : Reading ClockTime := do
  match ← next? with
  | some 'T' => char 'T'
  | some 't' => char 't'
  | _ => if (← skip fun c => c = ' ' || c = '\t') = 0 then failure
  let hour ← digits 1 2
  char ':'
  let minute ← digits 2 2
  char ':'
  let second ← digits 2 2
  let microsecond ← fraction
  return ⟨hour, minute, second, microsecond, ← offset⟩

private def timestamp : Reading Timestamp := do
  let year ← digits 4 4
  char '-'
  let month ← digits 1 2
  char '-'
  let day ← digits 1 2
  match ← next? with
  | none => return ⟨year, month, day, none⟩
  | some _ => return ⟨year, month, day, some (← clockTime)⟩

def read? (cs : List Char) : Option Timestamp :=
  match timestamp.run cs with
  | some (found, []) => some found
  | _ => none

/-- Whether a plain text is a date or a moment. Without a time, month and day have two digits. -/
def isWritten (cs : List Char) : Bool :=
  (read? cs).any fun found => found.time.isSome || cs.length = 10

end Timestamp

end Permits.Yaml
