import ScriptBackend.Toml.Scan
import ScriptBackend.Toml.Value

/-! # Dates and times

Days are checked against the calendar and clocks against the day.  A fraction of a second
is kept to the nanosecond and cut off after it.
-/
namespace ScriptBackend.Toml

/-- Whether the year has a 29th of February. -/
def isLeapYear (year : Nat) : Bool :=
  year % 4 = 0 && (year % 100 ≠ 0 || year % 400 = 0)

/-- The number of days of a month. -/
def monthLength (year month : Nat) : Nat :=
  if month = 2 then (if isLeapYear year then 29 else 28)
  else if month = 4 || month = 6 || month = 9 || month = 11 then 30
  else 31

/-- Reads a day. -/
def day : Reader Day := fun cs => do
  let (year, cs) ← fixedDigits 4 cs
  let cs ← mark '-' cs
  let (month, cs) ← fixedDigits 2 cs
  let cs ← mark '-' cs
  let (day, rest) ← fixedDigits 2 cs
  if 1 ≤ month && month ≤ 12 && 1 ≤ day && day ≤ monthLength year month then
    some (⟨year, month, day⟩, rest)
  else none

/-- Reads hours and minutes. -/
def hourMinute : Reader (Nat × Nat) := fun cs => do
  let (hour, cs) ← fixedDigits 2 cs
  let cs ← mark ':' cs
  let (minute, rest) ← fixedDigits 2 cs
  if hour ≤ 23 && minute ≤ 59 then some ((hour, minute), rest) else none

/-- Reads a fraction of a second, in nanoseconds; none is zero. -/
def nanoseconds : List Char → Nat × List Char
  | '.' :: cs =>
    match cs.takeWhile isDecimalDigit with
    | [] => (0, '.' :: cs)
    | ds =>
      let nine := (ds ++ List.replicate 9 '0').take 9
      (ofDigits 10 (nine.filterMap (digitValue? 10)), cs.dropWhile isDecimalDigit)
  | cs => (0, cs)

/-- Reads a time of day. -/
def clock : Reader Clock := fun cs => do
  let ((hour, minute), cs) ← hourMinute cs
  let cs ← mark ':' cs
  let (second, cs) ← fixedDigits 2 cs
  let (nanosecond, rest) := nanoseconds cs
  if second ≤ 60 then some (⟨hour, minute, second, nanosecond⟩, rest) else none

/-- Reads the offset from universal time, in minutes; a missing one is none. -/
def offset : List Char → Option Int × List Char
  | [] => (none, [])
  | c :: cs =>
    if c = 'Z' || c = 'z' then (some 0, cs)
    else if c = '+' || c = '-' then
      match hourMinute cs with
      | some ((hour, minute), rest) =>
        let n : Int := hour * 60 + minute
        (some (if c = '-' then -n else n), rest)
      | none => (none, c :: cs)
    else (none, c :: cs)

/-- Reads the clock after a day. -/
def clockAfterDay : Reader Clock
  | c :: cs => if c = 'T' || c = 't' || c = ' ' then clock cs else none
  | [] => none

/-- Reads a date, a time of day or both. -/
def moment : Reader Moment := fun cs =>
  match day cs with
  | some (d, rest) =>
    match clockAfterDay rest with
    | some (t, left) => let (o, left) := offset left; some (.both d t o, left)
    | none => some (.day d, rest)
  | none => (clock cs).map fun (t, rest) => (.clock t, rest)

end ScriptBackend.Toml
