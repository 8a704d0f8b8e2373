import TestSynth.Number.Decimal
import TestSynth.Text.Classes
/-!
Points in time, as the data files write them: a date, a time of day and the offset from UTC. A
point is kept in UTC, so two spellings of one point are equal.
-/
namespace TestSynth

open Text (isBlank trimStart)

/-- Seconds since the start of 1970 and billionths of one. A second that was put in at the end of a
minute counts as the billionths beyond the first thousand million of the second before it. -/
structure Timestamp where
  seconds : Int
  nanoseconds : Nat
deriving DecidableEq, Repr, Inhabited

namespace Timestamp

def nanosPerSecond : Nat := 1000000000

def secondsPerDay : Nat := 86400

/-- A day of the calendar. -/
structure Date where
  year : Int
  month : Nat
  day : Nat
deriving DecidableEq, Repr

def isLeapYear (y : Int) : Bool := (y % 4 == 0 && y % 100 != 0) || y % 400 == 0

def daysInMonth (y : Int) (m : Nat) : Nat :=
  if m == 2 then if isLeapYear y then 29 else 28
  else if [4, 6, 9, 11].contains m then 30 else 31

/-- Days from the start of 1970 to a date. Years are counted from March, so that the leap day is the
last of its year. -/
def Date.dayNumber (d : Date) : Int :=
  let y := if d.month ≤ 2 then d.year - 1 else d.year
  let shifted := (d.month + 9) % 12
  365 * y + y / 4 - y / 100 + y / 400 + ((153 * shifted + 2) / 5 : Nat) + d.day - 719469

/-- The date that many days from the start of 1970. -/
def Date.ofDayNumber (n : Int) : Date :=
  let z := n + 719468
  let era := z / 146097
  let dayOfEra := (z % 146097).toNat
  let yearOfEra := (dayOfEra - dayOfEra / 1460 + dayOfEra / 36524 - dayOfEra / 146096) / 365
  let dayOfYear := dayOfEra - (365 * yearOfEra + yearOfEra / 4 - yearOfEra / 100)
  let shifted := (5 * dayOfYear + 2) / 153
  let month := if shifted < 10 then shifted + 3 else shifted - 9
  let year := (yearOfEra : Int) + era * 400
  ⟨if month ≤ 2 then year + 1 else year, month, dayOfYear - (153 * shifted + 2) / 5 + 1⟩

/-- Years that dates are kept for. -/
def yearLimits : Int × Int := (-262143, 262142)

def Date.isValid (d : Date) : Bool :=
  yearLimits.1 ≤ d.year && d.year ≤ yearLimits.2 && 1 ≤ d.month && d.month ≤ 12 && 1 ≤ d.day &&
    d.day ≤ daysInMonth d.year d.month

/-- From one to `width` digits. -/
def takeDigits? (width : Nat) (cs : List Char) : Option (Nat × List Char) :=
  let digits := (cs.take width).takeWhile Char.isDigit
  if digits.isEmpty then none else some (Number.ofDigits digits, cs.drop digits.length)

/-- From one to `width` digits, after any blanks. -/
def takeNumber? (width : Nat) (cs : List Char) : Option (Nat × List Char) :=
  takeDigits? width (trimStart cs)

/-- A year of up to four digits, or of any number of them after a sign. -/
def takeYear? (cs : List Char) : Option (Int × List Char) :=
  match trimStart cs with
  | '-' :: rest => (takeDigits? rest.length rest).map fun (n, rest) => (-(n : Int), rest)
  | '+' :: rest => (takeDigits? rest.length rest).map fun (n, rest) => ((n : Int), rest)
  | cs => (takeNumber? 4 cs).map fun (n, rest) => ((n : Int), rest)

/-- A mark after any blanks. -/
def takeMark? (mark : Char) (cs : List Char) : Option (List Char) :=
  match trimStart cs with
  | c :: rest => if c == mark then some rest else none
  | [] => none

/-- A fraction of a second in billionths; digits beyond the ninth are passed over. -/
def takeFraction? : List Char → Option (Nat × List Char)
  | '.' :: cs =>
    let digits := (cs.take 9).takeWhile Char.isDigit
    if digits.isEmpty then none
    else some (Number.ofDigits digits * Nat.pow 10 (9 - digits.length),
      (cs.drop digits.length).dropWhile Char.isDigit)
  | cs => some (0, cs)

def twoDigits? : List Char → Option (Nat × List Char)
  | a :: b :: rest =>
    if a.isDigit && b.isDigit then some (Number.ofDigits [a, b], rest) else none
  | _ => none

/-- The offset from UTC in seconds. -/
def takeOffset? (cs : List Char) : Option (Int × List Char) :=
  match cs with
  | [] => none
  | c :: rest =>
    if c == 'Z' || c == 'z' then some (0, rest)
    else if (cs.take 3).map Char.toUpper == ['U', 'T', 'C'] then some (0, cs.drop 3)
    else if c == '+' || c == '-' || c == Char.ofNat 0x2212 then do
      let (hours, rest) ← twoDigits? rest
      let (minutes, rest) ← twoDigits? (rest.dropWhile fun d => d == ':' || isBlank d)
      if 60 ≤ minutes || 24 ≤ hours then none
      else
        let seconds : Int := (hours * 3600 + minutes * 60 : Nat)
        return (if c == '+' then seconds else -seconds, rest)
    else none

/-- The date in UTC. -/
def date (t : Timestamp) : Date := .ofDayNumber (t.seconds / secondsPerDay)

/-- The point of a date, a time of day and an offset; none if its date in UTC is not kept. -/
def ofParts? (date : Date) (hour minute second nanos : Nat) (offset : Int) : Option Timestamp :=
  if date.isValid && hour < 24 && minute < 60 && second ≤ 60 then
    let (second, nanos) := if second == 60 then (59, nanos + nanosPerSecond) else (second, nanos)
    let t : Timestamp :=
      ⟨date.dayNumber * secondsPerDay + (hour * 3600 + minute * 60 + second : Nat) - offset, nanos⟩
    if t.date.isValid then some t else none
  else none

/-- Reads a point in time. Blanks may stand between the parts, and one instead of the `T`. -/
def parse? (cs : List Char) : Option Timestamp := do
  let (year, cs) ← takeYear? cs
  let (month, cs) ← takeNumber? 2 (← takeMark? '-' cs)
  let (day, cs) ← takeNumber? 2 (← takeMark? '-' cs)
  let (separator, cs) ← cs.head?.map (·, cs.tail)
  if separator != 't' && separator != 'T' && separator != ' ' then none
  else
    let (hour, cs) ← takeNumber? 2 cs
    let (minute, cs) ← takeNumber? 2 (← takeMark? ':' cs)
    let (second, cs) ← takeNumber? 2 (← takeMark? ':' cs)
    let (nanos, cs) ← takeFraction? cs
    let (offset, cs) ← takeOffset? (trimStart cs)
    if !(trimStart cs).isEmpty then none
    else ofParts? ⟨year, month, day⟩ hour minute second nanos offset

/-- Four digits, or a sign and at least four where they do not suffice. -/
def renderYear (y : Int) : String :=
  if 0 ≤ y && y ≤ 9999 then Number.padded 4 y.toNat
  else (if y < 0 then "-" else "+") ++ Number.padded 4 y.natAbs

/-- No fraction, or as many digits as it takes in steps of three. -/
def renderFraction (nanos : Nat) : String :=
  if nanos == 0 then ""
  else if nanos % 1000000 == 0 then "." ++ Number.padded 3 (nanos / 1000000)
  else if nanos % 1000 == 0 then "." ++ Number.padded 6 (nanos / 1000)
  else "." ++ Number.padded 9 nanos

/-- Writes a point in UTC. -/
def render (t : Timestamp) : String :=
  let date := t.date
  let second := (t.seconds % secondsPerDay).toNat
  let extra := t.nanoseconds / nanosPerSecond
  renderYear date.year ++ "-" ++ Number.padded 2 date.month ++ "-" ++ Number.padded 2 date.day ++
    "T" ++ Number.padded 2 (second / 3600) ++ ":" ++ Number.padded 2 (second / 60 % 60) ++ ":" ++
    Number.padded 2 (second % 60 + extra) ++ renderFraction (t.nanoseconds % nanosPerSecond) ++ "Z"

end Timestamp

end TestSynth
