import TestSynth.Convergence.Timestamp
import TestSynth.Json.Parser
/-!
The single values of a TOML document: strings, numbers, booleans and dates.
-/
namespace TestSynth.Toml

open Number (Binary64)
open Timestamp (Date)

abbrev Reader (α : Type) := List Char → Option (α × List Char)

/-- A character that may stand in text: no control character but the tab. -/
def isTextChar (c : Char) : Bool := c == '\t' || (' ' ≤ c && c != Char.ofNat 0x7f)

/-- What follows an expected beginning. -/
def skip? (start : String) (cs : List Char) : Option (List Char) :=
  if start.toList.isPrefixOf cs then some (cs.drop start.length) else none

def isSpace (c : Char) : Bool := c == ' ' || c == '\t'

def skipSpace (cs : List Char) : List Char := cs.dropWhile isSpace

/-- What follows a line end. -/
def skipLineEnd? : List Char → Option (List Char)
  | '\n' :: cs => some cs
  | '\r' :: '\n' :: cs => some cs
  | _ => none

/-- A character given by a fixed number of hexadecimal digits. -/
def readCode? (count : Nat) : Reader Char := fun cs => do
  let digits := cs.take count
  if digits.length < count then none
  else
    let n ← Number.parseHex? digits
    if n < 0xd800 || (0xdfff < n && n < 0x110000) then some (Char.ofNat n, cs.drop count) else none

/-- The character after a backslash. -/
def readEscape? : Reader Char
  | 'b' :: cs => some (Char.ofNat 8, cs)
  | 't' :: cs => some ('\t', cs)
  | 'n' :: cs => some ('\n', cs)
  | 'f' :: cs => some (Char.ofNat 12, cs)
  | 'r' :: cs => some ('\r', cs)
  | '"' :: cs => some ('"', cs)
  | '\\' :: cs => some ('\\', cs)
  | 'u' :: cs => readCode? 4 cs
  | 'U' :: cs => readCode? 8 cs
  | _ => none

/-- The rest of a string with escapes; the first argument bounds its length. -/
def readBasic? : Nat → Reader (List Char)
  | 0, _ => none
  | n + 1, cs => match cs with
    | '"' :: rest => some ([], rest)
    | '\\' :: rest => do
      let (c, rest) ← readEscape? rest
      (readBasic? n rest).map fun (s, rest) => (c :: s, rest)
    | c :: rest =>
      if isTextChar c then (readBasic? n rest).map fun (s, rest) => (c :: s, rest) else none
    | [] => none

/-- The rest of a string without escapes. -/
def readLiteral? : Reader (List Char)
  | [] => none
  | c :: cs =>
    if c == '\'' then some ([], cs)
    else if isTextChar c then (readLiteral? cs).map fun (s, rest) => (c :: s, rest)
    else none

def skipBlanks (cs : List Char) : List Char :=
  cs.dropWhile fun c => isSpace c || c == '\n' || c == '\r'

/-- What follows a backslash at the end of a line, with the blanks after it. -/
def skipContinuation? (cs : List Char) : Option (List Char) :=
  (skipLineEnd? (skipSpace cs)).map skipBlanks

/-- The rest of a string over several lines that ends in three quotes; one or two more can stand
before them. The first argument bounds its length. -/
def readLines? (quote : Char) (escapes : Bool) : Nat → Reader (List Char)
  | 0, _ => none
  | n + 1, cs =>
    let quotes := (cs.takeWhile (· == quote)).length
    let more (c : Char) (rest : List Char) : Option (List Char × List Char) :=
      (readLines? quote escapes n rest).map fun (s, rest) => (c :: s, rest)
    if 3 ≤ quotes then
      some (List.replicate (min quotes 5 - 3) quote, cs.drop (min quotes 5))
    else match cs with
      | [] => none
      | c :: rest =>
        if escapes && c == '\\' then
          match skipContinuation? rest with
          | some rest => readLines? quote escapes n rest
          | none => (readEscape? rest).bind fun (c, rest) => more c rest
        else match skipLineEnd? cs with
          | some rest => more '\n' rest
          | none => if isTextChar c then more c rest else none

/-- Opens a string over several lines; a line end right after the quotes is no part of it. -/
def openLines (cs : List Char) : List Char := (skipLineEnd? cs).getD cs

def readString? : Reader (List Char) := fun cs =>
  match cs with
  | '"' :: '"' :: '"' :: rest => readLines? '"' true (rest.length + 1) (openLines rest)
  | '\'' :: '\'' :: '\'' :: rest => readLines? '\'' false (rest.length + 1) (openLines rest)
  | '"' :: rest => readBasic? (rest.length + 1) rest
  | '\'' :: rest => readLiteral? rest
  | _ => none

/-- Digits after the first; single underscores may stand between them. -/
def moreDigits? (isDigit : Char → Bool) : Reader (List Char)
  | [] => some ([], [])
  | '_' :: c :: cs =>
    if isDigit c then (moreDigits? isDigit cs).map fun (ds, rest) => (c :: ds, rest) else none
  | c :: cs =>
    if isDigit c then (moreDigits? isDigit cs).map fun (ds, rest) => (c :: ds, rest)
    else if c == '_' then none else some ([], c :: cs)

def readDigits? (isDigit : Char → Bool) : Reader (List Char)
  | [] => none
  | c :: cs =>
    if isDigit c then (moreDigits? isDigit cs).map fun (ds, rest) => (c :: ds, rest) else none

/-- A sign, if there is one; true for a minus. -/
def takeSign : List Char → Bool × List Char
  | '-' :: cs => (true, cs)
  | '+' :: cs => (false, cs)
  | cs => (false, cs)

/-- The digits of a decimal number, which starts with zero only if it is zero. -/
def readWhole? : Reader (List Char)
  | '0' :: cs => some (['0'], cs)
  | cs => readDigits? Char.isDigit cs

/-- Whole numbers take 64 bits with sign. -/
def wholeLimit : Nat := 1 <<< 63

def whole? (negative : Bool) (n : Nat) : Option Json :=
  if negative then if n ≤ wholeLimit then some (.int (-(n : Int))) else none
  else if n < wholeLimit then some (.nat n) else none

def digitIn (base : Nat) (c : Char) : Bool := (Number.hexValue? c).any (· < base)

/-- A number in another base than ten. -/
def readBased? (base : Nat) : Reader Json := fun cs => do
  let (digits, rest) ← readDigits? (digitIn base) cs
  let n := digits.foldl (fun n c => n * base + (Number.hexValue? c).getD 0) 0
  return (← whole? false n, rest)

/-- The fraction after a point. -/
def readFraction? : Reader (List Char)
  | '.' :: cs => readDigits? Char.isDigit cs
  | cs => some ([], cs)

/-- The exponent after its letter. -/
def readExponent? : Reader (Option Int)
  | [] => some (none, [])
  | c :: cs =>
    if c == 'e' || c == 'E' then do
      let (negative, cs) := takeSign cs
      let (digits, rest) ← readDigits? Char.isDigit cs
      let n : Int := Number.ofDigits digits
      return (some (if negative then -n else n), rest)
    else some (none, c :: cs)

/-- Exponents are cut at this size, far beyond all numbers. -/
def exponentLimit : Int := 100000

def clampExponent (e : Int) : Int := max (-exponentLimit) (min exponentLimit e)

/-- A number with a fraction or an exponent has to stay below infinity on the positive side. -/
def fractional? (negative : Bool) (digits fraction : List Char) (exponent : Int) : Option Json :=
  let value := Binary64.ofDecimal negative (Number.ofDigits (digits ++ fraction))
    (clampExponent exponent - fraction.length)
  if value == .infinite false then none else some (.float value)

def readDecimal? : Reader Json := fun cs => do
  let (negative, cs) := takeSign cs
  let (digits, cs) ← readWhole? cs
  let (fraction, cs) ← readFraction? cs
  let (exponent, cs) ← readExponent? cs
  if fraction.isEmpty && exponent.isNone then
    return (← whole? negative (Number.ofDigits digits), cs)
  else return (← fractional? negative digits fraction (exponent.getD 0), cs)

/-- The numbers that are written in letters. -/
def readNamed? : Reader Json := fun cs => do
  let (negative, cs) := takeSign cs
  match skip? "inf" cs with
  | some rest => return (.float (.infinite negative), rest)
  | none => return (.float .undefined, ← skip? "nan" cs)

/-- A given number of digits that make a number within limits. -/
def readPart? (count low high : Nat) : Reader Nat := fun cs =>
  let digits := cs.take count
  let n := Number.ofDigits digits
  if digits.length == count && digits.all Char.isDigit && low ≤ n && n ≤ high then
    some (n, cs.drop count)
  else none

def skipDate? (cs : List Char) : Option (List Char) := do
  let (year, cs) ← readPart? 4 0 9999 cs
  let (month, cs) ← readPart? 2 1 12 (← skip? "-" cs)
  let (day, cs) ← readPart? 2 1 31 (← skip? "-" cs)
  if (Date.mk year month day).isValid then some cs else none

def skipTime? (cs : List Char) : Option (List Char) := do
  let (_, cs) ← readPart? 2 0 23 cs
  let (_, cs) ← readPart? 2 0 59 (← skip? ":" cs)
  let (_, cs) ← readPart? 2 0 60 (← skip? ":" cs)
  match cs with
  | '.' :: rest => if rest.head?.any Char.isDigit then some (rest.dropWhile Char.isDigit) else none
  | _ => return cs

def skipOffset (cs : List Char) : List Char :=
  match cs with
  | c :: rest =>
    if c == 'Z' || c == 'z' then rest
    else if c == '+' || c == '-' then
      (do let (_, cs) ← readPart? 2 0 23 rest
          let (_, cs) ← readPart? 2 0 59 (← skip? ":" cs)
          return cs).getD cs
    else cs
  | [] => []

/-- What follows the time of a date, or the date when none follows it. -/
def skipTimeOfDate (cs : List Char) : List Char :=
  match cs with
  | c :: rest =>
    if c == 'T' || c == 't' || c == ' ' then
      match skipTime? rest with
      | some after => skipOffset after
      | none => cs
    else cs
  | [] => []

/-- What is kept of a date or a time: a record with a field that no setting has. -/
def moment : Json := .record [("moment", .valueless)]

def readMoment? : Reader Json := fun cs =>
  match skipDate? cs with
  | some rest => some (moment, skipTimeOfDate rest)
  | none => (skipTime? cs).map (moment, ·)

def readNumber? : Reader Json := fun cs =>
  (readMoment? cs).orElse fun _ => match cs with
    | '0' :: 'x' :: rest => readBased? 16 rest
    | '0' :: 'o' :: rest => readBased? 8 rest
    | '0' :: 'b' :: rest => readBased? 2 rest
    | _ => (readDecimal? cs).orElse fun _ => readNamed? cs

def readScalar? : Reader Json := fun cs =>
  match cs with
  | [] => none
  | c :: _ =>
    if c == '"' || c == '\'' then
      (readString? cs).map fun (s, rest) => (.text (String.ofList s), rest)
    else if c == 't' then (skip? "true" cs).map (.bool true, ·)
    else if c == 'f' then (skip? "false" cs).map (.bool false, ·)
    else readNumber? cs

end TestSynth.Toml
