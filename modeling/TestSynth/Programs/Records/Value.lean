import TestSynth.Number.Layout
import TestSynth.Text.Classes
/-!
Values of records: numbers, texts, and texts that were read and look like numbers. How a value is used
decides what it is taken for.
-/
namespace TestSynth.Programs.Records

open Number (Binary64 Layout)

inductive Value where
  /-- Nothing was stored yet. -/
  | none
  | number (x : Binary64)
  | text (s : String)
  /-- A text from outside that looks like a number. -/
  | numeral (s : String) (x : Binary64)
deriving Inhabited

def isSpace (c : Char) : Bool := c == ' ' || ('\t' ≤ c && c ≤ '\r')

/-- The number at the front of a text; zero if there is none. -/
def numberOf (s : String) : Binary64 := ((Binary64.readFront? s.toList).map (·.1)).getD .zero

/-- A text from outside. In decimal and without anything else around it but blanks it is a numeral. -/
def Value.ofInput (s : String) : Value :=
  let cs := s.toList
  let plain := cs.all fun c => c.isDigit || isSpace c || c == '.' || c == '+' || c == '-' || c == 'e' || c == 'E'
  if !plain then .text s
  else match Binary64.readFront? cs with
    | some (x, rest) => if rest.all isSpace then .numeral s x else .text s
    | Option.none => .text s

namespace Value

def toNumber : Value → Binary64
  | none => .zero
  | number x => x
  | text s => numberOf s
  | numeral _ x => x

/-- A whole number as it is written; none for what is not whole or too large. -/
def wholeText? (x : Binary64) : Option String :=
  match x.truncate? with
  | some n =>
    if !Binary64.same (Binary64.ofInt n) x || UInt64.size < n || n < Int64.minValue.toInt then Option.none
    else some (toString (min n (UInt64.size - 1)))
  | Option.none => Option.none

/-- A number that is not whole, in the form that a directive asks for. -/
def formatted (form : String) (x : Binary64) : String :=
  match x with
  | .undefined => "-nan"
  | _ =>
    let cs := form.toList.drop 1
    let flags := cs.takeWhile fun c => "-+ #0".toList.contains c
    let cs := cs.drop flags.length
    let width := cs.takeWhile Char.isDigit
    let cs := cs.drop width.length
    let (precision, cs) := match cs with
      | '.' :: rest =>
        let digits := rest.takeWhile Char.isDigit
        (some (Number.ofDigits digits), rest.drop digits.length)
      | cs => (Option.none, cs)
    let layout : Layout := { width := Number.ofDigits width, precision, fillsZeros := flags.contains '0',
                             leftAligned := flags.contains '-', showsPlus := flags.contains '+' }
    match cs with
    | 'd' :: rest | 'i' :: rest =>
      String.ofList (layout.signed ((x.truncate?).getD 0) ++ rest)
    | letter :: rest => String.ofList (layout.float letter x ++ rest)
    | [] => form

def textOfNumber (form : String) (x : Binary64) : String :=
  (wholeText? x).getD (formatted form x)

def toText (form : String) : Value → String
  | none => ""
  | number x => textOfNumber form x
  | text s | numeral s _ => s

/-- What of a value counts as true: a number that is not zero, a text that is not empty. -/
def isTrue : Value → Bool
  | none => false
  | number x | numeral _ x => !Binary64.same x .zero
  | text s => !s.isEmpty

def isText : Value → Bool
  | text _ => true
  | _ => false

def ofBool (b : Bool) : Value := number (Binary64.ofNat (if b then 1 else 0))

def ofNat (n : Nat) : Value := number (Binary64.ofNat n)

/-- The order of two values: of numbers unless one of them is a text. -/
def compare (form : String) (a b : Value) : Option Ordering :=
  if a.isText || b.isText then some (Ord.compare (a.toText form) (b.toText form))
  else Binary64.compare? a.toNumber b.toNumber

end Value

end TestSynth.Programs.Records
