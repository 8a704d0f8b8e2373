import TestSynth.Programs.Records.Value
/-!
Values set into a text by directives.
-/
namespace TestSynth.Programs.Records

open Number (Binary64 Layout)

/-- What is wrong with a format or the values for it. -/
inductive FormatFault where
  | tooFew
  | badDirective (number : Nat)

/-- The message about a format that was given to a function. -/
def FormatFault.message (function format : String) : FormatFault → String
  | tooFew => "not enough arguments passed to " ++ function ++ "(\"" ++ format ++ "\")"
  | badDirective n =>
    "improper conversion(number " ++ toString n ++ ") in " ++ function ++ "(\"" ++ format ++ "\")"

/-- A number as a whole number of 64 bits, with or without a sign. -/
def wholeOf : Binary64 → Int
  | .undefined => Int64.minValue.toInt
  | .infinite negative => if negative then Int64.minValue.toInt else UInt64.size - 1
  | x => max Int64.minValue.toInt (min (UInt64.size - 1) ((x.truncate?).getD 0))

/-- The writing of a format: what was written, backwards, and what is left to be set. -/
structure Formatting where
  output : List Char := []
  values : List Value
  /-- Directives so far. -/
  count : Nat := 0
  fault : Option FormatFault := none

namespace Formatting

/-- A width or a precision: digits, or a star for a value. -/
def size (f : Formatting) (cs : List Char) : Int × List Char × Formatting :=
  match cs with
  | '*' :: rest =>
    (wholeOf ((f.values.head?.map Value.toNumber).getD .zero), rest, { f with values := f.values.drop 1 })
  | cs => (Number.ofDigits (cs.takeWhile Char.isDigit), cs.dropWhile Char.isDigit, f)

/-- Sets one value as a letter says. -/
def setValue (form : String) (layout : Layout) (letter : Char) (v : Value) : Option (List Char) :=
  let n := wholeOf v.toNumber
  let bits : Nat := if n < 0 then (n + UInt64.size).toNat else n.toNat
  match letter with
  | 's' => some (layout.text (v.toText form).toList)
  | 'c' =>
    let c := match v with
      | .number x | .numeral _ x => Char.ofNat ((wholeOf x % 256).toNat)
      | v => ((v.toText form).toList.head?).getD (Char.ofNat 0)
    some ({ layout with precision := none }.text [c])
  | 'd' | 'i' => some (layout.signed n)
  | 'o' => some (layout.unsigned 8 false bits)
  | 'x' => some (layout.unsigned 16 false bits)
  | 'X' => some (layout.unsigned 16 true bits)
  | 'u' => some ({ layout with alternate := false }.unsigned 10 false bits)
  | 'e' | 'f' | 'g' | 'E' | 'F' | 'G' =>
    let x := v.toNumber
    some (match x with
      | .undefined => layout.text (if letter.isUpper then "-NAN".toList else "-nan".toList)
      | x => layout.float letter x)
  | _ => none

/-- Writes a directive, of which the sign was read, and gives what follows it. -/
def directive (form : String) (f : Formatting) (cs : List Char) : List Char × Formatting :=
  let flags := cs.takeWhile fun c => "-+ #0".toList.contains c
  let (width, cs, f) := f.size (cs.drop flags.length)
  let (precision, cs, f) : Option Nat × List Char × Formatting := match cs with
    | '.' :: rest =>
      let (n, rest, f) := f.size rest
      (if n < 0 then none else some n.toNat, rest, f)
    | cs => (none, cs, f)
  let layout : Layout := {
    leftAligned := flags.contains '-' || width < 0
    showsPlus := flags.contains '+'
    showsBlank := flags.contains ' '
    alternate := flags.contains '#'
    fillsZeros := flags.contains '0'
    width := width.natAbs
    precision }
  let cs := match cs with
    | c :: rest => if c == 'l' || c == 'h' then rest else cs
    | [] => []
  let f := { f with count := f.count + 1 }
  match f.values, cs with
  | [], _ => ([], { f with fault := some .tooFew })
  | v :: values, letter :: rest => match setValue form layout letter v with
    | some text => (rest, { f with output := text.reverse ++ f.output, values })
    | none => ([], { f with fault := some (.badDirective f.count) })
  | _, [] => ([], { f with fault := some (.badDirective f.count) })

/-- Writes a format. The first argument bounds its length. -/
def write (form : String) : Nat → List Char → Formatting → Formatting
  | 0, _, f | _, [], f => f
  | n + 1, '%' :: '%' :: rest, f => write form n rest { f with output := '%' :: f.output }
  | n + 1, '%' :: rest, f =>
    let (rest, f) := directive form f rest
    if f.fault.isSome then f else write form n rest f
  | n + 1, c :: rest, f => write form n rest { f with output := c :: f.output }

end Formatting

/-- The text that a format makes of values, as far as it goes, and what is wrong with it. -/
def formatValues (form format : String) (values : List Value) : List Char × Option FormatFault :=
  let f := Formatting.write form format.length format.toList { values }
  (f.output.reverse, f.fault)

end TestSynth.Programs.Records
