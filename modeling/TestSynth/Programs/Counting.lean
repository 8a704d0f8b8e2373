import TestSynth.Number.Layout
import TestSynth.Programs.Lines
/-!
Sequences of numbers, and numbers as products.
-/
namespace TestSynth.Programs

open Process Tool
open Number (Binary64 Layout)

/-- A number in decimal: units of a power of ten, with so many places behind the point and so many
characters before it. -/
structure Decimal where
  units : Int
  places : Nat
deriving DecidableEq, Repr, Inhabited

namespace Decimal

/-- The number that a text writes. -/
def parse? (word : String) : Option Decimal :=
  let cs := word.toList.dropWhile fun c => c == ' ' || c == '\t'
  let (isNegative, body) := Binary64.cutSign cs
  let signed (n : Nat) : Int := if isNegative then -(n : Int) else n
  if body.take 2 == ['0', 'x'] || body.take 2 == ['0', 'X'] then
    (Number.parseHex? (body.drop 2)).map fun n => ⟨signed n, 0⟩
  else
    let whole := body.takeWhile Char.isDigit
    let behind := body.drop whole.length
    let (fraction, rest) := match behind with
      | '.' :: rest =>
        let digits := rest.takeWhile Char.isDigit
        (digits, rest.drop digits.length)
      | rest => ([], rest)
    if whole.isEmpty && fraction.isEmpty then none
    else
      let n := signed (Number.ofDigits (whole ++ fraction))
      match rest with
      | [] => some ⟨n, fraction.length⟩
      | e :: digits =>
        if e != 'e' && e != 'E' then none
        else
          let (isDown, digits) := Binary64.cutSign digits
          if digits.isEmpty || !digits.all Char.isDigit then none
          else
            let power := min (Number.ofDigits digits) 400
            if isDown then some ⟨n, fraction.length + power⟩
            else if power ≤ fraction.length then some ⟨n, fraction.length - power⟩
            else some ⟨n * Nat.pow 10 (power - fraction.length), 0⟩

/-- The units of a number with more places. -/
def unitsAt (d : Decimal) (places : Nat) : Int := d.units * Nat.pow 10 (places - d.places)

/-- Units written with a point. -/
def text (places : Nat) (units : Int) : String :=
  let digits := Nat.toDigits 10 units.natAbs
  let digits := List.replicate (places + 1 - digits.length) '0' ++ digits
  let whole := digits.take (digits.length - places)
  (if units < 0 then "-" else "") ++ String.ofList whole ++
    if places = 0 then "" else "." ++ String.ofList (digits.drop whole.length)

end Decimal

/-- What stands around the one directive of a format, and the directive. -/
structure NumberFormat where
  front : List Char
  layout : Layout
  letter : Char
  behind : List Char

namespace NumberFormat

/-- The text up to the next directive, and what follows that; two signs stand for one. -/
def plain : List Char → List Char × Option (List Char)
  | '%' :: '%' :: rest =>
    let (text, more) := plain rest
    ('%' :: text, more)
  | '%' :: rest => ([], some rest)
  | c :: rest =>
    let (text, more) := plain rest
    (c :: text, more)
  | [] => ([], none)

def parse (form : String) : Except String NumberFormat := do
  let (front, directive) := plain form.toList
  match directive with
  | none => .error ("format " ++ quote form ++ " has no % directive")
  | some rest =>
    let flags := rest.takeWhile fun c => "-+#0 '".toList.contains c
    let rest := rest.drop flags.length
    let width := rest.takeWhile Char.isDigit
    let rest := rest.drop width.length
    let (precision, rest) := match rest with
      | '.' :: more =>
        let digits := more.takeWhile Char.isDigit
        (some (Number.ofDigits digits), more.drop digits.length)
      | rest => (none, rest)
    match rest with
    | [] => .error ("format " ++ quote form ++ " ends in %")
    | letter :: rest =>
      if !"efgaEFGA".toList.contains letter then
        .error ("format " ++ quote form ++ " has unknown %" ++ String.singleton letter ++ " directive")
      let (behind, another) := plain rest
      if another.isSome then .error ("format " ++ quote form ++ " has too many % directives")
      return {
        front
        layout := {
          leftAligned := flags.contains '-'
          showsPlus := flags.contains '+'
          showsBlank := flags.contains ' '
          alternate := flags.contains '#'
          fillsZeros := flags.contains '0'
          width := Number.ofDigits width
          precision }
        letter
        behind }

def apply (f : NumberFormat) (places : Nat) (units : Int) : String :=
  let value := Binary64.ofDecimal (units < 0) units.natAbs (-(places : Int))
  String.ofList (f.front ++ f.layout.float f.letter value ++ f.behind)

end NumberFormat

/-- Numbers that a sequence holds at most. -/
def sequenceLimit : Nat := 2000000

/-- A number is no option, though a sign stands before it. -/
def isNumberWord (w : String) : Bool :=
  match w.toList with
  | '-' :: c :: _ => c.isDigit || c == '.'
  | _ => false

def seq : Program := fun _ arguments => do
  let table : OptionTable := {
    letters := "w", valued := "sft", anywhere := false
    names := [("equal-width", "w", .never), ("separator", "s", .always), ("format", "f", .always)] }
  let front := arguments.takeWhile (!isNumberWord ·)
  let o ← table.read front
  let words := o.operands ++ arguments.drop front.length
  let read (word : String) : ToolM Decimal := do
    match Decimal.parse? word with
    | some d => return d
    | none =>
      if word.toLower == "nan" then abortWithHint ("invalid 'not-a-number' argument: " ++ quote word)
      else abortWithHint ("invalid floating point argument: " ++ quote word)
  let (firstWord, stepWord, lastWord) ← match words with
    | [] => abortWithHint "missing operand"
    | [last] => pure ("1", "1", last)
    | [first, last] => pure (first, "1", last)
    | [first, step, last] => pure (first, step, last)
    | _ => abortWithHint ("extra operand " ++ quote (words.getD 3 ""))
  let first ← read firstWord
  let step ← read stepWord
  let last ← read lastWord
  if step.units = 0 then abortWithHint ("invalid Zero increment value: " ++ quote stepWord)
  let format ← match o.value? "f" with
    | none => pure none
    | some form => match NumberFormat.parse form with
      | .error message => abort message
      | .ok f => pure (some f)
  if format.isSome && o.has "w" then
    abortWithHint "format string may not be specified when printing equal width strings"
  let places := max first.places step.places
  let all := max places last.places
  let start := first.unitsAt all
  let by_ := step.unitsAt all
  let stop := last.unitsAt all
  let count := if by_ > 0 then (if stop < start then 0 else ((stop - start) / by_).toNat + 1)
    else if start < stop then 0 else ((start - stop) / (-by_)).toNat + 1
  let shown (units : Int) : Int := Int.tdiv units (Nat.pow 10 (all - places))
  let numbers := (List.range (min count sequenceLimit)).map fun (k : Nat) => shown (start + by_ * (k : Int))
  let texts := numbers.map fun n => match format with
    | some f => f.apply places n
    | none => Decimal.text places n
  let texts := if o.has "w" then
      let lastText := Decimal.text places (shown stop)
      let width := (texts ++ [lastText]).foldl (fun w t => max w t.length) 0
      texts.map fun t =>
        let (sign, digits) := if t.startsWith "-" then ("-", (t.drop 1).toString) else ("", t)
        sign ++ String.ofList (List.replicate (width - t.length) '0') ++ digits
    else texts
  if !texts.isEmpty then
    print (String.intercalate ((o.value? "s").getD "\n") texts ++ "\n")

/-- The prime factors of a number, from a candidate on; the first argument bounds the steps. -/
def factorsFrom : Nat → Nat → Nat → List Nat
  | 0, _, n => if 1 < n then [n] else []
  | fuel + 1, d, n =>
    if n < d * d then if 1 < n then [n] else []
    else if n % d = 0 then d :: factorsFrom fuel d (n / d)
    else factorsFrom fuel (if d = 2 then 3 else d + 2) n

def factor : Program := fun _ arguments => do
  let o ← ({ letters := "h" } : OptionTable).read arguments
  let words ← if o.operands.isEmpty then
      match ← content "-" with
      | .ok cs => pure ((Text.words cs).map String.ofList)
      | .error _ => pure []
    else pure o.operands
  for word in words do
    match count? word with
    | some n =>
      let factors := factorsFrom 200000 2 n
      printLine (toString n ++ ":" ++ String.join (factors.map fun f => " " ++ toString f))
    | none => complain (quote word ++ " is not a valid positive integer")

end TestSynth.Programs
