import TestSynth.Number.Shortest
/-!
Numbers and texts set into fields of a width, as a short directive asks for them.
-/
namespace TestSynth.Number

/-- How a value is set: flags, the least width, and the digits or characters wanted. -/
structure Layout where
  leftAligned : Bool := false
  showsPlus : Bool := false
  showsBlank : Bool := false
  /-- Shows the base of a number, or a point where no digits follow it. -/
  alternate : Bool := false
  fillsZeros : Bool := false
  width : Nat := 0
  precision : Option Nat := none
deriving DecidableEq, Repr, Inhabited

namespace Layout

/-- Fills a field: a sign or a base stays in front of zeros. -/
def field (l : Layout) (zeros : Bool) (front body : List Char) : List Char :=
  let missing := l.width - (front.length + body.length)
  if l.leftAligned then front ++ body ++ List.replicate missing ' '
  else if zeros then front ++ List.replicate missing '0' ++ body
  else List.replicate missing ' ' ++ front ++ body

/-- A text, of which no more than the precision is shown. -/
def text (l : Layout) (cs : List Char) : List Char :=
  let shown := match l.precision with
    | some n => cs.take n
    | none => cs
  l.field false [] shown

def sign (l : Layout) (isNegative : Bool) : List Char :=
  if isNegative then ['-'] else if l.showsPlus then ['+'] else if l.showsBlank then [' '] else []

/-- The digits of a whole number, with zeros in front up to the precision; zero has none when no
digits are asked for. -/
def wholeDigits (l : Layout) (digits : List Char) : List Char :=
  match l.precision with
  | some n => if n = 0 && digits == ['0'] then [] else List.replicate (n - digits.length) '0' ++ digits
  | none => digits

def usesZeros (l : Layout) : Bool := l.fillsZeros && l.precision.isNone && !l.leftAligned

/-- A whole number in decimal with its sign. -/
def signed (l : Layout) (n : Int) : List Char :=
  l.field l.usesZeros (l.sign (n < 0)) (l.wholeDigits (Nat.toDigits 10 n.natAbs))

/-- A whole number without a sign in a base; the alternate form shows the base. -/
def unsigned (l : Layout) (base : Nat) (isUpper : Bool) (n : Nat) : List Char :=
  let digits := l.wholeDigits (Nat.toDigits base n)
  let digits := if isUpper then digits.map Char.toUpper else digits
  if !l.alternate then l.field l.usesZeros [] digits
  else if base = 8 then
    l.field l.usesZeros [] (if digits.head? == some '0' then digits else '0' :: digits)
  else if base = 16 && n ≠ 0 then
    l.field l.usesZeros (if isUpper then ['0', 'X'] else ['0', 'x']) digits
  else l.field l.usesZeros [] digits

/-- Digits of a whole number with a point before the last `places`. -/
def withPoint (l : Layout) (places n : Nat) : List Char :=
  let digits := Nat.toDigits 10 n
  let digits := List.replicate (places + 1 - digits.length) '0' ++ digits
  let whole := digits.take (digits.length - places)
  if places = 0 then whole ++ if l.alternate then ['.'] else []
  else whole ++ '.' :: digits.drop whole.length

/-- The number of `10 ^ power` that is nearest to units. -/
def scaled (units : Nat) (power : Int) : Nat :=
  Binary64.divideToEven (units * Nat.pow 10 (-power).toNat)
    (Nat.pow 10 power.toNat * Binary64.unitsPerOne)

/-- The first digits of a number of units, one more than `places`, and the power of ten of the
first. -/
def leadingDigits (units places : Nat) : Nat × Int :=
  if units = 0 then (0, 0)
  else
    let lead := Binary64.leadingPower units
    let digits := scaled units (lead - places)
    if Nat.pow 10 (places + 1) ≤ digits then (digits / 10, lead + 1) else (digits, lead)

def exponentText (isUpper : Bool) (power : Int) : List Char :=
  let digits := Nat.toDigits 10 power.natAbs
  (if isUpper then 'E' else 'e') :: (if power < 0 then '-' else '+') ::
    (if digits.length < 2 then '0' :: digits else digits)

def fixedBody (l : Layout) (units places : Nat) : List Char :=
  l.withPoint places (scaled units (-(places : Int)))

def exponentBody (l : Layout) (isUpper : Bool) (units places : Nat) : List Char :=
  let (digits, power) := leadingDigits units places
  l.withPoint places digits ++ exponentText isUpper power

/-- Digits behind a point without zeros at the end. -/
def dropZeros (body : List Char) : List Char :=
  if body.contains '.' then
    let cut := (body.reverse.dropWhile (· == '0')).reverse
    if cut.getLast? == some '.' then cut.dropLast else cut
  else body

/-- The shorter of both forms, with so many digits that count. -/
def generalBody (l : Layout) (isUpper : Bool) (units : Nat) : List Char :=
  let count := max 1 (l.precision.getD 6)
  let (digits, power) := leadingDigits units (count - 1)
  if power < -4 || Int.ofNat count ≤ power then
    let body := l.withPoint (count - 1) digits
    (if l.alternate then body else dropZeros body) ++ exponentText isUpper power
  else
    let body := l.fixedBody units (Int.ofNat count - 1 - power).toNat
    if l.alternate then body else dropZeros body

/-- A binary number by a letter: `f` for a fixed point, `e` for an exponent, `g` for the shorter of
them. -/
def float (l : Layout) (letter : Char) (x : Binary64) : List Char :=
  let isUpper := letter.isUpper
  let cased (s : String) : List Char := if isUpper then s.toList.map Char.toUpper else s.toList
  match x with
  | .undefined => l.field false (l.sign false) (cased "nan")
  | .infinite negative => l.field false (l.sign negative) (cased "inf")
  | .finite negative m e =>
    let units := m <<< e
    let body := match letter.toLower with
      | 'f' => l.fixedBody units (l.precision.getD 6)
      | 'e' => l.exponentBody isUpper units (l.precision.getD 6)
      | _ => l.generalBody isUpper units
    l.field (l.fillsZeros && !l.leftAligned) (l.sign negative) body

end Layout

namespace Binary64

/-- The number that a text starts with, and what follows it; none if it starts with no number.
Blanks in front do not count. -/
def readFront? (cs : List Char) : Option (Binary64 × List Char) :=
  let cs := cs.dropWhile fun c => c == ' ' || ('\t' ≤ c && c ≤ '\r')
  let (negative, body) := cutSign cs
  let lower := body.map Char.toLower
  if "infinity".toList.isPrefixOf lower then some (.infinite negative, body.drop 8)
  else if "inf".toList.isPrefixOf lower then some (.infinite negative, body.drop 3)
  else if "nan".toList.isPrefixOf lower then some (.undefined, body.drop 3)
  else
    let isHex (c : Char) : Bool := (hexValue? c).isSome
    let hexDigits := (body.drop 2).takeWhile isHex
    if "0x".toList.isPrefixOf lower && !hexDigits.isEmpty then
      let value := ofNat ((parseHex? hexDigits).getD 0)
      some (if negative then value.negate else value, body.drop (2 + hexDigits.length))
    else
      let whole := body.takeWhile Char.isDigit
      let behind := body.drop whole.length
      let (fraction, behind) := match behind with
        | '.' :: rest =>
          let digits := rest.takeWhile Char.isDigit
          if whole.isEmpty && digits.isEmpty then ([], behind) else (digits, rest.drop digits.length)
        | rest => ([], rest)
      if whole.isEmpty && fraction.isEmpty then none
      else
        let (exponent, rest) := match behind with
          | e :: rest =>
            if e == 'e' || e == 'E' then
              let (isDown, digits) := cutSign rest
              let digits := digits.takeWhile Char.isDigit
              let length := (rest.length - (cutSign rest).2.length) + digits.length
              if digits.isEmpty then ((0 : Int), behind)
              else
                let n := Int.ofNat (min (ofDigits digits) 99999)
                (if isDown then -n else n, rest.drop length)
            else (0, behind)
          | [] => (0, behind)
        some ((Literal.mk negative whole fraction exponent).value, rest)

/-- The whole part toward zero; none for what is not finite. -/
def truncate? : Binary64 → Option Int
  | .finite negative m e =>
    let n := Int.ofNat (m <<< e / unitsPerOne)
    some (if negative then -n else n)
  | _ => none

def ofInt (n : Int) : Binary64 := if n < 0 then (ofNat n.natAbs).negate else ofNat n.natAbs

end Binary64

end TestSynth.Number
