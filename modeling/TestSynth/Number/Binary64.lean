import TestSynth.Number.Decimal
/-!
Binary floating point with 53 significant bits, in exact natural arithmetic. The unit is the
smallest positive number, 2^-1074, so that every finite number is a natural multiple of it. Each
operation computes the exact result and rounds it once, to the nearest number and to the even
significand on a tie.
-/
namespace TestSynth.Number

/-- A number, an infinity or the undefined result. A finite number is
`significand * 2 ^ exponent` units; the significand lies below 2^53, and reaches 2^52 unless the
exponent is zero. -/
inductive Binary64 where
  | undefined
  | infinite (negative : Bool)
  | finite (negative : Bool) (significand exponent : Nat)
deriving DecidableEq, Repr

namespace Binary64

def unitsPerOne : Nat := 1 <<< 1074

def zero : Binary64 := .finite false 0 0

instance : Inhabited Binary64 := ⟨zero⟩

/-- The quotient rounded to the nearest natural number, ties to even. -/
def divideToEven (num den : Nat) : Nat :=
  let q := num / den
  let twice := 2 * (num % den)
  if twice < den then q
  else if den < twice then q + 1
  else q + q % 2

/-- The number nearest to `num / den` units. -/
def ofUnits (negative : Bool) (num den : Nat) : Binary64 :=
  let whole := num / den
  let exponent := if whole < 1 <<< 53 then 0 else whole.log2 - 52
  let significand := divideToEven num (den <<< exponent)
  let (significand, exponent) :=
    if significand = 1 <<< 53 then (1 <<< 52, exponent + 1) else (significand, exponent)
  if 2045 < exponent then .infinite negative else .finite negative significand exponent

def ofNat (n : Nat) : Binary64 := ofUnits false (n * unitsPerOne) 1

def isNegative : Binary64 → Bool
  | .undefined => false
  | .infinite negative => negative
  | .finite negative _ _ => negative

def negate : Binary64 → Binary64
  | .undefined => .undefined
  | .infinite negative => .infinite (!negative)
  | .finite negative m e => .finite (!negative) m e

/-- A finite number in units, with its sign. -/
def signedUnits (negative : Bool) (m e : Nat) : Int :=
  if negative then -(Int.ofNat (m <<< e)) else Int.ofNat (m <<< e)

def add : Binary64 → Binary64 → Binary64
  | .undefined, _ | _, .undefined => .undefined
  | .infinite n, .infinite n' => if n = n' then .infinite n else .undefined
  | .infinite n, .finite .. => .infinite n
  | .finite .., .infinite n => .infinite n
  | .finite n m e, .finite n' m' e' =>
    let sum := signedUnits n m e + signedUnits n' m' e'
    if sum = 0 then .finite (n && n') 0 0 else ofUnits (sum < 0) sum.natAbs 1

def sub (a b : Binary64) : Binary64 := add a (negate b)

def mul : Binary64 → Binary64 → Binary64
  | .undefined, _ | _, .undefined => .undefined
  | .infinite n, .infinite n' => .infinite (n != n')
  | .infinite n, .finite n' m _ | .finite n' m _, .infinite n =>
    if m = 0 then .undefined else .infinite (n != n')
  | .finite n m e, .finite n' m' e' =>
    ofUnits (n != n') (m <<< e * m' <<< e') unitsPerOne

def div : Binary64 → Binary64 → Binary64
  | .undefined, _ | _, .undefined => .undefined
  | .infinite _, .infinite _ => .undefined
  | .infinite n, .finite n' _ _ => .infinite (n != n')
  | .finite n _ _, .infinite n' => .finite (n != n') 0 0
  | .finite n m e, .finite n' m' e' =>
    if m' = 0 then if m = 0 then .undefined else .infinite (n != n')
    else ofUnits (n != n') (m <<< e * unitsPerOne) (m' <<< e')

/-- The order on numbers; none when either is undefined. The zeros are equal. -/
def compare? : Binary64 → Binary64 → Option Ordering
  | .undefined, _ | _, .undefined => none
  | .infinite n, .infinite n' =>
    some (if n = n' then .eq else if n then .lt else .gt)
  | .infinite n, .finite .. => some (if n then .lt else .gt)
  | .finite .., .infinite n => some (if n then .gt else .lt)
  | .finite n m e, .finite n' m' e' =>
    some (compare (signedUnits n m e) (signedUnits n' m' e'))

def lt (a b : Binary64) : Bool := compare? a b == some .lt

def le (a b : Binary64) : Bool := compare? a b == some .lt || compare? a b == some .eq

def same (a b : Binary64) : Bool := compare? a b == some .eq

/-- The larger number; an undefined operand counts for nothing. -/
def max (a b : Binary64) : Binary64 :=
  match a with
  | .undefined => b
  | _ => if lt a b then b else a

/-- The nearest whole number, halves away from zero, held to the words of 64 bits. -/
def roundToWord64 : Binary64 → UInt64
  | .undefined => 0
  | .infinite negative => if negative then 0 else UInt64.ofNat (UInt64.size - 1)
  | .finite negative m e =>
    if negative then 0
    else (min ((2 * m <<< e + unitsPerOne) / (2 * unitsPerOne)) (UInt64.size - 1)).toUInt64

/-- The 64 bits of the interchange format; every undefined result has the same. -/
def bits : Binary64 → Nat
  | .undefined => 0x7ff8000000000000
  | .infinite negative => 0x7ff0000000000000 + (if negative then 1 <<< 63 else 0)
  | .finite negative m e =>
    (if m < 1 <<< 52 then m else (e + 1) <<< 52 + (m - 1 <<< 52)) + (if negative then 1 <<< 63 else 0)

/-- The number nearest to `digits * 10 ^ power`. Powers that decide the answer alone are not
computed. -/
def ofDecimal (negative : Bool) (digits : Nat) (power : Int) : Binary64 :=
  let magnitude := Int.ofNat (toString digits).length + power
  if digits = 0 then .finite negative 0 0
  else if 310 < magnitude then .infinite negative
  else if magnitude < -330 then .finite negative 0 0
  else if 0 ≤ power then ofUnits negative (digits * Nat.pow 10 power.toNat * unitsPerOne) 1
  else ofUnits negative (digits * unitsPerOne) (Nat.pow 10 (-power).toNat)

/-- A decimal literal cut into its parts. -/
structure Literal where
  negative : Bool := false
  whole : List Char := []
  fraction : List Char := []
  exponent : Int := 0
deriving DecidableEq, Repr

def Literal.value (l : Literal) : Binary64 :=
  ofDecimal l.negative (ofDigits (l.whole ++ l.fraction)) (l.exponent - l.fraction.length)

/-- A whole number with an optional sign, which has to end the text. -/
def parseExponent? (cs : List Char) : Option Int :=
  let (negative, digits) := match cs with
    | '-' :: rest => (true, rest)
    | '+' :: rest => (false, rest)
    | _ => (false, cs)
  if digits.isEmpty || !digits.all Char.isDigit then none
  else
    let n := Int.ofNat (ofDigits digits)
    some (if negative then -n else n)

def cutSign : List Char → Bool × List Char
  | '-' :: rest => (true, rest)
  | '+' :: rest => (false, rest)
  | cs => (false, cs)

/-- Digits with an optional point, at least one digit in all, and an optional exponent. -/
def parseDigits? (negative : Bool) (cs : List Char) : Option Literal :=
  let whole := cs.takeWhile Char.isDigit
  let afterWhole := cs.dropWhile Char.isDigit
  let (fraction, rest) := match afterWhole with
    | '.' :: r => (r.takeWhile Char.isDigit, r.dropWhile Char.isDigit)
    | r => ([], r)
  if whole.isEmpty && fraction.isEmpty then none
  else match rest with
    | [] => some ⟨negative, whole, fraction, 0⟩
    | c :: r =>
      if c == 'e' || c == 'E' then
        (parseExponent? r).map fun exponent => ⟨negative, whole, fraction, exponent⟩
      else none

/-- A number as people type it: a sign, then a word for an infinity or an undefined number in any
case, or a decimal literal whose point may stand at either end. -/
def parse? (cs : List Char) : Option Binary64 :=
  let (negative, rest) := cutSign cs
  let word := String.ofList (rest.map Char.toLower)
  if word == "inf" || word == "infinity" then some (.infinite negative)
  else if word == "nan" then some .undefined
  else (parseDigits? negative rest).map Literal.value

end Binary64

end TestSynth.Number
