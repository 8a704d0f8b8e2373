import TestSynth.Number.Binary64
/-!
Decimal texts of binary numbers: the fewest digits that read back, and a fixed number of places.
-/
namespace TestSynth.Number.Binary64

/-- The numbers that round to a given one lie between two ends; all are in quarters of a unit.
The ends belong to the interval when the significand is even. -/
structure Neighbourhood where
  low : Nat
  middle : Nat
  high : Nat
  closed : Bool
deriving DecidableEq, Repr

def neighbourhood (m e : Nat) : Neighbourhood :=
  let ulp := 1 <<< e
  { low := 4 * (m * ulp) - (if m = 1 <<< 52 && 0 < e then ulp else 2 * ulp)
    middle := 4 * (m * ulp)
    high := 4 * (m * ulp) + 2 * ulp
    closed := m % 2 = 0 }

/-- Whether `digits * 10 ^ power` lies in the interval. -/
def Neighbourhood.holds (n : Neighbourhood) (digits : Nat) (power : Int) : Bool :=
  let up := Nat.pow 10 power.toNat
  let down := Nat.pow 10 (-power).toNat
  let x := digits * up * (4 * unitsPerOne)
  if n.closed then n.low * down ≤ x && x ≤ n.high * down
  else n.low * down < x && x < n.high * down

/-- The distance from the middle, scaled alike for every number of digits at one power. -/
def Neighbourhood.distance (n : Neighbourhood) (digits : Nat) (power : Int) : Nat :=
  let x := digits * Nat.pow 10 power.toNat * (4 * unitsPerOne)
  let y := n.middle * Nat.pow 10 (-power).toNat
  (x - y) + (y - x)

/-- The best point of the grid of multiples of `10 ^ power`, if one lies in the interval: only
the two neighbours of the middle can be. -/
def gridPoint? (n : Neighbourhood) (power : Int) : Option Nat :=
  let below := n.middle * Nat.pow 10 (-power).toNat / (Nat.pow 10 power.toNat * (4 * unitsPerOne))
  let above := below + 1
  match n.holds below power, n.holds above power with
  | true, true =>
    let toBelow := n.distance below power
    let toAbove := n.distance above power
    if toBelow < toAbove then some below
    else if toAbove < toBelow then some above
    else some (below + below % 2)
  | true, false => some below
  | false, true => some above
  | false, false => none

/-- The decimal exponent of the leading digit of `units`, found from a guess by its binary
logarithm, which is off by one at most. -/
def leadingPower (units : Nat) : Int :=
  let guess : Int := (Int.ofNat units.log2 - 1074) * 30103 / 100000
  let reaches (p : Int) : Bool :=
    Nat.pow 10 p.toNat * unitsPerOne ≤ units * Nat.pow 10 (-p).toNat
  if reaches (guess + 1) then guess + 1
  else if reaches guess then guess
  else guess - 1

/-- Tries `count` digits, then one more, up to the given number of further tries. -/
def shortestFrom (n : Neighbourhood) (leading : Int) (count : Nat) : Nat → Nat × Int
  | 0 => (0, 0)
  | tries + 1 =>
    let power := leading + 1 - count
    match gridPoint? n power with
    | some digits => (digits, power)
    | none => shortestFrom n leading (count + 1) tries

/-- The fewest digits that read back as `m * 2 ^ e` units, with the power of ten of the last. -/
def shortest (m e : Nat) : Nat × Int :=
  if m = 0 then (0, 0)
  else shortestFrom (neighbourhood m e) (leadingPower (m <<< e)) 1 18

def zeros (n : Nat) : String := String.ofList (List.replicate n '0')

/-- Digits with a point after the first `position`, which may lie outside them. -/
def positional (digits : String) (position : Int) : String :=
  if position ≤ 0 then "0." ++ zeros (-position).toNat ++ digits
  else
    let p := position.toNat
    if digits.length ≤ p then digits ++ zeros (p - digits.length)
    else String.ofList (digits.toList.take p) ++ "." ++ String.ofList (digits.toList.drop p)

/-- Removes the zeros that a carry to the next power of ten leaves at the end. -/
def dropTrailingZeros (digits : Nat) (power : Int) : Nat × Int :=
  go 20 digits power
where
  go : Nat → Nat → Int → Nat × Int
    | 0, d, p => (d, p)
    | n + 1, d, p => if d ≠ 0 && d % 10 = 0 then go n (d / 10) (p + 1) else (d, p)

/-- How a data file writes a number: positionally while the point lies less than five places
before the digits and not beyond the sixteenth, with `.0` on a whole number, else with an
exponent and its sign. None for what a data file has no number for. -/
def dataText? : Binary64 → Option String
  | .undefined | .infinite _ => none
  | .finite negative m e =>
    let sign := if negative then "-" else ""
    if m = 0 then some (sign ++ "0.0")
    else
      let (d, power) := dropTrailingZeros (shortest m e).1 (shortest m e).2
      let digits := toString d
      let position := Int.ofNat digits.length + power
      some <| sign ++
        if 0 ≤ power && position ≤ 16 then positional digits position ++ ".0"
        else if -5 < position && position ≤ 16 then positional digits position
        else
          let tail := String.ofList (digits.toList.drop 1)
          String.ofList (digits.toList.take 1) ++ (if tail.isEmpty then "" else "." ++ tail) ++
            "e" ++ (if position < 1 then "" else "+") ++ toString (position - 1)

/-- How a message writes a number: the shortest digits, always positionally. -/
def messageText : Binary64 → String
  | .undefined => "NaN"
  | .infinite negative => if negative then "-inf" else "inf"
  | .finite negative m e =>
    let sign := if negative then "-" else ""
    if m = 0 then sign ++ "0"
    else
      let (d, power) := dropTrailingZeros (shortest m e).1 (shortest m e).2
      let digits := toString d
      sign ++ positional digits (Int.ofNat digits.length + power)

/-- How a report writes a number: two places, a half going to the even neighbour. -/
def reportText : Binary64 → String
  | .undefined => "NaN"
  | .infinite negative => if negative then "-inf" else "inf"
  | .finite negative m e =>
    let hundredths := divideToEven (m <<< e * 100) unitsPerOne
    (if negative then "-" else "") ++ toString (hundredths / 100) ++ "." ++
      padded 2 (hundredths % 100)

end TestSynth.Number.Binary64
