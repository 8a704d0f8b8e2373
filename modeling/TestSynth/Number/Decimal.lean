/-!
Reading and writing whole numbers in decimal.
-/
namespace TestSynth.Number

def digitValue (c : Char) : Nat := c.toNat - '0'.toNat

def ofDigits (cs : List Char) : Nat := cs.foldl (fun n c => 10 * n + digitValue c) 0

def total (ns : List Nat) : Nat := ns.foldr (· + ·) 0

/-- A run of ASCII digits, with at most one leading `+`, whose value lies below `bound`. -/
def parseBelow? (bound : Nat) (cs : List Char) : Option Nat :=
  let digits := match cs with
    | '+' :: rest => rest
    | _ => cs
  if digits.isEmpty || !digits.all Char.isDigit then none
  else if ofDigits digits < bound then some (ofDigits digits) else none

def parseWord64? (cs : List Char) : Option UInt64 :=
  (parseBelow? UInt64.size cs).map Nat.toUInt64

def parseWord32? (cs : List Char) : Option Nat := parseBelow? UInt32.size cs

/-- The digits of `n`, with zeros in front up to `width`. -/
def padded (width n : Nat) : String :=
  let digits := toString n
  String.ofList (List.replicate (width - digits.length) '0') ++ digits

def hexDigit (n : Nat) : Char := if n < 10 then Char.ofNat (48 + n) else Char.ofNat (87 + n)

/-- The last `width` lower-case hexadecimal digits of `n`. -/
def hexDigits : Nat → Nat → List Char
  | 0, _ => []
  | width + 1, n => hexDigits width (n / 16) ++ [hexDigit (n % 16)]

def hexValue? (c : Char) : Option Nat :=
  if c.isDigit then some (digitValue c)
  else if 'a' ≤ c && c ≤ 'f' then some (c.toNat - 87)
  else if 'A' ≤ c && c ≤ 'F' then some (c.toNat - 55)
  else none

/-- The value of a run of hexadecimal digits. -/
def parseHex? (cs : List Char) : Option Nat :=
  if cs.isEmpty then none
  else cs.foldlM (fun n c => (hexValue? c).map (16 * n + ·)) 0

end TestSynth.Number
