import TestSynth.Json.Basic
import TestSynth.Text.Utf8
/-!
Reading structured data. A reader returns the rest of the input after what it read. The input is
bytes, each written as the character of that number, because all marks of the format are ASCII; a
text is decoded when its end is found. What is written correctly but has no value becomes
`valueless`.
-/
namespace TestSynth.Json

open Number (Binary64)

def isSpace (c : Char) : Bool := c == ' ' || c == '\n' || c == '\t' || c == '\r'

def skipSpaces (cs : List Char) : List Char := cs.dropWhile isSpace

/-- The product of the digits and a power of ten, each rounded on its own; it has no value when it is
too large. Powers beyond the table are applied in steps of 308. -/
def scaled (negative : Bool) (digits : Nat) (power : Int) : Json :=
  go 4 (Binary64.ofNat digits) power
where
  signed (x : Binary64) : Json :=
    match x with
    | .infinite _ => .valueless
    | x => .float (if negative then x.negate else x)
  go : Nat → Binary64 → Int → Json
    | 0, x, power =>
      if power < 0 then signed (.finite false 0 0) else if x = .zero then signed x else .valueless
    | n + 1, x, power =>
      if power.natAbs ≤ 308 then
        let ten := Binary64.ofDecimal false 1 power.natAbs
        signed (if 0 ≤ power then x.mul ten else x.div ten)
      else if x = .zero then signed x
      else if 0 ≤ power then .valueless
      else go n (x.div (Binary64.ofDecimal false 1 308)) (power + 308)

/-- Takes digits into a word of 64 bits until the next one would not fit. Gives the word, how many
digits it took, and the rest. -/
def takeDigits : Nat → Nat → List Char → Nat × Nat × List Char
  | n, count, c :: cs =>
    if c.isDigit && 10 * n + Number.digitValue c < UInt64.size then
      takeDigits (10 * n + Number.digitValue c) (count + 1) cs
    else (n, count, c :: cs)
  | n, count, [] => (n, count, [])

/-- Reads an exponent after its mark and gives the number scaled by it. -/
def readExponent? (negative : Bool) (digits : Nat) (power : Int) (cs : List Char) :
    Option (Json × List Char) :=
  let (down, rest) := match cs with
    | '-' :: r => (true, r)
    | '+' :: r => (false, r)
    | r => (false, r)
  let exponent := rest.takeWhile Char.isDigit
  let after := rest.dropWhile Char.isDigit
  if exponent.isEmpty then none
  else
    let e := Number.ofDigits exponent
    let value := if e < 1 <<< 31 then scaled negative digits (if down then power - e else power + e)
      else if digits = 0 || down then .float (.finite negative 0 0)
      else .valueless
    some (value, after)

/-- Finishes a number whose digits and power of ten are known, at a possible exponent. -/
def finishNumber? (negative : Bool) (digits : Nat) (power : Int) (cs : List Char) :
    Option (Json × List Char) :=
  match cs with
  | 'e' :: rest | 'E' :: rest => readExponent? negative digits power rest
  | _ => some (scaled negative digits power, cs)

/-- Reads a fraction after its point. Digits that do not fit are dropped. -/
def readFraction? (negative : Bool) (digits : Nat) (power : Int) (cs : List Char) :
    Option (Json × List Char) :=
  let (n, count, rest) := takeDigits digits 0 cs
  if rest.head?.any Char.isDigit then
    finishNumber? negative n (power - count) (rest.dropWhile Char.isDigit)
  else if count = 0 then none
  else finishNumber? negative n (power - count) rest

/-- Reads a number after its sign. A whole number stays whole while it fits in 64 bits. -/
def readNumber? (negative : Bool) (cs : List Char) : Option (Json × List Char) :=
  let (n, count, rest) := match cs with
    | '0' :: r => (0, 1, r)
    | _ => takeDigits 0 0 cs
  let leadingZero := cs.head? == some '0'
  if count = 0 || (leadingZero && rest.head?.any Char.isDigit) then none
  else
    let dropped := (rest.takeWhile Char.isDigit).length
    match rest.dropWhile Char.isDigit with
    | '.' :: r => readFraction? negative n dropped r
    | r =>
      if dropped ≠ 0 || r.head? == some 'e' || r.head? == some 'E' then
        finishNumber? negative n dropped r
      else if negative then
        if n = 0 || 1 <<< 63 < n then some (.float (Binary64.ofNat n).negate, r)
        else some (.int (-(Int.ofNat n)), r)
      else some (.int n, r)

/-- Four hexadecimal digits. -/
def readUnit? : List Char → Option (Nat × List Char)
  | a :: b :: c :: d :: rest => (Number.parseHex? [a, b, c, d]).map (·, rest)
  | _ => none

/-- A character of a text, in bytes; none for half a surrogate pair. -/
abbrev TextPiece := Option (List Char)

/-- The bytes of a character, each written as a character. -/
def bytesOf (c : Char) : List Char :=
  (String.utf8EncodeChar c).map fun b => Char.ofNat b.toNat

/-- The character of an escape after its backslash. -/
def readEscape? : List Char → Option (TextPiece × List Char)
  | '"' :: rest => some (some ['"'], rest)
  | '\\' :: rest => some (some ['\\'], rest)
  | '/' :: rest => some (some ['/'], rest)
  | 'b' :: rest => some (some [Char.ofNat 8], rest)
  | 'f' :: rest => some (some [Char.ofNat 12], rest)
  | 'n' :: rest => some (some ['\n'], rest)
  | 'r' :: rest => some (some ['\r'], rest)
  | 't' :: rest => some (some ['\t'], rest)
  | 'u' :: rest =>
    (readUnit? rest).bind fun (high, rest) =>
      if high < 0xd800 || 0xe000 ≤ high then some (some (bytesOf (Char.ofNat high)), rest)
      else if 0xdc00 ≤ high then some (none, rest)
      else match rest with
        | '\\' :: 'u' :: rest =>
          (readUnit? rest).map fun (low, rest) =>
            if 0xdc00 ≤ low && low < 0xe000 then
              (some (bytesOf (Char.ofNat (0x10000 + (high - 0xd800) * 0x400 + (low - 0xdc00)))), rest)
            else (none, rest)
        | _ => some (none, rest)
  | _ => none

/-- Reads the bytes of a text after its opening quote; the bound is the number of bytes left. -/
def readBytes? : Nat → List Char → Option (TextPiece × List Char)
  | 0, _ => none
  | _, [] => none
  | n + 1, c :: cs =>
    if c == '"' then some (some [], cs)
    else if c == '\\' then
      (readEscape? cs).bind fun (piece, rest) => (readBytes? n rest).map fun (s, r) =>
        (piece.bind fun p => s.map (p ++ ·), r)
    else if c.toNat < 32 then none
    else (readBytes? n cs).map fun (s, r) => (s.map (c :: ·), r)

/-- Reads a text after its opening quote; it has no value if its bytes are no characters. -/
def readText? (cs : List Char) : Option (Option String × List Char) :=
  (readBytes? (cs.length + 1) cs).map fun (bytes, rest) =>
    (bytes.bind fun bs => Text.decodeStrict? (bs.map fun c => c.toNat.toUInt8), rest)

abbrev Reader (α : Type) := List Char → Option (α × List Char)

/-- Items up to the closing bracket, the first of which is due. -/
def readItems? {α : Type} (item : Reader α) (closing : Char) : Nat → Reader (List α)
  | 0, _ => none
  | n + 1, cs =>
    (item cs).bind fun (a, rest) => match skipSpaces rest with
      | c :: r =>
        if c == closing then some ([a], r)
        else if c == ',' then
          (readItems? item closing n (skipSpaces r)).map fun (as, r) => (a :: as, r)
        else none
      | [] => none

/-- Reads a key and its value; the key is missing if it has no value. -/
def readField? (value : Reader Json) : Reader (Option String × Json)
  | '"' :: cs => (readText? cs).bind fun (k, rest) =>
    match skipSpaces rest with
    | ':' :: r => (value (skipSpaces r)).map fun (j, r) => ((k, j), r)
    | _ => none
  | _ => none

/-- The record of those fields, if all of them have keys. -/
def recordOf (fields : List (Option String × Json)) : Json :=
  match fields.mapM fun ((k, j) : Option String × Json) => k.map (·, j) with
  | some fields => .record fields
  | none => .valueless

/-- Reads a value that may hold `depth` levels of lists and records. -/
def readValue? : Nat → Reader Json
  | _, '"' :: cs => (readText? cs).map fun (s, rest) => ((s.map .text).getD .valueless, rest)
  | depth, '[' :: cs => match depth with
    | 0 => none
    | depth + 1 => match skipSpaces cs with
      | ']' :: r => some (.list [], r)
      | r => (readItems? (readValue? depth) ']' (r.length + 1) r).map fun (js, r) => (.list js, r)
  | depth, '{' :: cs => match depth with
    | 0 => none
    | depth + 1 => match skipSpaces cs with
      | '}' :: r => some (.record [], r)
      | r => (readItems? (readField? (readValue? depth)) '}' (r.length + 1) r).map
          fun (fs, r) => (recordOf fs, r)
  | _, 'n' :: 'u' :: 'l' :: 'l' :: r => some (.null, r)
  | _, 't' :: 'r' :: 'u' :: 'e' :: r => some (.bool true, r)
  | _, 'f' :: 'a' :: 'l' :: 's' :: 'e' :: r => some (.bool false, r)
  | _, '-' :: cs => readNumber? true cs
  | _, cs => readNumber? false cs

/-- The value that makes up all the bytes. They cannot hold more levels than there are bytes. -/
def parse? (bytes : Text.Bytes) : Option Json :=
  let cs := bytes.map fun b => Char.ofNat b.toNat
  (readValue? cs.length (skipSpaces cs)).bind fun (j, rest) =>
    if (skipSpaces rest).isEmpty then some j else none

/-- The value that makes up the whole text. -/
def parseText? (s : String) : Option Json := parse? (Text.encode s)

end TestSynth.Json
