/-!
Text as bytes. Reading never fails: each longest piece that starts a character and cannot be
completed becomes one replacement character. Programs that know bytes only see a text with one
character for each byte.
-/
namespace TestSynth.Text

abbrev Bytes := List UInt8

/-- Bytes of a character still owed, the range of the next one, and the bits read so far. -/
inductive DecodeState where
  | ready
  | owing (count : Nat) (low high : UInt8) (bits : Nat)
deriving DecidableEq, Repr

def replacement : Char := Char.ofNat 0xfffd

/-- What a byte that starts a character gives: the character, or what is owed after it. -/
def leadByte (b : UInt8) : Char ⊕ DecodeState :=
  let n := b.toNat
  if b < 0x80 then .inl (Char.ofNat n)
  else if b < 0xc2 then .inl replacement
  else if b < 0xe0 then .inr (.owing 1 0x80 0xbf (n - 0xc0))
  else if b == 0xe0 then .inr (.owing 2 0xa0 0xbf 0)
  else if b == 0xed then .inr (.owing 2 0x80 0x9f 0xd)
  else if b < 0xf0 then .inr (.owing 2 0x80 0xbf (n - 0xe0))
  else if b == 0xf0 then .inr (.owing 3 0x90 0xbf 0)
  else if b < 0xf4 then .inr (.owing 3 0x80 0xbf (n - 0xf0))
  else if b == 0xf4 then .inr (.owing 3 0x80 0x8f 4)
  else .inl replacement

def decodeFrom : DecodeState → Bytes → List Char
  | .ready, [] => []
  | .owing .., [] => [replacement]
  | .ready, b :: bs => match leadByte b with
    | .inl c => c :: decodeFrom .ready bs
    | .inr state => decodeFrom state bs
  | .owing count low high bits, b :: bs =>
    if low ≤ b && b ≤ high then
      let bits := bits * 64 + (b.toNat - 0x80)
      if count ≤ 1 then Char.ofNat bits :: decodeFrom .ready bs
      else decodeFrom (.owing (count - 1) 0x80 0xbf bits) bs
    else match leadByte b with
      | .inl c => replacement :: c :: decodeFrom .ready bs
      | .inr state => replacement :: decodeFrom state bs

def decode (bytes : Bytes) : String := String.ofList (decodeFrom .ready bytes)

def encode (s : String) : Bytes := s.toUTF8.toList

/-- The text, if every byte belongs to a whole character. -/
def decodeStrict? (bytes : Bytes) : Option String :=
  let s := decode bytes
  if encode s == bytes then some s else none

/-- The characters of bytes. -/
def ofBytes (bytes : Bytes) : List Char := bytes.map fun b => Char.ofNat b.toNat

/-- The bytes of characters that stand for bytes. -/
def toBytes (cs : List Char) : Bytes := cs.map fun c => c.toNat.toUInt8

/-- A text with one character for each of its bytes. -/
def spread (s : String) : String := String.ofList (ofBytes (encode s))

/-- The text whose bytes the characters are. -/
def gather (s : String) : String := decode (toBytes s.toList)

theorem toBytes_ofBytes (bytes : Bytes) : toBytes (ofBytes bytes) = bytes := by
  have single (b : UInt8) : ((Char.ofNat b.toNat).toNat).toUInt8 = b := by
    have valid : b.toNat.isValidChar := .inl (Nat.lt_trans b.toNat_lt (by decide))
    rw [Char.ofNat, dif_pos valid]
    exact UInt8.ofNat_toNat
  simp [toBytes, ofBytes, Function.comp_def, single]

end TestSynth.Text
