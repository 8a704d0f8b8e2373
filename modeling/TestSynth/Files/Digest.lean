import TestSynth.Number.Decimal
import TestSynth.Text.Utf8
/-!
SHA-256 of a byte sequence, written in hexadecimal digits, and older sums: MD5, SHA-1 and the cyclic
redundancy check of 32 bits.
-/
namespace TestSynth.Digest

open Text (Bytes)

/-- The eight words a digest is made of. -/
structure State where
  a : UInt32
  b : UInt32
  c : UInt32
  d : UInt32
  e : UInt32
  f : UInt32
  g : UInt32
  h : UInt32
deriving DecidableEq, Repr

def State.words (s : State) : List UInt32 := [s.a, s.b, s.c, s.d, s.e, s.f, s.g, s.h]

def State.add (s t : State) : State :=
  ⟨s.a + t.a, s.b + t.b, s.c + t.c, s.d + t.d, s.e + t.e, s.f + t.f, s.g + t.g, s.h + t.h⟩

/-- Fractional parts of the square roots of the first eight primes. -/
def initial : State :=
  ⟨0x6a09e667, 0xbb67ae85, 0x3c6ef372, 0xa54ff53a, 0x510e527f, 0x9b05688c, 0x1f83d9ab, 0x5be0cd19⟩

/-- Fractional parts of the cube roots of the first 64 primes. -/
def roundConstants : List UInt32 :=
  [0x428a2f98, 0x71374491, 0xb5c0fbcf, 0xe9b5dba5, 0x3956c25b, 0x59f111f1, 0x923f82a4, 0xab1c5ed5,
    0xd807aa98, 0x12835b01, 0x243185be, 0x550c7dc3, 0x72be5d74, 0x80deb1fe, 0x9bdc06a7, 0xc19bf174,
    0xe49b69c1, 0xefbe4786, 0x0fc19dc6, 0x240ca1cc, 0x2de92c6f, 0x4a7484aa, 0x5cb0a9dc, 0x76f988da,
    0x983e5152, 0xa831c66d, 0xb00327c8, 0xbf597fc7, 0xc6e00bf3, 0xd5a79147, 0x06ca6351, 0x14292967,
    0x27b70a85, 0x2e1b2138, 0x4d2c6dfc, 0x53380d13, 0x650a7354, 0x766a0abb, 0x81c2c92e, 0x92722c85,
    0xa2bfe8a1, 0xa81a664b, 0xc24b8b70, 0xc76c51a3, 0xd192e819, 0xd6990624, 0xf40e3585, 0x106aa070,
    0x19a4c116, 0x1e376c08, 0x2748774c, 0x34b0bcb5, 0x391c0cb3, 0x4ed8aa4a, 0x5b9cca4f, 0x682e6ff3,
    0x748f82ee, 0x78a5636f, 0x84c87814, 0x8cc70208, 0x90befffa, 0xa4506ceb, 0xbef9a3f7, 0xc67178f2]

def rotate (x : UInt32) (n : UInt32) : UInt32 := (x >>> n) ||| (x <<< (32 - n))

/-- The message, a single one bit, zeros, and the length in bits, in whole blocks. -/
def pad (message : Bytes) : Bytes :=
  let length : Bytes := (List.range 8).map fun i =>
    UInt8.ofNat ((8 * message.length) >>> (8 * (7 - i)))
  message ++ [0x80] ++ List.replicate ((119 - message.length % 64) % 64) 0 ++ length

def word (bytes : Bytes) : UInt32 := bytes.foldl (fun w b => w * 256 + b.toUInt32) 0

/-- The next word of a schedule, whose last words come first. -/
def nextWord (schedule : List UInt32) : UInt32 :=
  let get (back : Nat) : UInt32 := schedule.getD (back - 1) 0
  let x := get 15
  let y := get 2
  get 16 + (rotate x 7 ^^^ rotate x 18 ^^^ (x >>> 3)) + get 7 +
    (rotate y 17 ^^^ rotate y 19 ^^^ (y >>> 10))

def extend : Nat → List UInt32 → List UInt32
  | 0, schedule => schedule
  | n + 1, schedule => extend n (nextWord schedule :: schedule)

/-- Pieces of a fixed length; what is left over makes none. -/
def chunks {α : Type} (size : Nat) (xs : List α) : List (List α) :=
  (List.range (xs.length / size)).map fun i => (xs.drop (i * size)).take size

def schedule (block : Bytes) : List UInt32 :=
  (extend 48 ((chunks 4 block).map word).reverse).reverse

def round (s : State) (k w : UInt32) : State :=
  let choice := (s.e &&& s.f) ^^^ (~~~ s.e &&& s.g)
  let majority := (s.a &&& s.b) ^^^ (s.a &&& s.c) ^^^ (s.b &&& s.c)
  let t1 := s.h + (rotate s.e 6 ^^^ rotate s.e 11 ^^^ rotate s.e 25) + choice + k + w
  let t2 := (rotate s.a 2 ^^^ rotate s.a 13 ^^^ rotate s.a 22) + majority
  ⟨t1 + t2, s.a, s.b, s.c, s.d + t1, s.e, s.f, s.g⟩

def compress (s : State) (block : Bytes) : State :=
  s.add ((roundConstants.zip (schedule block)).foldl (fun s (k, w) => round s k w) s)

/-- Takes blocks off the front, as many as the first argument says. -/
def compressBlocks : Nat → State → Bytes → State
  | 0, s, _ => s
  | n + 1, s, bytes => compressBlocks n (compress s (bytes.take 64)) (bytes.drop 64)

def sha256 (message : Bytes) : State :=
  let padded := pad message
  compressBlocks (padded.length / 64) initial padded

/-- The digest in lower-case hexadecimal digits. -/
def ofBytes (message : Bytes) : String :=
  String.ofList ((sha256 message).words.flatMap fun w => Number.hexDigits 8 w.toNat)

def rotateLeft (x : UInt32) (n : UInt32) : UInt32 := (x <<< n) ||| (x >>> (32 - n))

/-- The bytes of words, the lowest byte of each first. -/
def lowFirst (words : List UInt32) : Bytes :=
  words.flatMap fun w => (List.range 4).map fun k => UInt8.ofNat (w.toNat >>> (8 * k))

def wordLowFirst (bytes : Bytes) : UInt32 := word bytes.reverse

namespace Md5

structure State where
  a : UInt32 := 0x67452301
  b : UInt32 := 0xefcdab89
  c : UInt32 := 0x98badcfe
  d : UInt32 := 0x10325476
deriving DecidableEq, Repr

/-- Whole parts of the sines of the first numbers, times `2 ^ 32`. -/
def sines : List UInt32 :=
  [0xd76aa478, 0xe8c7b756, 0x242070db, 0xc1bdceee, 0xf57c0faf, 0x4787c62a, 0xa8304613, 0xfd469501,
    0x698098d8, 0x8b44f7af, 0xffff5bb1, 0x895cd7be, 0x6b901122, 0xfd987193, 0xa679438e, 0x49b40821,
    0xf61e2562, 0xc040b340, 0x265e5a51, 0xe9b6c7aa, 0xd62f105d, 0x02441453, 0xd8a1e681, 0xe7d3fbc8,
    0x21e1cde6, 0xc33707d6, 0xf4d50d87, 0x455a14ed, 0xa9e3e905, 0xfcefa3f8, 0x676f02d9, 0x8d2a4c8a,
    0xfffa3942, 0x8771f681, 0x6d9d6122, 0xfde5380c, 0xa4beea44, 0x4bdecfa9, 0xf6bb4b60, 0xbebfbc70,
    0x289b7ec6, 0xeaa127fa, 0xd4ef3085, 0x04881d05, 0xd9d4d039, 0xe6db99e5, 0x1fa27cf8, 0xc4ac5665,
    0xf4292244, 0x432aff97, 0xab9423a7, 0xfc93a039, 0x655b59c3, 0x8f0ccc92, 0xffeff47d, 0x85845dd1,
    0x6fa87e4f, 0xfe2ce6e0, 0xa3014314, 0x4e0811a1, 0xf7537e82, 0xbd3af235, 0x2ad7d2bb, 0xeb86d391]

/-- How far words are turned in each of the four parts. -/
def turns : List (List UInt32) := [[7, 12, 17, 22], [5, 9, 14, 20], [4, 11, 16, 23], [6, 10, 15, 21]]

def round (block : List UInt32) (s : State) (i : Nat) (sine : UInt32) : State :=
  let (mixed, index) := match i / 16 with
    | 0 => ((s.b &&& s.c) ||| (~~~ s.b &&& s.d), i)
    | 1 => ((s.d &&& s.b) ||| (~~~ s.d &&& s.c), (5 * i + 1) % 16)
    | 2 => (s.b ^^^ s.c ^^^ s.d, (3 * i + 5) % 16)
    | _ => (s.c ^^^ (s.b ||| ~~~ s.d), 7 * i % 16)
  let turn := ((turns.getD (i / 16) []).getD (i % 4) 0)
  ⟨s.d, s.b + rotateLeft (mixed + s.a + sine + block.getD index 0) turn, s.b, s.c⟩

def compress (s : State) (block : Bytes) : State :=
  let words := (chunks 4 block).map wordLowFirst
  let t := (sines.zipIdx).foldl (fun t (sine, i) => round words t i sine) s
  ⟨s.a + t.a, s.b + t.b, s.c + t.c, s.d + t.d⟩

/-- The message is filled up as for SHA-256, with its length the other way round. -/
def ofBytes (message : Bytes) : Bytes :=
  let padded := pad message
  let cut := padded.length - 8
  let s := (chunks 64 (padded.take cut ++ (padded.drop cut).reverse)).foldl compress {}
  lowFirst [s.a, s.b, s.c, s.d]

end Md5

namespace Sha1

structure State where
  a : UInt32 := 0x67452301
  b : UInt32 := 0xefcdab89
  c : UInt32 := 0x98badcfe
  d : UInt32 := 0x10325476
  e : UInt32 := 0xc3d2e1f0
deriving DecidableEq, Repr

def extend : Nat → List UInt32 → List UInt32
  | 0, words => words
  | n + 1, words =>
    let get (back : Nat) : UInt32 := words.getD (back - 1) 0
    extend n (rotateLeft (get 3 ^^^ get 8 ^^^ get 14 ^^^ get 16) 1 :: words)

def round (s : State) (i : Nat) (w : UInt32) : State :=
  let (mixed, k) : UInt32 × UInt32 := match i / 20 with
    | 0 => ((s.b &&& s.c) ||| (~~~ s.b &&& s.d), 0x5a827999)
    | 1 => (s.b ^^^ s.c ^^^ s.d, 0x6ed9eba1)
    | 2 => ((s.b &&& s.c) ||| (s.b &&& s.d) ||| (s.c &&& s.d), 0x8f1bbcdc)
    | _ => (s.b ^^^ s.c ^^^ s.d, 0xca62c1d6)
  ⟨rotateLeft s.a 5 + mixed + s.e + k + w, s.a, rotateLeft s.b 30, s.c, s.d⟩

def compress (s : State) (block : Bytes) : State :=
  let words := (extend 64 ((chunks 4 block).map word).reverse).reverse
  let t := words.zipIdx.foldl (fun t (w, i) => round t i w) s
  ⟨s.a + t.a, s.b + t.b, s.c + t.c, s.d + t.d, s.e + t.e⟩

def ofBytes (message : Bytes) : Bytes :=
  let s := (chunks 64 (pad message)).foldl compress {}
  [s.a, s.b, s.c, s.d, s.e].flatMap fun w => (lowFirst [w]).reverse

end Sha1

/-- One byte more in a cyclic redundancy check. -/
def checkByte (crc : UInt32) (b : UInt8) : UInt32 :=
  (List.range 8).foldl (fun (c : UInt32) _ =>
    if c &&& 0x80000000 != 0 then (c <<< 1) ^^^ 0x04c11db7 else c <<< 1) (crc ^^^ (b.toUInt32 <<< 24))

/-- The check of a message and its length. -/
def cyclicCheck (message : Bytes) : UInt32 :=
  ~~~ ((message ++ lengthBytes message.length message.length).foldl checkByte 0)
where
  /-- The length without leading zeros, its lowest byte first. -/
  lengthBytes : Nat → Nat → Bytes
    | 0, _ | _, 0 => []
    | fuel + 1, n => (n % 256).toUInt8 :: lengthBytes fuel (n / 256)

/-- Bytes in lower-case hexadecimal digits. -/
def hexText (bytes : Bytes) : String :=
  String.ofList (bytes.flatMap fun b => Number.hexDigits 2 b.toNat)

end TestSynth.Digest
