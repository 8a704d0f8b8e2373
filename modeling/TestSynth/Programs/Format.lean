import TestSynth.Number.Layout
/-!
The texts that formats and escapes make of arguments. Text has one character for each byte.
-/
namespace TestSynth.Programs

open Number

def escapeLetters : List (Char × Char) :=
  [('\\', '\\'), ('a', Char.ofNat 7), ('b', Char.ofNat 8), ('f', Char.ofNat 12), ('n', '\n'),
    ('r', '\r'), ('t', '\t'), ('v', Char.ofNat 11)]

def isOctal (c : Char) : Bool := '0' ≤ c && c ≤ '7'

/-- The byte that octal digits write. -/
def octalByte (digits : List Char) : Char :=
  Char.ofNat ((digits.foldl (fun n c => 8 * n + digitValue c) 0) % 256)

/-- What a backslash and the text after it stand for, and the rest of the text. A backslash before
anything else stands for itself. -/
def escape (cs : List Char) : Char × List Char :=
  match cs with
  | [] => ('\\', [])
  | c :: rest => match escapeLetters.lookup c with
    | some d => (d, rest)
    | none =>
      let digits := (cs.take 3).takeWhile isOctal
      if digits.isEmpty then ('\\', cs) else (octalByte digits, cs.drop digits.length)

/-- A text with its escapes, and whether one of them ends all output. The digits of an octal number
may follow a zero. The first argument bounds the length. -/
def unescape : Nat → List Char → List Char × Bool
  | 0, _ | _, [] => ([], false)
  | n + 1, '\\' :: cs =>
    if cs.head? == some 'c' then ([], true)
    else
      let (c, rest) := if cs.head? == some '0' then
          let digits := ((cs.drop 1).take 3).takeWhile isOctal
          (octalByte digits, cs.drop (1 + digits.length))
        else escape cs
      let (more, stops) := unescape n rest
      (c :: more, stops)
  | n + 1, c :: cs =>
    let (more, stops) := unescape n cs
    (c :: more, stops)

/-- Where the writing of a format stands. -/
structure Printing where
  /-- What was written, backwards. -/
  output : List Char := []
  arguments : List String
  /-- What is wrong with arguments. -/
  warnings : List String := []
  /-- What is wrong with the format. -/
  failure : Option String := none
  stops : Bool := false

namespace Printing

def put (p : Printing) (cs : List Char) : Printing := { p with output := cs.reverse ++ p.output }

def argument (p : Printing) : Option String × Printing :=
  (p.arguments.head?, { p with arguments := p.arguments.drop 1 })

/-- Notes an argument that is no number, or not to its end. -/
def check (p : Printing) (text : String) (rest : List Char) : Printing :=
  if rest.isEmpty then p
  else
    let problem := if rest.length == text.length then "expected numeric value"
      else "not completely converted"
    { p with warnings := p.warnings ++ [text ++ ": " ++ problem] }

/-- The digits of a whole number in the base that its front tells, and what follows. -/
def readWhole (cs : List Char) : Nat × List Char :=
  let hexDigits := (cs.drop 2).takeWhile fun c => (hexValue? c).isSome
  let isHex := (cs.take 2).map Char.toLower == ['0', 'x'] && !hexDigits.isEmpty
  if isHex then ((parseHex? hexDigits).getD 0, cs.drop (2 + hexDigits.length))
  else if cs.head? == some '0' then
    let digits := cs.takeWhile isOctal
    (digits.foldl (fun n c => 8 * n + digitValue c) 0, cs.drop digits.length)
  else
    let digits := cs.takeWhile Char.isDigit
    (ofDigits digits, cs.drop digits.length)

/-- The whole number that an argument writes, held to the bounds of 64 bits. -/
def whole (p : Printing) (isSigned : Bool) : Int × Printing :=
  match p.argument with
  | (none, p) => (0, p)
  | (some text, p) => match text.toList with
    | '\'' :: rest | '"' :: rest => ((rest.headD (Char.ofNat 0)).toNat, p)
    | cs =>
      let (negative, body) := Binary64.cutSign (cs.dropWhile fun c => c == ' ' || ('\t' ≤ c && c ≤ '\r'))
      let (n, rest) := readWhole body
      let rest := if rest.length == body.length then cs else rest
      let value : Int := if negative then -(n : Int) else n
      let low : Int := if isSigned then Int64.minValue.toInt else 1 - UInt64.size
      let high : Int := if isSigned then Int64.maxValue.toInt else UInt64.size - 1
      if !isSigned && (value < low || high < value) then
        (high, { p with warnings := p.warnings ++ [text ++ ": Numerical result out of range"] })
      else if value < low || high < value then
        (max low (min high value),
          { p with warnings := p.warnings ++ [text ++ ": Numerical result out of range"] })
      else (value, p.check text rest)

def float (p : Printing) : Binary64 × Printing :=
  match p.argument with
  | (none, p) => (.zero, p)
  | (some text, p) => match text.toList with
    | '\'' :: rest | '"' :: rest => (Binary64.ofNat (rest.headD (Char.ofNat 0)).toNat, p)
    | cs => match Binary64.readFront? cs with
      | some (x, rest) => (x, p.check text rest)
      | none => (.zero, p.check text cs)

/-- A width or a precision: digits, or a star for an argument. -/
def size (p : Printing) (cs : List Char) : Int × List Char × Printing :=
  match cs with
  | '*' :: rest =>
    let (n, p) := p.whole true
    (n, rest, p)
  | cs => (ofDigits (cs.takeWhile Char.isDigit), cs.dropWhile Char.isDigit, p)

/-- The layout that a directive asks for, and the text from its letter on. -/
def layout (p : Printing) (cs : List Char) : Layout × List Char × Printing :=
  let isFlag (c : Char) : Bool := "-+ #0".toList.contains c
  let flags := cs.takeWhile isFlag
  let (width, cs, p) := p.size (cs.dropWhile isFlag)
  let (precision, cs, p) : Option Nat × List Char × Printing := match cs with
    | '.' :: rest =>
      let (n, rest, p) := p.size rest
      (if n < 0 then none else some n.toNat, rest, p)
    | cs => (none, cs, p)
  ({ leftAligned := flags.contains '-' || width < 0
     showsPlus := flags.contains '+'
     showsBlank := flags.contains ' '
     alternate := flags.contains '#'
     fillsZeros := flags.contains '0'
     width := width.natAbs
     precision }, cs, p)

/-- Carries out a directive behind its percent sign. Gives the rest of the format. -/
def directive (p : Printing) (cs : List Char) : List Char × Printing :=
  let (l, behind, p) := p.layout cs
  match behind with
  | [] => ([], { p with failure := some "missing format character", stops := true })
  | letter :: rest =>
    if letter == 's' then
      let (a, p) := p.argument
      (rest, p.put (l.text (a.getD "").toList))
    else if letter == 'b' then
      let (a, p) := p.argument
      let cs := (a.getD "").toList
      let (text, stops) := unescape cs.length cs
      (rest, { p.put (l.text text) with stops })
    else if letter == 'c' then
      let (a, p) := p.argument
      let c := ((a.bind fun a => a.toList.head?)).getD (Char.ofNat 0)
      (rest, p.put ({ l with precision := none }.text [c]))
    else if letter == 'd' || letter == 'i' then
      let (n, p) := p.whole true
      (rest, p.put (l.signed n))
    else if "ouxX".toList.contains letter then
      let (n, p) := p.whole false
      let bits := (n % UInt64.size).toNat
      let base := if letter == 'o' then 8 else if letter == 'u' then 10 else 16
      (rest, p.put (l.unsigned base (letter == 'X') bits))
    else if "eEfFgG".toList.contains letter then
      let (x, p) := p.float
      (rest, p.put (l.float letter x))
    else
      let shown := '%' :: cs.take (cs.length - rest.length)
      ([], { p with failure := some (String.ofList shown ++ ": invalid directive"), stops := true })

/-- Goes over a format once; the first argument bounds its length. -/
def once : Nat → List Char → Printing → Printing
  | 0, _, p | _, [], p => p
  | n + 1, c :: cs, p =>
    if p.stops then p
    else if c == '\\' then
      let (d, rest) := escape cs
      once n rest (p.put [d])
    else if c != '%' then once n cs (p.put [c])
    else if cs.head? == some '%' then once n (cs.drop 1) (p.put ['%'])
    else
      let (rest, p) := p.directive cs
      once n rest p

/-- Goes over a format until every argument is used; the first argument bounds the rounds. -/
def rounds : Nat → List Char → Printing → Printing
  | 0, _, p => p
  | n + 1, format, p =>
    let after := once (format.length + 1) format p
    if after.stops || after.arguments.isEmpty || after.arguments.length == p.arguments.length then after
    else rounds n format after

end Printing

/-- What a format makes of its arguments. -/
def printFormat (format : String) (arguments : List String) : Printing :=
  Printing.rounds (arguments.length + 1) format.toList { arguments }

/-- The arguments with blanks between them and their escapes, on a line unless `-n` comes first. -/
def echoEscaped (arguments : List String) : List Char :=
  let (endsLine, arguments) := match arguments with
    | "-n" :: rest => (false, rest)
    | arguments => (true, arguments)
  let cs := (String.intercalate " " arguments).toList
  let (text, stops) := unescape cs.length cs
  if endsLine && !stops then text ++ ['\n'] else text

end TestSynth.Programs
