import TestSynth.Files.Digest
import TestSynth.Programs.Format
import TestSynth.Programs.Lines
/-!
Programs that show bytes in another form: as numbers, in base 64, and as sums.
-/
namespace TestSynth.Programs

open Process Tool

/-- The digits of base 64. -/
def base64Digits : List Char :=
  "ABCDEFGHIJKLMNOPQRSTUVWXYZabcdefghijklmnopqrstuvwxyz0123456789+/".toList

/-- Three bytes become four digits; signs fill up the last group. -/
def encodeBase64 : List Char → List Char
  | [] => []
  | [a] =>
    let n := a.toNat * 16
    digit (n / 64) :: digit n :: ['=', '=']
  | [a, b] =>
    let n := (a.toNat * 256 + b.toNat) * 4
    digit (n / 4096) :: digit (n / 64) :: digit n :: ['=']
  | a :: b :: c :: rest =>
    let n := (a.toNat * 256 + b.toNat) * 256 + c.toNat
    digit (n / 262144) :: digit (n / 4096) :: digit (n / 64) :: digit n :: encodeBase64 rest
where
  digit (n : Nat) : Char := base64Digits.getD (n % 64) 'A'

/-- The bytes of digits up to the first wrong one, and whether there is none. -/
def decodeBase64 : List Char → List Char × Bool
  | [] => ([], true)
  | a :: b :: '=' :: '=' :: rest => match value? a, value? b with
    | some x, some y =>
      let (more, isRight) := decodeBase64 rest
      (Char.ofNat ((x * 64 + y) / 16) :: more, isRight)
    | _, _ => ([], false)
  | a :: b :: c :: '=' :: rest => match value? a, value? b, value? c with
    | some x, some y, some z =>
      let n := ((x * 64 + y) * 64 + z) / 4
      let (more, isRight) := decodeBase64 rest
      (Char.ofNat (n / 256) :: Char.ofNat (n % 256) :: more, isRight)
    | _, _, _ => ([], false)
  | a :: b :: c :: d :: rest => match value? a, value? b, value? c, value? d with
    | some x, some y, some z, some w =>
      let n := ((x * 64 + y) * 64 + z) * 64 + w
      let (more, isRight) := decodeBase64 rest
      (Char.ofNat (n / 65536) :: Char.ofNat (n / 256 % 256) :: Char.ofNat (n % 256) :: more, isRight)
    | some x, some y, some z, none =>
      let n := ((x * 64 + y) * 64 + z) / 4
      ([Char.ofNat (n / 256), Char.ofNat (n % 256)], false)
    | some x, some y, none, _ => ([Char.ofNat ((x * 64 + y) / 16)], false)
    | _, _, _, _ => ([], false)
  | [a, b, c] => match value? a, value? b, value? c with
    | some x, some y, some z =>
      let n := ((x * 64 + y) * 64 + z) / 4
      ([Char.ofNat (n / 256), Char.ofNat (n % 256)], false)
    | _, _, _ => ([], false)
  | [a, b] => match value? a, value? b with
    | some x, some y => ([Char.ofNat ((x * 64 + y) / 16)], false)
    | _, _ => ([], false)
  | [_] => ([], false)
where
  value? (c : Char) : Option Nat := base64Digits.findIdx? (· == c)

def base64 : Program := fun _ arguments => do
  let o ← ({ letters := "di", valued := "w"
             names := [("decode", "d", .never), ("ignore-garbage", "i", .never), ("wrap", "w", .always)] }
    : OptionTable).read arguments
  if let some extra := o.operands[1]? then abortWithHint ("extra operand " ++ quote extra)
  let width ← match o.value? "w" with
    | none => pure 76
    | some word => match count? word with
      | some n => pure n
      | none => abort ("invalid wrap size: " ++ quote word)
  match ← content (o.operands.headD "-") with
  | .error .isDirectory => complain "read error: Is a directory"
  | .error e => complain (quoteIfNeeded (o.operands.headD "-") ++ ": " ++ e.reason)
  | .ok cs =>
    if o.has "d" then
      let isDigit (c : Char) : Bool := c == '=' || base64Digits.contains c
      let kept := if o.has "i" then cs.filter isDigit else cs.filter (· != '\n')
      let (bytes, isRight) := decodeBase64 kept
      put bytes
      if !isRight then complain "invalid input"
    else
      let text := encodeBase64 cs
      if width = 0 then put text
      else for k in List.range ((text.length + width - 1) / width) do
        put ((text.drop (k * width)).take width ++ ['\n'])

/-- A form in which bytes are shown: units of so many bytes, and the width of a unit. -/
structure DumpForm where
  letter : Char
  size : Nat
  showsText : Bool := false
deriving DecidableEq, Repr, Inhabited

namespace DumpForm

def width (f : DumpForm) : Nat :=
  match f.letter with
  | 'x' => 2 * f.size
  | 'o' => match f.size with
    | 1 => 3
    | 2 => 6
    | 4 => 11
    | _ => 22
  | 'u' => match f.size with
    | 1 => 3
    | 2 => 5
    | 4 => 10
    | _ => 20
  | 'd' => match f.size with
    | 1 => 4
    | 2 => 6
    | 4 => 11
    | _ => 20
  | _ => 3

def controlNames : List String :=
  ["nul", "soh", "stx", "etx", "eot", "enq", "ack", "bel", "bs", "ht", "nl", "vt", "ff", "cr", "so",
    "si", "dle", "dc1", "dc2", "dc3", "dc4", "nak", "syn", "etb", "can", "em", "sub", "esc", "fs",
    "gs", "rs", "us", "sp"]

/-- A unit of bytes, the lowest first. -/
def unit (f : DumpForm) (bytes : List Char) : String :=
  let n := bytes.foldr (fun c n => n * 256 + c.toNat) 0
  let filled (digits : List Char) : String :=
    String.ofList (List.replicate (f.width - digits.length) '0' ++ digits)
  match f.letter with
  | 'x' => filled (Nat.toDigits 16 n)
  | 'o' => filled (Nat.toDigits 8 n)
  | 'u' => toString n
  | 'd' =>
    let values := Nat.pow 256 f.size
    if n < values / 2 then toString n else "-" ++ toString (values - n)
  | 'a' => (controlNames[n % 128]?).getD
      (if n % 128 = 127 then "del" else String.singleton (Char.ofNat (n % 128)))
  | _ =>
    let c := Char.ofNat n
    match shortEscapes.lookup c with
    | some s => s
    | none => if isPrinted c then String.singleton c
        else String.ofList (let d := Nat.toDigits 8 n; List.replicate (3 - d.length) '0' ++ d)
where
  shortEscapes : List (Char × String) :=
    [('\x00', "\\0"), ('\x07', "\\a"), ('\x08', "\\b"), ('\t', "\\t"), ('\n', "\\n"), ('\x0b', "\\v"),
      ('\x0c', "\\f"), ('\r', "\\r")]

/-- Units of a line. -/
def units (f : DumpForm) : Nat → List Char → List String
  | 0, _ | _, [] => []
  | n + 1, bytes =>
    let own := bytes.take f.size
    let filled := own ++ List.replicate (f.size - own.length) (Char.ofNat 0)
    f.unit filled :: units f n (bytes.drop f.size)

/-- A line in the form, where a unit of the largest form takes so many columns for each byte. -/
def line (f : DumpForm) (perBlock blockWidth lineBytes : Nat) (bytes : List Char) : String :=
  let perUnit := perBlock / f.size
  let own := f.width + 1
  let spare := blockWidth - perUnit * own
  let cells := (f.units bytes.length bytes).zipIdx.map fun (text, k) =>
    let before := k % perUnit
    let extra := spare * (perUnit - before) / perUnit - spare * (perUnit - before - 1) / perUnit
    padLeft (own + extra) text
  let text := String.join cells
  if f.showsText then
    let width := lineBytes / perBlock * blockWidth
    let shown := bytes.map fun c => if isPrinted c then c else '.'
    text ++ String.ofList (List.replicate (width - text.length) ' ') ++ "  >" ++ String.ofList shown ++ "<"
  else text

/-- The forms that a text such as `x1z` asks for. -/
def parse (text : String) : Nat → List Char → Except String (List DumpForm)
  | 0, _ | _, [] => .ok []
  | n + 1, letter :: rest => do
    if !"doxuac".toList.contains letter then
      .error ("invalid character " ++ quote (String.singleton letter) ++ " in type string " ++ quote text)
    let isText := letter == 'a' || letter == 'c'
    let (size, rest) := match rest with
      | c :: more =>
        let digits := rest.takeWhile Char.isDigit
        if isText then (1, rest)
        else if !digits.isEmpty then (Number.ofDigits digits, rest.drop digits.length)
        else match sizeLetters.lookup c with
          | some size => (size, more)
          | none => (4, rest)
      | [] => (if isText then 1 else 4, [])
    let (showsText, rest) := match rest with
      | 'z' :: more => (true, more)
      | rest => (false, rest)
    let forms ← parse text n rest
    return { letter, size, showsText } :: forms
where
  sizeLetters : List (Char × Nat) := [('C', 1), ('S', 2), ('I', 4), ('L', 8)]

/-- The forms of options of old. -/
def ofLetter? : String → Option DumpForm
  | "a" => some { letter := 'a', size := 1 }
  | "b" => some { letter := 'o', size := 1 }
  | "c" => some { letter := 'c', size := 1 }
  | "d" => some { letter := 'u', size := 2 }
  | "o" => some { letter := 'o', size := 2 }
  | "x" => some { letter := 'x', size := 2 }
  | "i" => some { letter := 'd', size := 4 }
  | "l" => some { letter := 'd', size := 8 }
  | _ => none

end DumpForm

def od : Program := fun _ arguments => do
  let o ← ({ letters := "abcdoxilv", valued := "AtNjSw"
             names := [("address-radix", "A", .always), ("format", "t", .always),
               ("read-bytes", "N", .always), ("skip-bytes", "j", .always),
               ("output-duplicates", "v", .never), ("width", "w", .maybe)] } : OptionTable).read arguments
  let mut asked : List DumpForm := []
  for (key, value) in o.given do
    if key == "t" then match DumpForm.parse value (value.length + 1) value.toList with
      | .ok more => asked := asked ++ more
      | .error message => abort message
    else if let some f := DumpForm.ofLetter? key then asked := asked ++ [f]
  let forms := if asked.isEmpty then [{ letter := 'o', size := 2 }] else asked
  let number (key : String) : ToolM (Option Nat) := do
    match o.value? key with
    | none => return none
    | some word => match signedCount? word with
      | some (none, n) => return some n
      | _ => abort ("invalid -" ++ key ++ " argument " ++ quote word)
  let mut input : List Char := []
  for name in (if o.operands.isEmpty then ["-"] else o.operands) do
    match ← content name with
    | .ok cs => input := input ++ cs
    | .error .isDirectory => complain (quoteIfNeeded name ++ ": read error: Is a directory")
    | .error e => complain (quoteIfNeeded name ++ ": " ++ e.reason)
  if input.isEmpty && (← get).status != 0 then finish 1
  let skipped := (← number "j").getD 0
  if input.length < skipped then abort "cannot skip past end of combined input"
  let bytes := input.drop skipped
  let bytes := (← number "N").elim bytes bytes.take
  let lineBytes := (← number "w").getD 16
  let lineBytes := if lineBytes = 0 then 16 else lineBytes
  let perBlock := (forms.map (·.size)).foldl max 1
  let blockWidth := (forms.map fun f => perBlock / f.size * (f.width + 1)).foldl max 0
  let radix := (o.value? "A").getD "o"
  let address (n : Nat) : String := match radix with
    | "n" => ""
    | "d" => Number.padded 7 n
    | "x" => let d := Nat.toDigits 16 n; String.ofList (List.replicate (6 - d.length) '0' ++ d)
    | _ => let d := Nat.toDigits 8 n; String.ofList (List.replicate (7 - d.length) '0' ++ d)
  let blank := String.ofList (List.replicate (address 0).length ' ')
  let mut last : Option (List Char) := none
  let mut isSkipping := false
  for k in List.range ((bytes.length + lineBytes - 1) / lineBytes) do
    let own := (bytes.drop (k * lineBytes)).take lineBytes
    if !o.has "v" && last == some own && own.length == lineBytes then
      if !isSkipping then printLine "*"
      isSkipping := true
    else
      isSkipping := false
      for (f, i) in forms.zipIdx do
        printLine ((if i = 0 then address (skipped + k * lineBytes) else blank) ++
          f.line perBlock blockWidth lineBytes own)
    last := some own
  if radix != "n" then printLine (address (skipped + bytes.length))

/-- A program that prints and checks sums of files. -/
def sumProgram (label : String) (sum : Text.Bytes → String) : Program := fun _ arguments => do
  let o ← ({ letters := "bctwz"
             names := [("binary", "b", .never), ("check", "c", .never), ("text", "t", .never),
               ("tag", "tag", .never), ("status", "status", .never), ("quiet", "quiet", .never),
               ("strict", "strict", .never), ("ignore-missing", "missing", .never)] }
    : OptionTable).read arguments
  for name in (if o.operands.isEmpty then ["-"] else o.operands) do
    if let some cs ← input? name then
      if o.has "c" then check o name cs
      else
        let digest := sum (Text.toBytes cs)
        if o.has "tag" then printLine (label ++ " (" ++ name ++ ") = " ++ digest)
        else printLine (digest ++ (if o.has "b" then " *" else "  ") ++ name)
where
  check (o : Options) (list : String) (cs : List Char) : ToolM Unit := do
    let mut wrong := 0
    let mut unread := 0
    let mut right := 0
    for line in (linesOf cs).map bodyOf do
      let digest := String.ofList (line.takeWhile (· != ' '))
      let name := String.ofList (line.drop (digest.length + 2))
      if !name.isEmpty then
        match ← content name with
        | .error e =>
          complain (quoteIfNeeded name ++ ": " ++ e.reason)
          if !o.has "status" then printLine (name ++ ": FAILED open or read")
          unread := unread + 1
        | .ok bytes =>
          let isSame := sum (Text.toBytes bytes) == digest
          if isSame then right := right + 1 else wrong := wrong + 1
          if !o.has "status" && !(isSame && o.has "quiet") then
            printLine (name ++ if isSame then ": OK" else ": FAILED")
    if wrong + unread + right == 0 then
      complain (quoteIfNeeded list ++ ": no properly formatted checksum lines found")
    if 0 < unread && !o.has "status" then
      complain ("WARNING: " ++ toString unread ++ " listed file" ++ (if unread = 1 then "" else "s") ++
        " could not be read")
    if 0 < wrong && !o.has "status" then
      complain ("WARNING: " ++ toString wrong ++ " computed checksum" ++ (if wrong = 1 then "" else "s") ++
        " did NOT match")
    if 0 < wrong + unread then setStatus 1

def sha256sum : Program := sumProgram "SHA256" Digest.ofBytes
def md5sum : Program := sumProgram "MD5" fun bytes => Digest.hexText (Digest.Md5.ofBytes bytes)
def sha1sum : Program := sumProgram "SHA1" fun bytes => Digest.hexText (Digest.Sha1.ofBytes bytes)

def cksum : Program := fun _ arguments => do
  let o ← ({} : OptionTable).read arguments
  for name in (if o.operands.isEmpty then ["-"] else o.operands) do
    if let some cs ← input? name then
      let bytes := Text.toBytes cs
      printLine (toString (Digest.cyclicCheck bytes) ++ " " ++ toString bytes.length ++
        if o.operands.isEmpty then "" else " " ++ name)

end TestSynth.Programs
