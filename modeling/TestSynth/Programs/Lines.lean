import TestSynth.Programs.Options
/-!
Programs that pass lines on: all of them, the first or the last, in another order, with numbers, or
their counts.
-/
namespace TestSynth.Programs

open Process Tool

/-- A text filled with blanks in front up to a width. -/
def padLeft (width : Nat) (text : String) : String :=
  String.ofList (List.replicate (width - text.length) ' ') ++ text

/-- A character in a form that can be read: controls with a hat, high ones with a mark. -/
def visible (showsTabs : Bool) (c : Char) : List Char :=
  let n := c.toNat
  if c == '\n' || (c == '\t' && !showsTabs) then [c]
  else if 128 ≤ n then ['M', '-'] ++ low (n - 128)
  else low n
where
  low (n : Nat) : List Char :=
    if n < 32 then ['^', Char.ofNat (n + 64)] else if n = 127 then ['^', '?'] else [Char.ofNat n]

structure CatState where
  number : Nat := 0
  blanks : Nat := 0

def cat : Program := fun _ arguments => do
  let o ← ({ letters := "nbsETvAetu"
             names := [("number", "n", .never), ("number-nonblank", "b", .never),
               ("squeeze-blank", "s", .never), ("show-ends", "E", .never), ("show-tabs", "T", .never),
               ("show-nonprinting", "v", .never), ("show-all", "A", .never)] } : OptionTable).read arguments
  let showsEnds := o.has "E" || o.has "A" || o.has "e"
  let showsTabs := o.has "T" || o.has "A" || o.has "t"
  let showsAll := o.has "v" || o.has "A" || o.has "e" || o.has "t"
  let isPlain := o.given.all fun g => g.1 == "u"
  let mut state : CatState := {}
  for name in (if o.operands.isEmpty then ["-"] else o.operands) do
    if let some cs ← input? name then
      if isPlain then put cs
      else
        for line in linesOf cs do
          let body := bodyOf line
          let isBlank := line == ['\n']
          let blanks := if isBlank then state.blanks + 1 else 0
          state := { state with blanks }
          if !(o.has "s" && 1 < blanks) then
            let numbers := if o.has "b" then !isBlank else o.has "n"
            if numbers then
              state := { state with number := state.number + 1 }
              print (padLeft 6 (toString state.number) ++ "\t")
            let shown := if showsAll then body.flatMap (visible showsTabs)
              else if showsTabs then body.flatMap fun c => if c == '\t' then ['^', 'I'] else [c]
              else body
            put (shown ++ (if showsEnds && line != body then ['$'] else []) ++
              line.drop body.length)

def tac : Program := fun _ arguments => do
  let o ← ({} : OptionTable).read arguments
  for name in (if o.operands.isEmpty then ["-"] else o.operands) do
    match ← content name with
    | .ok cs => put (linesOf cs).reverse.flatten
    | .error e => complain ("failed to open " ++ quoteShell name ++ " for reading: " ++ e.reason)

def rev : Program := fun _ arguments => do
  for name in (if arguments.isEmpty then ["-"] else arguments) do
    match ← content name with
    | .ok cs => for line in linesOf cs do put ((bodyOf line).reverse ++ line.drop (bodyOf line).length)
    | .error e => complain ("cannot open " ++ name ++ ": " ++ e.reason)

/-- Multipliers behind a number of bytes. -/
def unitOf? (suffix : List Char) : Option Nat :=
  match String.ofList suffix with
  | "" => some 1
  | "b" => some 512
  | "kB" => some 1000
  | "k" | "K" | "KiB" => some 1024
  | "MB" => some (1000 * 1000)
  | "m" | "M" | "MiB" => some (1024 * 1024)
  | "GB" => some (1000 * 1000 * 1000)
  | "G" | "GiB" => some (1024 * 1024 * 1024)
  | _ => none

/-- A number with a unit and maybe a sign in front. -/
def signedCount? (word : String) : Option (Option Char × Nat) :=
  let (sign, cs) := match word.toList with
    | '-' :: rest => (some '-', rest)
    | '+' :: rest => (some '+', rest)
    | cs => (none, cs)
  let digits := cs.takeWhile Char.isDigit
  if digits.isEmpty then none
  else (unitOf? (cs.drop digits.length)).map fun unit => (sign, Number.ofDigits digits * unit)

/-- The options of old for a count, written as a number behind a dash, as an option with a value. -/
def modernCount (arguments : List String) : List String :=
  match arguments with
  | word :: rest => match word.toList with
    | '-' :: c :: cs =>
      let digits := (c :: cs).takeWhile Char.isDigit
      let letters := (c :: cs).drop digits.length
      if digits.isEmpty then arguments
      else
        let kind := if letters.contains 'c' then "-c" else "-n"
        let others := letters.filter fun l => l != 'c' && l != 'l'
        (if others.isEmpty then [] else ["-" ++ String.ofList others]) ++
          kind :: String.ofList digits :: rest
    | _ => arguments
  | [] => []

def partOptions : OptionTable :=
  { letters := "qvfzF", valued := "nc"
    names := [("lines", "n", .always), ("bytes", "c", .always), ("quiet", "q", .never),
      ("silent", "q", .never), ("verbose", "v", .never), ("follow", "f", .maybe),
      ("zero-terminated", "z", .never)] }

/-- Prints a part of each input, under its name if there are several. -/
def printParts (o : Options) (part : List Char → List Char) : ToolM Unit := do
  let names := if o.operands.isEmpty then ["-"] else o.operands
  let shows := match o.last? ["q", "v"] with
    | some k => k == "v"
    | none => 1 < names.length
  let mut isFirst := true
  for name in names do
    match ← content name with
    | .ok cs =>
      if shows then
        let shown := if name == "-" then "standard input" else name
        print ((if isFirst then "" else "\n") ++ "==> " ++ shown ++ " <==\n")
        isFirst := false
      put (part cs)
    | .error .isDirectory =>
      if shows then
        print ((if isFirst then "" else "\n") ++ "==> " ++ name ++ " <==\n")
        isFirst := false
      complain ("error reading " ++ quoteShell name ++ ": Is a directory")
    | .error e => complain ("cannot open " ++ quoteShell name ++ " for reading: " ++ e.reason)

def readCount (word what : String) : ToolM (Option Char × Nat) := do
  match signedCount? word with
  | some n => return n
  | none => abort ("invalid number of " ++ what ++ ": " ++ quote word)

/-- The first lines or bytes, or all but the last ones. -/
def head : Program := fun _ arguments => do
  let o ← partOptions.read (modernCount arguments)
  match o.last? ["n", "c"] with
  | some "c" =>
    let (sign, n) ← readCount ((o.value? "c").getD "") "bytes"
    printParts o fun cs => if sign == some '-' then cs.take (cs.length - n) else cs.take n
  | _ =>
    let (sign, n) ← readCount ((o.value? "n").getD "10") "lines"
    printParts o fun cs =>
      let lines := linesOf cs
      (if sign == some '-' then lines.take (lines.length - n) else lines.take n).flatten

/-- The last lines or bytes, or those from a number on. -/
def tail : Program := fun _ arguments => do
  let o ← partOptions.read (modernCount arguments)
  match o.last? ["n", "c"] with
  | some "c" =>
    let (sign, n) ← readCount ((o.value? "c").getD "") "bytes"
    printParts o fun cs => if sign == some '+' then cs.drop (n - 1) else cs.drop (cs.length - n)
  | _ =>
    let (sign, n) ← readCount ((o.value? "n").getD "10") "lines"
    printParts o fun cs =>
      let lines := linesOf cs
      (if sign == some '+' then lines.drop (n - 1) else lines.drop (lines.length - n)).flatten

/-- What is counted in a text. -/
structure Counts where
  lines : Nat := 0
  words : Nat := 0
  chars : Nat := 0
  bytes : Nat := 0
  widest : Nat := 0

namespace Counts

def add (a b : Counts) : Counts :=
  ⟨a.lines + b.lines, a.words + b.words, a.chars + b.chars, a.bytes + b.bytes, max a.widest b.widest⟩

def isSpace (c : Char) : Bool := c == ' ' || ('\t' ≤ c && c ≤ '\r')

def widthOf (line : List Char) : Nat :=
  line.foldl (fun n c => if c == '\t' then (n / 8 + 1) * 8 else if ' ' ≤ c && c ≤ '~' then n + 1 else n) 0

def of (cs : List Char) : Counts :=
  { lines := cs.count '\n'
    words := ((Text.fields isSpace cs).filter (!·.isEmpty)).length
    chars := cs.length
    bytes := cs.length
    widest := ((linesOf cs).map fun l => widthOf (bodyOf l)).foldl max 0 }

end Counts

/-- Whether an input is a plain file, and how long that is. -/
def plainSize? (name : String) : ToolM (Option Nat) := do
  let s ← get
  if name == "-" then
    match (s.session.fileOf? standardInput).bind fun index => s.session.system.opened[index]? with
    | some { channel := .file place, .. } => match s.session.system.root.get? place with
      | some (.file bytes _) => return some bytes.length
      | _ => return none
    | _ => return none
  else match (← tree).find (Session.pathOf name) with
    | .ok (_, .file bytes _) => return some bytes.length
    | _ => return none

def wc : Program := fun _ arguments => do
  let o ← ({ letters := "lwcmL"
             names := [("lines", "l", .never), ("words", "w", .never), ("bytes", "c", .never),
               ("chars", "m", .never), ("max-line-length", "L", .never)] } : OptionTable).read arguments
  let keys := ["l", "w", "m", "c", "L"].filter o.has
  let keys := if keys.isEmpty then ["l", "w", "c"] else keys
  let names := if o.operands.isEmpty then ["-"] else o.operands
  let sizes ← names.mapM plainSize?
  let present ← names.filterM fun n => do
    return n == "-" || (← tree).pathExists (Session.pathOf n) || (Session.device? n).isSome
  let least := if names.zip sizes |>.any fun (n, size) => size.isNone && present.contains n then 7 else 1
  let total := Number.total (sizes.filterMap id)
  let width := if names.length == 1 && keys.length == 1 then 1
    else if !(present.contains (names.headD "")) then 1
    else max least (toString total).length
  let row (c : Counts) (name : String) : String :=
    let cells := keys.map fun k => padLeft width (toString (match k with
      | "l" => c.lines
      | "w" => c.words
      | "m" => c.chars
      | "c" => c.bytes
      | _ => c.widest))
    String.intercalate " " (cells ++ if name.isEmpty then [] else [name])
  let mut all : Counts := {}
  for name in names do
    match ← content name with
    | .ok cs =>
      let c := Counts.of cs
      all := all.add c
      printLine (row c (if o.operands.isEmpty then "" else name))
    | .error e =>
      complain (quoteIfNeeded name ++ ": " ++ e.reason)
      if e == .isDirectory then printLine (row {} name)
  if 1 < names.length then printLine (row all "total")

/-- Lines with numbers in front; which lines get one is asked for with a letter. -/
def nl : Program := fun _ arguments => do
  let o ← ({ letters := "p", valued := "bnwsvihfld"
             names := [("body-numbering", "b", .always), ("number-width", "w", .always),
               ("number-separator", "s", .always), ("number-format", "n", .always),
               ("starting-line-number", "v", .always), ("line-increment", "i", .always)] }
    : OptionTable).read arguments
  let width := ((o.value? "w").bind count?).getD 6
  let separator := (o.value? "s").getD "\t"
  let first := ((o.value? "v").bind count?).getD 1
  let step := ((o.value? "i").bind count?).getD 1
  let style := (o.value? "b").getD "t"
  let format := (o.value? "n").getD "rn"
  let mut number := first
  for name in (if o.operands.isEmpty then ["-"] else o.operands) do
    if let some cs ← input? name then
      for line in linesOf cs do
        let body := bodyOf line
        let numbered := style == "a" || (style == "t" && !body.isEmpty)
        if numbered then
          let digits := toString number
          let shown := match format with
            | "ln" => digits ++ String.ofList (List.replicate (width - digits.length) ' ')
            | "rz" => String.ofList (List.replicate (width - digits.length) '0') ++ digits
            | _ => padLeft width digits
          print (shown ++ separator)
          number := number + step
        else print (String.ofList (List.replicate (width + separator.length) ' '))
        put (body ++ ['\n'])

/-- Copies the input to the output and to files. -/
def tee : Program := fun _ arguments => do
  let o ← ({ letters := "aip", names := [("append", "a", .never)] } : OptionTable).read arguments
  let cs := match ← content "-" with
    | .ok cs => cs
    | .error _ => []
  put cs
  for name in o.operands do
    let mode : OpenMode := if o.has "a" then .append else .write
    let outcome ← inSession do
      let before := (← get).descriptors
      let opened ← Session.openAs 99 name mode
      match opened with
      | .ok () =>
        let _ ← Session.write 99 cs
        modify fun s => { s with descriptors := before }
        return opened
      | .error _ => return opened
    if let .error e := outcome then complain (quoteIfNeeded name ++ ": " ++ e.reason)

end TestSynth.Programs
