import TestSynth.Programs.Format
import TestSynth.Programs.Lines
import TestSynth.Text.Pattern
/-!
Programs that work inside lines: cutting columns, putting lines beside each other, exchanging
characters, and folding.
-/
namespace TestSynth.Programs

open Process Tool

/-- Numbers from one on, from the first to the last. -/
structure NumberRange where
  first : Nat
  last : Option Nat
deriving DecidableEq, Repr, Inhabited

namespace NumberRange

def holds (r : NumberRange) (n : Nat) : Bool := r.first ≤ n && r.last.all (n ≤ ·)

/-- The ranges of a list such as `1,3-5,7-`, or what is wrong with it. -/
def parse (what : String) (word : String) : Except String (List NumberRange) :=
  (Text.fields (fun c => c == ',' || c == ' ') word.toList).mapM fun part => do
    let low := part.takeWhile Char.isDigit
    match part.drop low.length with
    | [] =>
      if low.isEmpty then .error ("invalid " ++ what ++ " range")
      let n := Number.ofDigits low
      if n = 0 then .error (what ++ "s are numbered from 1")
      return ⟨n, some n⟩
    | '-' :: rest =>
      if !rest.all Char.isDigit then .error ("invalid " ++ what ++ " range")
      if low.isEmpty && rest.isEmpty then .error "invalid range with no endpoint: -"
      let first := if low.isEmpty then 1 else Number.ofDigits low
      if first = 0 then .error (what ++ "s are numbered from 1")
      let last := if rest.isEmpty then none else some (Number.ofDigits rest)
      if last.any (· < first) then .error "invalid decreasing range"
      return ⟨first, last⟩
    | _ => .error ("invalid " ++ what ++ " value " ++ quote (String.ofList part))

end NumberRange

def cut : Program := fun _ arguments => do
  let o ← ({ letters := "snz", valued := "bcfd"
             names := [("bytes", "b", .always), ("characters", "c", .always), ("fields", "f", .always),
               ("delimiter", "d", .always), ("only-delimited", "s", .never),
               ("complement", "complement", .never), ("output-delimiter", "join", .always)] }
    : OptionTable).read arguments
  let lists := o.given.filter fun g => ["b", "c", "f"].contains g.1
  match lists with
  | [] => abortWithHint "you must specify a list of bytes, characters, or fields"
  | _ :: _ :: _ => abortWithHint "only one list may be specified"
  | [(kind, list)] =>
    let byFields := kind == "f"
    if let some d := o.value? "d" then
      if 1 < d.length then abortWithHint "the delimiter must be a single character"
      if !byFields then abortWithHint "an input delimiter may be specified only when operating on fields"
    let ranges ← match NumberRange.parse (if byFields then "field" else "byte or character") list with
      | .ok ranges => pure ranges
      | .error message =>
        let message := if message == "byte or characters are numbered from 1" then
            "byte/character positions are numbered from 1" else message
        abortWithHint message
    let wanted (n : Nat) : Bool := (ranges.any (·.holds n)) != o.has "complement"
    let delimiter := match o.value? "d" with
      | some d => d.toList.headD (Char.ofNat 0)
      | none => '\t'
    for name in (if o.operands.isEmpty then ["-"] else o.operands) do
      if let some cs ← input? name then
        for line in linesOf cs do
          let body := bodyOf line
          if byFields then
            let fields := Text.fields (· == delimiter) body
            if fields.length == 1 then
              if !o.has "s" then put (body ++ ['\n'])
            else
              let chosen := (fields.zipIdx 1).filter fun (_, n) => wanted n
              let between := (o.value? "join").elim [delimiter] String.toList
              put (Text.joinWith between (chosen.map (·.1)) ++ ['\n'])
          else
            let chosen := (body.zipIdx 1).filter fun (_, n) => wanted n
            match o.value? "join" with
            | none => put (chosen.map (·.1) ++ ['\n'])
            | some between =>
              let groups := chosen.foldr (fun (c, n) (acc : List (Nat × List Char)) => match acc with
                | (m, cs) :: rest =>
                  if m = n + 1 && !(ranges.any fun r => r.first == m) then (n, c :: cs) :: rest
                  else (n, [c]) :: acc
                | [] => [(n, [c])]) []
              put (Text.joinWith between.toList (groups.map (·.2)) ++ ['\n'])

/-- Lines beside each other, with delimiters in turn between them. -/
def paste : Program := fun _ arguments => do
  let o ← ({ letters := "sz", valued := "d"
             names := [("serial", "s", .never), ("delimiters", "d", .always)] }
    : OptionTable).read arguments
  let list := (o.value? "d").getD "\t"
  let delimiters := delimitersOf (list.length + 1) list.toList
  let delimiter (k : Nat) : List Char :=
    if delimiters.isEmpty then [] else delimiters.getD (k % delimiters.length) []
  let join (fields : List (List Char)) : List Char :=
    ((fields.zipIdx).map fun (f, k) => if k = 0 then f else delimiter (k - 1) ++ f).flatten
  let names := if o.operands.isEmpty then ["-"] else o.operands
  if o.has "s" then
    for name in names do
      if let some cs ← input? name then put (join ((linesOf cs).map bodyOf) ++ ['\n'])
  else
    let inputCount := (names.filter (· == "-")).length
    let shared ← if 0 < inputCount then do
        match ← content "-" with
        | .ok cs => pure ((linesOf cs).map bodyOf)
        | .error _ => pure []
      else pure []
    let mut columns : List (List (List Char)) := []
    let mut turn := 0
    for name in names do
      if name == "-" then
        let own := (shared.zipIdx.filter fun (_, k) => k % inputCount == turn).map (·.1)
        columns := columns ++ [own]
        turn := turn + 1
      else match ← content name with
        | .ok cs => columns := columns ++ [(linesOf cs).map bodyOf]
        | .error e => abort (quoteIfNeeded name ++ ": " ++ e.reason)
    let rows := (columns.map List.length).foldl max 0
    for row in List.range rows do
      put (join (columns.map fun c => c.getD row []) ++ ['\n'])
where
  delimitersOf : Nat → List Char → List (List Char)
    | 0, _ | _, [] => []
    | n + 1, '\\' :: '0' :: cs => [] :: delimitersOf n cs
    | n + 1, '\\' :: cs =>
      let (c, rest) := escape cs
      [c] :: delimitersOf n rest
    | n + 1, c :: cs => [c] :: delimitersOf n cs

/-- The characters of a class in order. -/
def classMembers (name : String) : List Char :=
  ((List.range 256).map Char.ofNat).filter (Text.inNamedClass name)

/-- A set of characters in the order in which it is written; a last character that is repeated as
often as needed stands apart. -/
structure CharList where
  front : List Char := []
  filler : Option (Char × List Char) := none

/-- A character of a set, maybe written with a backslash. -/
def setChar (cs : List Char) : Option (Char × List Char) :=
  match cs with
  | [] => none
  | '\\' :: c :: rest =>
    let (d, left) := escape (c :: rest)
    if d == '\\' && left.length == rest.length + 1 then some (c, rest) else some (d, left)
  | c :: rest => some (c, rest)

/-- The characters that a set stands for. The first argument bounds the length. -/
def readSet : Nat → List Char → Except String CharList
  | 0, _ | _, [] => .ok {}
  | n + 1, '[' :: ':' :: rest =>
    let name := rest.takeWhile Char.isLower
    match rest.drop name.length with
    | ':' :: ']' :: more =>
      if Text.classNames.contains (String.ofList name) then
        prepend (classMembers (String.ofList name)) <$> readSet n more
      else .error ("invalid character class " ++ quote (String.ofList name))
    | _ => prepend ['['] <$> readSet n (':' :: rest)
  | n + 1, '[' :: '=' :: c :: '=' :: ']' :: more => prepend [c] <$> readSet n more
  | n + 1, cs => do
    match repeatOf? cs with
    | some (c, 0, rest) =>
      let more ← readSet n rest
      return { filler := some (c, more.front) }
    | some (c, count, rest) => prepend (List.replicate count c) <$> readSet n rest
    | none => match setChar cs with
      | none => return {}
      | some (low, '-' :: rest) => match setChar rest with
        | none => return prepend [low, '-'] {}
        | some (high, rest) =>
          if high < low then
            .error ("range-endpoints of " ++ quote (String.ofList [low, '-', high]) ++
              " are in reverse collating sequence order")
          let range := (List.range (high.toNat - low.toNat + 1)).map fun k => Char.ofNat (low.toNat + k)
          prepend range <$> readSet n rest
      | some (c, rest) => prepend [c] <$> readSet n rest
where
  prepend (front : List Char) (l : CharList) : CharList :=
    match l.filler with
    | some _ => { l with front := front ++ l.front }
    | none => { l with front := front ++ l.front }
  repeatOf? (cs : List Char) : Option (Char × Nat × List Char) :=
    match cs with
    | '[' :: rest => match setChar rest with
      | some (c, '*' :: more) =>
        let digits := more.takeWhile Char.isDigit
        match more.drop digits.length with
        | ']' :: behind =>
          let base := if digits.head? == some '0' then 8 else 10
          some (c, digits.foldl (fun n d => base * n + Number.digitValue d) 0, behind)
        | _ => none
      | _ => none
    | _ => none

/-- The set with as many characters as another one has. -/
def CharList.fill (l : CharList) (count : Nat) : List Char :=
  match l.filler with
  | none => l.front
  | some (c, back) => l.front ++ List.replicate (count - l.front.length - back.length) c ++ back

/-- Repeated characters of a set as one. -/
def squeeze (inSet : Char → Bool) : List Char → List Char
  | [] => []
  | c :: cs => match squeeze inSet cs with
    | d :: ds => if c == d && inSet c then d :: ds else c :: d :: ds
    | [] => [c]

def tr : Program := fun _ arguments => do
  let o ← ({ letters := "cCdst", anywhere := false
             names := [("complement", "c", .never), ("delete", "d", .never),
               ("squeeze-repeats", "s", .never), ("truncate-set1", "t", .never)] }
    : OptionTable).read arguments
  let complements := o.has "c" || o.has "C"
  let deletes := o.has "d"
  let squeezes := o.has "s"
  let most := if deletes && !squeezes then 1 else 2
  let least := if deletes == squeezes then 2 else 1
  let hint {α : Type} (message explanation : String) : ToolM α := do
    complain message
    if !explanation.isEmpty then say (explanation ++ "\n")
    say ("Try '" ++ (← get).name ++ " --help' for more information.\n")
    finish 1
  match o.operands with
  | [] => hint "missing operand" ""
  | [a] =>
    if 1 < least then
      hint ("missing operand after " ++ quote a)
        (if squeezes then "Two strings must be given when both deleting and squeezing repeats."
          else "Two strings must be given when translating.")
  | _ :: rest =>
    if let some extra := rest[most - 1]? then
      hint ("extra operand " ++ quote extra)
        (if most == 1 then "Only one string may be given when deleting without squeezing repeats." else "")
  let sets ← o.operands.mapM fun w => do
    match readSet (w.length + 1) w.toList with
    | .ok s => return s
    | .error message => abort message
  let first := (sets.headD {}).fill 0
  let first := if complements then
      ((List.range 256).map Char.ofNat).filter fun c => !first.contains c
    else first
  let cs := match ← content "-" with
    | .ok cs => cs
    | .error _ => []
  match sets[1]? with
  | none =>
    if deletes then put (cs.filter fun c => !first.contains c)
    else put (squeeze first.contains cs)
  | some second =>
    let second := second.fill first.length
    if deletes then put (squeeze second.contains (cs.filter fun c => !first.contains c))
    else
      if second.isEmpty then abort "when not truncating set1, string2 must be non-empty"
      let first := if o.has "t" then first.take second.length else first
      let last := second.getLastD ' '
      let table := ((first.zipIdx).map fun (c, k) => (c, second.getD k last)).reverse
      let image := (Array.range 256).map fun n => (table.lookup (Char.ofNat n)).getD (Char.ofNat n)
      let translated := cs.map fun c => image.getD c.toNat c
      put (if squeezes then squeeze second.contains translated else translated)

/-- A line in parts that are no wider than a width. -/
def foldLine (width : Nat) (atBlanks : Bool) : Nat → List Char → List (List Char)
  | 0, cs => [cs]
  | n + 1, cs =>
    if cs.length ≤ width then [cs]
    else
      let front := cs.take width
      let cut := if atBlanks then
          (front.reverse.dropWhile fun c => c != ' ' && c != '\t').length
        else width
      let cut := if cut = 0 then width else cut
      cs.take cut :: foldLine width atBlanks n (cs.drop cut)

def fold : Program := fun _ arguments => do
  let arguments := match arguments with
    | w :: rest => match w.toList with
      | '-' :: c :: _ => if c.isDigit then "-w" :: String.ofList (w.toList.drop 1) :: rest else arguments
      | _ => arguments
    | [] => []
  let o ← ({ letters := "bs", valued := "w"
             names := [("width", "w", .always), ("bytes", "b", .never), ("spaces", "s", .never)] }
    : OptionTable).read arguments
  let width ← match o.value? "w" with
    | none => pure 80
    | some w => match count? w with
      | some (n + 1) => pure (n + 1)
      | _ => abort ("invalid number of columns: " ++ quote w)
  for name in (if o.operands.isEmpty then ["-"] else o.operands) do
    if let some cs ← input? name then
      for line in linesOf cs do
        let body := bodyOf line
        let parts := foldLine width (o.has "s") (body.length + 1) body
        put (Text.joinWith ['\n'] parts ++ line.drop body.length)

/-- The column behind the next stop. -/
def nextStop (stops : List Nat) (column : Nat) : Option Nat :=
  match stops with
  | [] => some ((column / 8 + 1) * 8)
  | [step] => some ((column / max 1 step + 1) * max 1 step)
  | stops => stops.find? (column < ·)

def readStops (o : Options) : List Nat :=
  (o.values "t").flatMap fun w =>
    ((Text.fields (fun c => c == ',' || c == ' ') w.toList).filter (!·.isEmpty)).map Number.ofDigits

def expand : Program := fun _ arguments => do
  let o ← ({ letters := "i", valued := "t", names := [("tabs", "t", .always), ("initial", "i", .never)] }
    : OptionTable).read arguments
  let stops := readStops o
  for name in (if o.operands.isEmpty then ["-"] else o.operands) do
    if let some cs ← input? name then
      for line in linesOf cs do
        let step (acc : List Char × Nat × Bool) (c : Char) : List Char × Nat × Bool :=
          let (out, column, atStart) := acc
          if c == '\t' && (atStart || !o.has "i") then
            let next := (nextStop stops column).getD (column + 1)
            (List.replicate (next - column) ' ' ++ out, next, atStart)
          else (c :: out, column + 1, atStart && (c == ' ' || c == '\t'))
        put (line.foldl step ([], 0, true)).1.reverse

def unexpand : Program := fun _ arguments => do
  let o ← ({ letters := "a", valued := "t", names := [("tabs", "t", .always), ("all", "a", .never),
    ("first-only", "first", .never)] } : OptionTable).read arguments
  let stops := readStops o
  let everywhere := (o.has "a" || o.has "t") && !o.has "first"
  for name in (if o.operands.isEmpty then ["-"] else o.operands) do
    if let some cs ← input? name then
      for line in linesOf cs do
        put (convert stops everywhere (line.length + 1) 0 0 line)
where
  /-- Blanks up to a stop become a tab; `pending` counts those that are not written yet. -/
  convert (stops : List Nat) (everywhere : Bool) : Nat → Nat → Nat → List Char → List Char
    | 0, _, _, cs => cs
    | _, _, pending, [] => List.replicate pending ' '
    | n + 1, column, pending, c :: cs =>
      if c == ' ' then
        let column := column + 1
        let pending := pending + 1
        if some column == nextStop stops (column - pending) then
          if pending = 1 && cs.head? != some ' ' then
            ' ' :: convert stops everywhere n column 0 cs
          else '\t' :: convert stops everywhere n column 0 cs
        else convert stops everywhere n column pending cs
      else if c == '\t' then
        '\t' :: convert stops everywhere n ((nextStop stops column).getD (column + 1)) 0 cs
      else
        let rest := if everywhere then convert stops everywhere n (column + 1) 0 cs else cs
        List.replicate pending ' ' ++ c :: rest

end TestSynth.Programs
