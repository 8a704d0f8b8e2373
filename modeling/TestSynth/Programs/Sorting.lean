import TestSynth.Number.Layout
import TestSynth.Programs.Lines
/-!
Programs that go by the order of lines: sorting them, leaving out repeated ones, and comparing files
that are in order.
-/
namespace TestSynth.Programs

open Process Tool

/-- How two keys are compared. -/
structure KeyOrder where
  ignoresBlanks : Bool := false
  isNumeric : Bool := false
  isGeneral : Bool := false
  isHuman : Bool := false
  isMonth : Bool := false
  isVersion : Bool := false
  isReversed : Bool := false
  foldsCase : Bool := false
  isDictionary : Bool := false
  printableOnly : Bool := false
deriving DecidableEq, Repr, Inhabited

/-- A part of a line by fields and characters, counted from zero. -/
structure SortKey where
  field : Nat := 0
  char : Nat := 0
  /-- The field in which the key ends and the character behind it; zero for the end of the field. -/
  limit : Option (Nat × Nat) := none
  skipsEndBlanks : Bool := false
  order : KeyOrder := {}
deriving DecidableEq, Repr, Inhabited

namespace KeyOrder

def ofLetter (o : KeyOrder) (c : Char) : Option KeyOrder :=
  match c with
  | 'b' => some { o with ignoresBlanks := true }
  | 'n' => some { o with isNumeric := true }
  | 'g' => some { o with isGeneral := true }
  | 'h' => some { o with isHuman := true }
  | 'M' => some { o with isMonth := true }
  | 'V' => some { o with isVersion := true }
  | 'r' => some { o with isReversed := true }
  | 'f' => some { o with foldsCase := true }
  | 'd' => some { o with isDictionary := true }
  | 'i' => some { o with printableOnly := true }
  | _ => none

def isBlank (c : Char) : Bool := c == ' ' || c == '\t' || c == '\n'

/-- The number at the front of a text: its sign, its digits and how many of them are decimals. -/
def number (cs : List Char) : Bool × Nat × Nat :=
  let cs := cs.dropWhile isBlank
  let (negative, cs) := match cs with
    | '-' :: rest => (true, rest)
    | cs => (false, cs)
  let whole := cs.takeWhile Char.isDigit
  let fraction := match cs.drop whole.length with
    | '.' :: rest => rest.takeWhile Char.isDigit
    | _ => []
  (negative, Number.ofDigits (whole ++ fraction), fraction.length)

def compareNumbers (a b : List Char) : Ordering :=
  let (na, da, fa) := number a
  let (nb, db, fb) := number b
  let x : Int := (if na then -1 else 1) * Int.ofNat (da * Nat.pow 10 fb)
  let y : Int := (if nb then -1 else 1) * Int.ofNat (db * Nat.pow 10 fa)
  compare x y

/-- The rank of the unit behind a number. -/
def unitRank (cs : List Char) : Nat :=
  let body := cs.dropWhile fun c => isBlank c || c == '-' || c.isDigit || c == '.'
  match body.head? with
  | some 'k' | some 'K' => 1
  | some 'M' => 2
  | some 'G' => 3
  | some 'T' => 4
  | some 'P' => 5
  | _ => 0

def compareHuman (a b : List Char) : Ordering :=
  let signed (cs : List Char) : Int :=
    let (negative, digits, _) := number cs
    if digits = 0 then 0 else (if negative then -1 else 1) * ((unitRank cs + 1 : Nat) : Int)
  match compare (signed a) (signed b) with
  | .eq => compareNumbers a b
  | o => o

def compareGeneral (a b : List Char) : Ordering :=
  let value (cs : List Char) : Option Number.Binary64 := (Number.Binary64.readFront? cs).map (·.1)
  let rank : Option Number.Binary64 → Nat
    | none => 0
    | some .undefined => 1
    | some _ => 2
  match value a, value b with
  | some x, some y => (x.compare? y).getD (compare (rank (some x)) (rank (some y)))
  | x, y => compare (rank x) (rank y)

def months : List String :=
  ["JAN", "FEB", "MAR", "APR", "MAY", "JUN", "JUL", "AUG", "SEP", "OCT", "NOV", "DEC"]

def monthOf (cs : List Char) : Nat :=
  let name := String.ofList (((cs.dropWhile isBlank).take 3).map Char.toUpper)
  match months.findIdx? (· == name) with
  | some k => k + 1
  | none => 0

/-- Compares texts with runs of digits as numbers. The first argument bounds the length. -/
def compareVersions : Nat → List Char → List Char → Ordering
  | 0, _, _ => .eq
  | _, [], [] => .eq
  | _, [], c :: _ => if c == '~' then .gt else .lt
  | _, c :: _, [] => if c == '~' then .lt else .gt
  | n + 1, c :: cs, d :: ds =>
    if c.isDigit && d.isDigit then
      let a := (c :: cs).takeWhile Char.isDigit
      let b := (d :: ds).takeWhile Char.isDigit
      match compare (Number.ofDigits a) (Number.ofDigits b) with
      | .eq => compareVersions n ((c :: cs).drop a.length) ((d :: ds).drop b.length)
      | o => o
    else
      let rank (c : Char) : Nat :=
        if c == '~' then 0 else if c.isDigit then 1 else if c.isAlpha then c.toNat + 2 else c.toNat + 256
      match compare (rank c) (rank d) with
      | .eq => compareVersions n cs ds
      | o => o

/-- The characters that count. -/
def kept (o : KeyOrder) (cs : List Char) : List Char :=
  let cs := if o.ignoresBlanks then cs.dropWhile isBlank else cs
  let cs := if o.isDictionary then cs.filter fun c => c.isAlphanum || isBlank c else cs
  let cs := if o.printableOnly then cs.filter fun c => ' ' ≤ c && c ≤ '~' else cs
  if o.foldsCase then cs.map Char.toUpper else cs

def compareTexts (a b : List Char) : Ordering := compareOfLessAndEq a b

def compareKeys (o : KeyOrder) (a b : List Char) : Ordering :=
  let result :=
    if o.isNumeric then compareNumbers a b
    else if o.isGeneral then compareGeneral a b
    else if o.isHuman then compareHuman a b
    else if o.isMonth then compare (monthOf a) (monthOf b)
    else if o.isVersion then compareVersions (a.length + b.length + 1) a b
    else compareTexts (o.kept a) (o.kept b)
  if o.isReversed then result.swap else result

end KeyOrder

namespace SortKey

/-- The number of characters in front of the field with a number. -/
def offsetOf (separator : Option Char) : Nat → List Char → Nat
  | 0, _ => 0
  | n + 1, cs => match separator with
    | some s =>
      let front := cs.takeWhile (· != s)
      let skipped := front.length + if front.length < cs.length then 1 else 0
      skipped + offsetOf separator n (cs.drop skipped)
    | none =>
      let skipped := (cs.takeWhile KeyOrder.isBlank).length
      let skipped := skipped + ((cs.drop skipped).takeWhile (!KeyOrder.isBlank ·)).length
      skipped + offsetOf separator n (cs.drop skipped)

/-- The part of a line that a key names. -/
def text (k : SortKey) (separator : Option Char) (line : List Char) : List Char :=
  let blanksAt (offset : Nat) : Nat := ((line.drop offset).takeWhile KeyOrder.isBlank).length
  let start := offsetOf separator k.field line
  let start := if k.order.ignoresBlanks then start + blanksAt start else start
  let start := min line.length (start + k.char)
  let stop := match k.limit with
    | none => line.length
    | some (field, 0) =>
      let stop := offsetOf separator (field + 1) line
      let endsWithMark := separator.isSome && 0 < stop && (line)[stop - 1]? == separator &&
        ((line.filter fun c => some c == separator).length > field)
      if endsWithMark then stop - 1 else stop
    | some (field, char) =>
      let stop := offsetOf separator field line
      let stop := if k.skipsEndBlanks then stop + blanksAt stop else stop
      min line.length (stop + char)
  (line.take stop).drop start

/-- The key that a definition names, such as `2.3,4n`. -/
def parse? (cs : List Char) : Option SortKey := do
  let place (cs : List Char) : Option (Nat × Nat × List Char) :=
    let field := cs.takeWhile Char.isDigit
    let rest := cs.drop field.length
    if field.isEmpty then none
    else match rest with
      | '.' :: rest =>
        let char := rest.takeWhile Char.isDigit
        some (Number.ofDigits field, Number.ofDigits char, rest.drop char.length)
      | rest => some (Number.ofDigits field, 0, rest)
  let letters (o : KeyOrder) (cs : List Char) : Option (KeyOrder × List Char) :=
    let front := cs.takeWhile (· != ',')
    (front.foldlM KeyOrder.ofLetter o).map fun o => (o, cs.drop front.length)
  let (field, char, rest) ← place cs
  if field = 0 then none
  let (order, rest) ← letters {} rest
  match rest with
  | [] => return { field := field - 1, char := char - 1, order }
  | _ :: rest =>
    let (limit, limitChar, rest) ← place rest
    if limit = 0 then none
    let (order, rest) ← letters order rest
    if !rest.isEmpty then none
    return { field := field - 1, char := char - 1, limit := some (limit - 1, limitChar)
             skipsEndBlanks := order.ignoresBlanks, order }

end SortKey

def compareByKeys (keys : List SortKey) (separator : Option Char) (a b : List Char) : Ordering :=
  keys.foldl (fun found k => match found with
    | .eq => k.order.compareKeys (k.text separator a) (k.text separator b)
    | o => o) .eq

/-- Lines of which each differs from the one before it. -/
def dropRepeated (same : List Char → List Char → Bool) : List (List Char) → List (List Char)
  | [] => []
  | line :: rest =>
    line :: dropRepeated same (rest.dropWhile (same line))
termination_by lines => lines.length
decreasing_by
  have := (List.dropWhile_suffix (l := rest) (same line)).length_le
  simp only [List.length_cons]
  omega

def sort : Program := fun _ arguments => do
  let o ← ({ letters := "nrubfdighMVscmzRC", valued := "ktoST", misuse := 2
             names := [("numeric-sort", "n", .never), ("reverse", "r", .never), ("unique", "u", .never),
               ("key", "k", .always), ("field-separator", "t", .always), ("output", "o", .always),
               ("ignore-case", "f", .never), ("ignore-leading-blanks", "b", .never),
               ("stable", "s", .never), ("check", "c", .maybe), ("version-sort", "V", .never),
               ("human-numeric-sort", "h", .never), ("general-numeric-sort", "g", .never),
               ("month-sort", "M", .never), ("dictionary-order", "d", .never), ("merge", "m", .never)] }
    : OptionTable).read arguments
  let order : KeyOrder := (o.given.filterMap fun g => g.1.toList.head?).foldl
    (fun k c => (k.ofLetter c).getD k) {}
  let keys ← (o.values "k").mapM fun word => do
    match SortKey.parse? word.toList with
    | some k => return (if k.order == {} then { k with order } else k)
    | none => abort ("invalid number at field start: invalid count at start of " ++ quote word) 2
  let keys := if !keys.isEmpty then keys
    else if { order with isReversed := false } == ({} : KeyOrder) then []
    else [{ order }]
  let separator := ((o.value? "t").bind fun s => if s == "\\0" then some (Char.ofNat 0) else s.toList.head?)
  let byKeys (a b : List Char) : Ordering :=
    if keys.isEmpty then
      let result := KeyOrder.compareTexts a b
      if order.isReversed then result.swap else result
    else compareByKeys keys separator a b
  let compareLines (a b : List Char) : Ordering :=
    match byKeys a b with
    | .eq =>
      if o.has "s" || o.has "u" then .eq
      else
        let result := KeyOrder.compareTexts a b
        if order.isReversed then result.swap else result
    | result => result
  let names := if o.operands.isEmpty then ["-"] else o.operands
  let mut lines : List (List Char) := []
  for name in names do
    match ← content name with
    | .ok cs => lines := lines ++ (linesOf cs).map bodyOf
    | .error .isDirectory => abort ("read failed: " ++ name ++ ": Is a directory") 2
    | .error e => abort ("cannot read: " ++ name ++ ": " ++ e.reason) 2
  if o.has "c" || o.has "C" then
    let isWrong (a b : List Char) : Bool :=
      compareLines a b == .gt || (o.has "u" && compareLines a b == .eq)
    match (lines.zip (lines.drop 1)).findIdx? fun (a, b) => isWrong a b with
    | none => return ()
    | some k =>
      if o.has "c" then
        complain (names.headD "-" ++ ":" ++ toString (k + 2) ++ ": disorder: " ++
          String.ofList (lines.getD (k + 1) []))
      finish 1
  let sorted := lines.mergeSort fun a b => compareLines a b != .gt
  let sorted := if o.has "u" then dropRepeated (fun a b => byKeys a b == .eq) sorted else sorted
  let text := (sorted.map (· ++ ['\n'])).flatten
  match o.value? "o" with
  | none => put text
  | some name =>
    match ← inSession (Session.change fun t => t.write (Session.pathOf name) (Text.toBytes text)) with
    | .ok () => return ()
    | .error e => abort ("open failed: " ++ name ++ ": " ++ e.reason) 2

/-- Groups of lines that are the same one after the other. -/
def runsOf (same : List Char → List Char → Bool) : List (List Char) → List (List (List Char))
  | [] => []
  | line :: rest => match runsOf same rest with
    | (next :: run) :: runs =>
      if same line next then (line :: next :: run) :: runs else [line] :: (next :: run) :: runs
    | runs => [line] :: runs

def uniq : Program := fun _ arguments => do
  let o ← ({ letters := "cduDiz", valued := "fsw"
             names := [("count", "c", .never), ("repeated", "d", .never), ("unique", "u", .never),
               ("ignore-case", "i", .never), ("skip-fields", "f", .always),
               ("skip-chars", "s", .always), ("check-chars", "w", .always),
               ("all-repeated", "D", .maybe)] } : OptionTable).read arguments
  let number (key : String) : Option Nat := (o.value? key).bind count?
  let skipFields (cs : List Char) : List Char :=
    (List.range ((number "f").getD 0)).foldl (fun cs _ =>
      (cs.dropWhile KeyOrder.isBlank).dropWhile (!KeyOrder.isBlank ·)) cs
  let keyOf (line : List Char) : List Char :=
    let cs := (skipFields line).drop ((number "s").getD 0)
    let cs := match number "w" with
      | some n => cs.take n
      | none => cs
    if o.has "i" then cs.map Char.toUpper else cs
  let name := o.operands.headD "-"
  match ← content name with
  | .error .isDirectory => abort ("error reading " ++ quote name)
  | .error e => abort (quoteIfNeeded name ++ ": " ++ e.reason)
  | .ok cs =>
    let runs := runsOf (fun a b => keyOf a == keyOf b) ((linesOf cs).map bodyOf)
    let shown := runs.flatMap fun run =>
      let count := run.length
      let front := if o.has "c" then (padLeft 7 (toString count) ++ " ").toList else []
      if o.has "D" then (if 1 < count then run else [])
      else if (o.has "d" && count == 1) || (o.has "u" && 1 < count) then []
      else (run.take 1).map fun line => front ++ line
    let text := (shown.map (· ++ ['\n'])).flatten
    match o.operands[1]? with
    | some target =>
      if target == "-" then put text
      else let _ ← change target fun t => t.write (Session.pathOf target) (Text.toBytes text)
    | none => put text

/-- The lines of two files in order, each with where it is found. -/
def mergeSorted : Nat → List (List Char) → List (List Char) → List (Nat × List Char)
  | 0, _, _ => []
  | _, [], bs => bs.map fun b => (2, b)
  | _, as, [] => as.map fun a => (1, a)
  | n + 1, a :: as, b :: bs =>
    match KeyOrder.compareTexts a b with
    | .lt => (1, a) :: mergeSorted n as (b :: bs)
    | .gt => (2, b) :: mergeSorted n (a :: as) bs
    | .eq => (3, a) :: mergeSorted n as bs

/-- The lines of a file that a program needs. -/
def linesOfFile (name : String) (status : Nat := 1) : ToolM (List (List Char)) := do
  match ← content name with
  | .ok cs => return (linesOf cs).map bodyOf
  | .error e => abort (quoteIfNeeded name ++ ": " ++ e.reason) status

def comm : Program := fun _ arguments => do
  let o ← ({ letters := "123z", names := [("check-order", "k", .never), ("nocheck-order", "n", .never)] }
    : OptionTable).read arguments
  match o.operands with
  | [a, b] =>
    let as ← linesOfFile a
    let bs ← linesOfFile b
    for (column, line) in mergeSorted (as.length + bs.length + 1) as bs do
      if !o.has (toString column) then
        let tabs := ((List.range (column - 1)).filter fun k => !o.has (toString (k + 1))).length
        put (List.replicate tabs '\t' ++ line ++ ['\n'])
  | [] => abortWithHint "missing operand"
  | [a] => abortWithHint ("missing operand after " ++ quote a)
  | _ :: _ :: c :: _ => abortWithHint ("extra operand " ++ quote c)

/-- Lines of two files with the same key next to each other. -/
def join : Program := fun _ arguments => do
  let o ← ({ valued := "t12javoe", letters := "i" } : OptionTable).read arguments
  match o.operands with
  | [a, b] =>
    let separator := (o.value? "t").bind fun s => s.toList.head?
    let fieldsOf (line : List Char) : List (List Char) := match separator with
      | some s => Text.fields (· == s) line
      | none => (Text.fields KeyOrder.isBlank line).filter (!·.isEmpty)
    let keyField (which : String) : Nat :=
      (((o.value? which).orElse fun _ => o.value? "j").bind count?).getD 1 - 1
    let between := [separator.getD ' ']
    let as := (← linesOfFile a).map fieldsOf
    let bs := (← linesOfFile b).map fieldsOf
    let keyA (fs : List (List Char)) : List Char := fs.getD (keyField "1") []
    let keyB (fs : List (List Char)) : List Char := fs.getD (keyField "2") []
    let emit (key : List Char) (rest : List (List Char)) : ToolM Unit :=
      put (Text.joinWith between (key :: rest) ++ ['\n'])
    let shows (n : String) : Bool := (o.values "a").contains n || (o.values "v").contains n
    let pairs := (o.values "v").isEmpty
    let keys := ((as.map keyA ++ bs.map keyB).mergeSort fun x y => KeyOrder.compareTexts x y != .gt).eraseReps
    for key in keys do
      let left := as.filter fun fs => keyA fs == key
      let right := bs.filter fun fs => keyB fs == key
      if right.isEmpty then
        if shows "1" then for fs in left do emit key (fs.eraseIdx (keyField "1"))
      else if left.isEmpty then
        if shows "2" then for fs in right do emit key (fs.eraseIdx (keyField "2"))
      else if pairs then
        for l in left do
          for r in right do
            emit key (l.eraseIdx (keyField "1") ++ r.eraseIdx (keyField "2"))
  | _ => abortWithHint "missing operand"

end TestSynth.Programs
