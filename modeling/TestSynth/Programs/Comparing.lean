import TestSynth.Programs.Naming
import TestSynth.Text.Difference
/-!
Comparing files byte by byte or line by line, and directories entry by entry.
-/
namespace TestSynth.Programs

open Process Tool
open Text (Edit)

/-- The first difference of two texts: its offset and the line in which it is. -/
def firstDifference? : List Char → List Char → Nat → Nat → Option (Nat × Nat × Char × Char)
  | a :: as, b :: bs, offset, line =>
    if a == b then firstDifference? as bs (offset + 1) (if a == '\n' then line + 1 else line)
    else some (offset, line, a, b)
  | _, _, _, _ => none

def cmp : Program := fun _ arguments => do
  let o ← ({ letters := "slbv", valued := "ni", misuse := 2
             names := [("silent", "s", .never), ("quiet", "s", .never), ("verbose", "l", .never),
               ("print-bytes", "b", .never), ("bytes", "n", .always), ("ignore-initial", "i", .always)] }
    : OptionTable).read arguments
  match o.operands with
  | [] =>
    complain "missing operand after 'cmp'" 2
    complain "Try 'cmp --help' for more information." 2
  | first :: more =>
    let second := more.headD "-"
    let read (name : String) (skipped : Nat) : ToolM (List Char) := do
      match ← content name with
      | .ok cs =>
        let cs := cs.drop skipped
        return ((o.value? "n").bind count?).elim cs cs.take
      | .error e =>
        if !o.has "s" then complain (quoteIfNeeded name ++ ": " ++ e.reason) 2
        finish 2
    let skip (k : Nat) : Nat := ((more[k]?).bind count?).getD (((o.value? "i").bind count?).getD 0)
    let a ← read first (skip 1)
    let b ← read second (skip 2)
    if a == b then return
    setStatus 1
    if o.has "s" then return
    let octal (c : Char) : String := padLeft 3 (String.ofList (Nat.toDigits 8 c.toNat))
    let shown (c : Char) : String := octal c ++ " " ++ String.ofList (visible true c)
    if o.has "l" then
      let width := (toString (max a.length b.length)).length
      for ((x, y), k) in (a.zip b).zipIdx 1 do
        if x != y then
          printLine (padLeft width (toString k) ++ " " ++
            if o.has "b" then shown x ++ "    " ++ shown y else octal x ++ " " ++ octal y)
    match (if o.has "l" then none else firstDifference? a b 1 1) with
    | some (offset, line, x, y) =>
      let unit := if o.has "b" then "byte" else "char"
      printLine (first ++ " " ++ second ++ " differ: " ++ unit ++ " " ++ toString offset ++ ", line " ++
        toString line ++ if o.has "b" then " is " ++ shown x ++ " " ++ shown y else "")
    | none =>
      if a.length != b.length then
        let (shorter, cs) := if a.length < b.length then (first, a) else (second, b)
        let line := cs.count '\n'
        let place := if cs.isEmpty then "which is empty"
          else "after byte " ++ toString cs.length ++
            if o.has "l" then ""
            else if cs.getLast? == some '\n' then ", line " ++ toString line
            else ", in line " ++ toString (line + 1)
        complain ("EOF on " ++ shorter ++ " " ++ place) 1

/-- Neighbouring edits as one change: where it starts on both sides, and the lines on both. -/
structure Change where
  oldStart : Nat
  newStart : Nat
  old : List (List Char)
  new : List (List Char)

namespace Change

def ofEdits (edits : List (Edit (List Char))) : List Change :=
  let (_, _, changes) := edits.foldl (fun (i, j, (acc : List Change)) e =>
    let touching := acc.head?.filter fun c => c.oldStart + c.old.length == i && c.newStart + c.new.length == j
    match e, touching with
    | .keep _, _ => (i + 1, j + 1, acc)
    | .drop a, some c => (i + 1, j, { c with old := c.old ++ [a] } :: acc.tail)
    | .drop a, none => (i + 1, j, ⟨i, j, [a], []⟩ :: acc)
    | .insert b, some c => (i, j + 1, { c with new := c.new ++ [b] } :: acc.tail)
    | .insert b, none => (i, j + 1, ⟨i, j, [], [b]⟩ :: acc)) (0, 0, [])
  changes.reverse

/-- A line of a comparison; a line without an end is followed by a note. -/
def shownLine (front : String) (line : List Char) : List Char :=
  front.toList ++ line ++
    if line.getLast? == some '\n' then [] else "\n\\ No newline at end of file\n".toList

/-- The numbers of lines, as a normal comparison shows them. -/
def rangeText (start count : Nat) : String :=
  if count = 0 then toString start
  else if count = 1 then toString (start + 1)
  else toString (start + 1) ++ "," ++ toString (start + count)

def normal (c : Change) : List Char :=
  let kind := if c.old.isEmpty then "a" else if c.new.isEmpty then "d" else "c"
  (rangeText c.oldStart c.old.length ++ kind ++ rangeText c.newStart c.new.length ++ "\n").toList ++
    c.old.flatMap (shownLine "< ") ++
    (if c.old.isEmpty || c.new.isEmpty then [] else "---\n".toList) ++ c.new.flatMap (shownLine "> ")

/-- Changes that are so close that the lines around them meet. -/
def grouped (around : Nat) : List Change → List (List Change)
  | [] => []
  | c :: rest => match grouped around rest with
    | (d :: ds) :: groups =>
      if d.oldStart - (c.oldStart + c.old.length) ≤ 2 * around then (c :: d :: ds) :: groups
      else [c] :: (d :: ds) :: groups
    | groups => [c] :: groups

def unifiedRange (start count : Nat) : String :=
  if count = 1 then toString (start + 1)
  else toString (if count = 0 then start else start + 1) ++ "," ++ toString count

/-- A group of changes with the lines around them, given all lines of the first file. -/
def unified (around : Nat) (lines : List (List Char)) (group : List Change) : List Char :=
  match group.head?, group.getLast? with
  | some first, some last =>
    let start := first.oldStart - around
    let stop := min lines.length (last.oldStart + last.old.length + around)
    let newStart := first.newStart - (first.oldStart - start)
    let grown := Number.total (group.map fun c => c.new.length)
    let shrunk := Number.total (group.map fun c => c.old.length)
    let slice (i j : Nat) : List Char := ((lines.drop i).take (j - i)).flatMap (shownLine " ")
    let (body, place) := group.foldl (fun (body, place) c =>
      (body ++ slice place c.oldStart ++ c.old.flatMap (shownLine "-") ++
        c.new.flatMap (shownLine "+"), c.oldStart + c.old.length)) (([] : List Char), start)
    ("@@ -" ++ unifiedRange start (stop - start) ++ " +" ++
      unifiedRange newStart (stop - start + grown - shrunk) ++ " @@\n").toList ++ body ++ slice place stop
  | _, _ => []

end Change

/-- The time that is shown for files, as none is kept. -/
def fileTime : String := "1970-01-01 00:00:00.000000000 +0000"

def diffOptions : OptionTable :=
  { letters := "qsruiwbBNaecnytTpdH", valued := "ULCIxW", misuse := 2
    names := [("brief", "q", .never), ("report-identical-files", "s", .never), ("recursive", "r", .never),
      ("unified", "u", .maybe), ("ignore-case", "i", .never), ("ignore-all-space", "w", .never),
      ("ignore-space-change", "b", .never), ("ignore-blank-lines", "B", .never),
      ("new-file", "N", .never), ("text", "a", .never), ("label", "L", .always),
      ("normal", "normal", .never), ("strip-trailing-cr", "cr", .never), ("color", "color", .maybe)] }

/-- A line as it counts in a comparison. -/
def comparedLine (o : Options) (line : List Char) : List Char :=
  let line := if o.has "i" then line.map Char.toLower else line
  if o.has "w" then line.filter (!Counts.isSpace ·)
  else if o.has "b" then
    let body := Text.dropEndWhile Counts.isSpace line
    Text.joinWith [' '] ((Text.fields Counts.isSpace body).filter (!·.isEmpty)) ++
      line.drop (line.length - 1)
  else line

/-- Compares two contents and prints how they differ; tells whether they do. -/
def compareContents (o : Options) (title : Option String) (names : String × String) (a b : List Char) :
    ToolM Bool := do
  let linesA := linesOf a
  let linesB := linesOf b
  let key (line : List Char) : List Char := comparedLine o line
  let isSame := if o.has "i" || o.has "w" || o.has "b" then linesA.map key == linesB.map key else a == b
  if isSame then
    if o.has "s" then printLine ("Files " ++ names.1 ++ " and " ++ names.2 ++ " are identical")
    return false
  if o.has "q" then
    printLine ("Files " ++ names.1 ++ " and " ++ names.2 ++ " differ")
    return true
  if !o.has "a" && (a.contains (Char.ofNat 0) || b.contains (Char.ofNat 0)) then
    printLine ("Binary files " ++ names.1 ++ " and " ++ names.2 ++ " differ")
    return true
  -- The keys decide what is kept; the lines are taken from their files again.
  let edits := Text.edits (linesA.map key) (linesB.map key)
  let (_, _, edits) := edits.foldl (fun (as, bs, acc) e => match e with
    | .keep _ => (as.tail, bs.tail, Edit.keep (as.headD []) :: acc)
    | .drop _ => (as.tail, bs, .drop (as.headD []) :: acc)
    | .insert _ => (as, bs.tail, .insert (bs.headD []) :: acc))
    (linesA, linesB, ([] : List (Edit (List Char))))
  let changes := Change.ofEdits edits.reverse
  let isBlank (line : List Char) : Bool := bodyOf line == []
  let changes := if o.has "B" then
      changes.filter fun c => !(c.old.all isBlank && c.new.all isBlank)
    else changes
  if changes.isEmpty then return false
  if let some title := title then printLine title
  match o.last? ["u", "U", "normal"] with
  | some "u" | some "U" =>
    let around := (((o.value? "U").orElse fun _ => o.value? "u").bind count?).getD 3
    let labels := o.values "L"
    let heading (mark : String) (k : Nat) (name : String) : String :=
      mark ++ " " ++ (labels[k]?).getD (name ++ "\t" ++ fileTime)
    printLine (heading "---" 0 names.1)
    printLine (heading "+++" 1 names.2)
    for group in Change.grouped around changes do put (Change.unified around linesA group)
  | _ => for c in changes do put c.normal
  return true

/-- Compares two directories; the first argument bounds their depth. -/
def compareDirectories (o : Options) (asked : String) : Nat → String → String → ToolM Bool
  | 0, _, _ => return false
  | n + 1, first, second => do
    let t ← tree
    let names (d : String) : List String :=
      (((t.names (Session.pathOf d)).toOption).getD []).map Text.spread
    let own := names first
    let others := names second
    let all := (own ++ others.filter (!own.contains ·)).mergeSort (· ≤ ·)
    let mut differs := false
    for name in all do
      let a := nameIn first name
      let b := nameIn second name
      let isDirectory (path : String) : Bool := t.isDirectory (Session.pathOf path)
      if own.contains name && others.contains name then
        if isDirectory a && isDirectory b then
          if o.has "r" then
            if ← compareDirectories o asked n a b then differs := true
          else printLine ("Common subdirectories: " ++ a ++ " and " ++ b)
        else
          let title := "diff " ++ asked ++ quoteIfNeeded a ++ " " ++ quoteIfNeeded b
          match ← content a, ← content b with
          | .ok x, .ok y => if ← compareContents o (some title) (a, b) x y then differs := true
          | _, _ =>
            let kind (path : String) : String := if isDirectory path then "directory" else "regular file"
            printLine ("File " ++ a ++ " is a " ++ kind a ++ " while file " ++ b ++ " is a " ++ kind b)
            differs := true
      else
        printLine ("Only in " ++ (if own.contains name then first else second) ++ ": " ++ name)
        differs := true
    return differs

def diff : Program := fun _ arguments => do
  let o ← diffOptions.read arguments
  match o.operands with
  | [] | [_] =>
    complain ("missing operand after " ++ quote (o.operands.headD "diff")) 2
    complain "Try 'diff --help' for more information." 2
  | first :: second :: more =>
    if let some extra := more.head? then
      complain ("extra operand " ++ quote extra) 2
      complain "Try 'diff --help' for more information." 2
      finish 2
    let t ← tree
    let isDirectory (name : String) : Bool := name != "-" && t.isDirectory (Session.pathOf name)
    let asked := String.join ((arguments.filter fun w => w.startsWith "-" && w != "-").map (· ++ " "))
    if isDirectory first && isDirectory second then
      if ← compareDirectories o asked 100 first second then setStatus 1
    else
      let first' := if isDirectory first then nameIn first (baseName second) else first
      let second' := if isDirectory second then nameIn second (baseName first) else second
      let read (name : String) : ToolM (Option (List Char)) := do
        match ← content name with
        | .ok cs => return some cs
        | .error e =>
          if o.has "N" && e == .notFound then return some []
          complain (quoteIfNeeded name ++ ": " ++ e.reason) 2
          return none
      let a ← read first'
      let b ← read second'
      if let (some a, some b) := (a, b) then
        if ← compareContents o none (first', second') a b then setStatus 1

end TestSynth.Programs
