import TestSynth.Programs.Lines
import TestSynth.Regex.Parser
/-!
Searching for lines that match expressions.
-/
namespace TestSynth.Programs

open Process Tool
open Regex (Searcher)

/-- What a search asks for. -/
structure Query where
  searchers : List Searcher
  isInverted : Bool := false
  /-- Ends the lines of the input. -/
  mark : Char := '\n'
  before : Nat := 0
  after : Nat := 0
  /-- Lines that are selected at most. -/
  most : Option Nat := none

namespace Query

/-- The first match of any of the expressions from an offset on; of those at one place the
longest. -/
def find? (q : Query) (text : List Char) (offset : Nat) : Option Match :=
  (q.searchers.filterMap fun s => s.find? text offset).foldl (fun best m => match best with
    | none => some m
    | some b => if m.start < b.start || (m.start == b.start && b.stop < m.stop) then some m else best)
    none

def selects (q : Query) (line : List Char) : Bool :=
  (q.searchers.any fun s => s.finds line) != q.isInverted

/-- The matches in a line that are not empty; the first argument bounds their number. -/
def occurrences (q : Query) (line : List Char) : Nat → Nat → List Match
  | 0, _ => []
  | n + 1, offset => match q.find? line offset with
    | none => []
    | some m =>
      if m.stop == m.start then
        if m.stop < line.length then q.occurrences line n (m.stop + 1) else []
      else m :: q.occurrences line n m.stop

end Query

/-- A line of an input with its number, its offset, and whether it is selected. -/
structure FoundLine where
  number : Nat
  offset : Nat
  body : List Char
  isSelected : Bool

/-- The lines up to the last one that is looked at, with which of them are selected. -/
def Query.look (q : Query) (lines : List (List Char)) : List FoundLine :=
  let (_, _, found) := lines.foldl (fun (number, offset, found) line =>
    let body := bodyOf line q.mark
    (number + 1, offset + line.length, ⟨number, offset, body, q.selects body⟩ :: found))
    (1, 0, ([] : List FoundLine))
  cut q.most found.reverse
where
  /-- After the last line wanted only the lines around it are left. -/
  cut : Option Nat → List FoundLine → List FoundLine
    | none, lines => lines
    | some 0, lines => (lines.take q.after).map fun l => { l with isSelected := false }
    | some (n + 1), lines => match lines with
      | [] => []
      | l :: rest => l :: cut (some (if l.isSelected then n else n + 1)) rest

/-- The lines that are shown: the selected ones and those close to them. -/
def Query.shown (q : Query) (lines : List FoundLine) : List FoundLine :=
  let forward := (lines.foldl (fun (left, acc) l =>
    if l.isSelected then (q.after, (l, true) :: acc)
    else (left - 1, (l, 0 < left) :: acc)) (0, ([] : List (FoundLine × Bool)))).2
  (forward.foldl (fun (left, acc) (l, isNear) =>
    if l.isSelected then (q.before, l :: acc)
    else (left - 1, if isNear || 0 < left then l :: acc else acc)) (0, ([] : List FoundLine))).2

/-- What a search prints, and what it has found so far. -/
structure SearchOutput where
  showsNames : Bool := false
  showsNumbers : Bool := false
  showsOffsets : Bool := false
  matchesOnly : Bool := false
  counts : Bool := false
  /-- Prints the names of the inputs with a selected line, or those of the others. -/
  namesOf : Option Bool := none
  isQuiet : Bool := false
  asText : Bool := false
  contexts : Bool := false

structure SearchState where
  found : Bool := false
  failed : Bool := false
  /-- Whether any line was printed. -/
  started : Bool := false

/-- Prints the lines of an input that are shown. -/
def printFound (q : Query) (out : SearchOutput) (name : String) (started : Bool)
    (lines : List FoundLine) : ToolM Bool := do
  let front (separator : String) (l : FoundLine) (offset : Nat) : String :=
    (if out.showsNames then name ++ separator else "") ++
      (if out.showsNumbers then toString l.number ++ separator else "") ++
      (if out.showsOffsets then toString offset ++ separator else "")
  let ending := [q.mark]
  let mut last : Option Nat := none
  let mut started := started
  for l in q.shown lines do
    if out.contexts && started && last != some (l.number - 1) then printLine "--"
    last := some l.number
    if !out.matchesOnly then
      put ((front (if l.isSelected then ":" else "-") l l.offset).toList ++ l.body ++ ending)
    else if l.isSelected && !q.isInverted then
      for m in q.occurrences l.body (l.body.length + 1) 0 do
        put ((front ":" l (l.offset + m.start)).toList ++
          (l.body.drop m.start).take (m.stop - m.start) ++ ending)
    started := true
  return started

/-- Searches one input. -/
def searchInput (q : Query) (out : SearchOutput) (name : String) (cs : List Char)
    (state : SearchState) : ToolM SearchState := do
  let isBinary := !out.asText && q.mark == '\n' && cs.contains (Char.ofNat 0)
  let lines := q.look (linesOf cs q.mark)
  let count := (lines.filter (·.isSelected)).length
  let state := { state with found := state.found || 0 < count }
  if out.isQuiet then
    if 0 < count then finish 0
    return state
  if out.counts && out.namesOf.isNone then
    printLine ((if out.showsNames then name ++ ":" else "") ++ toString count)
  match out.namesOf with
  | some withLine =>
    if (0 < count) == withLine then printLine name
    return { state with found := if withLine then state.found
      else state.found || count == 0 }
  | none =>
    if out.counts then return state
    else if isBinary then
      if 0 < count then say ((← get).name ++ ": " ++ name ++ ": binary file matches\n")
      return state
    else return { state with started := ← printFound q out name state.started lines }

/-- The files below a directory in order, by path. -/
def filesBelow (t : FileTree) (name : String) : List String :=
  match t.find (Session.pathOf name) with
  | .ok (_, node@(.directory _)) => node.descendants.filterMap fun (place, n) =>
    if n.isFile then
      some ((if name.endsWith "/" then name else name ++ "/") ++ String.intercalate "/" (place.map Text.spread))
    else none
  | _ => [name]

def searchOptions : OptionTable :=
  { letters := "EFGPivwxznbHhoqsaIrRcLlTUZy", valued := "efmABCdD"
    names := [("extended-regexp", "E", .never), ("fixed-strings", "F", .never),
      ("basic-regexp", "G", .never), ("perl-regexp", "P", .never), ("regexp", "e", .always),
      ("file", "f", .always), ("ignore-case", "i", .never), ("no-ignore-case", "noi", .never),
      ("invert-match", "v", .never), ("word-regexp", "w", .never), ("line-regexp", "x", .never),
      ("null-data", "z", .never), ("max-count", "m", .always), ("line-number", "n", .never),
      ("byte-offset", "b", .never), ("with-filename", "H", .never), ("no-filename", "h", .never),
      ("only-matching", "o", .never), ("quiet", "q", .never), ("silent", "q", .never),
      ("no-messages", "s", .never), ("text", "a", .never), ("recursive", "r", .never),
      ("dereference-recursive", "R", .never), ("files-without-match", "L", .never),
      ("files-with-matches", "l", .never), ("count", "c", .never), ("after-context", "A", .always),
      ("before-context", "B", .always), ("context", "C", .always), ("color", "color", .maybe),
      ("colour", "color", .maybe), ("include", "include", .always), ("exclude", "exclude", .always),
      ("label", "label", .always), ("line-buffered", "U", .never)]
    misuse := 2
    usage := "Usage: grep [OPTION]... PATTERNS [FILE]...\n" }

/-- Takes numbers behind a dash for the number of lines around. -/
def contextOptions (arguments : List String) : List String :=
  arguments.flatMap fun word => match word.toList with
    | '-' :: c :: cs =>
      let digits := (c :: cs).takeWhile Char.isDigit
      if digits.isEmpty then [word]
      else
        let others := (c :: cs).drop digits.length
        ["-C" ++ String.ofList digits] ++
          if others.isEmpty then [] else ["-" ++ String.ofList others]
    | _ => [word]

/-- The expression of a pattern, or a message. -/
def readPattern (o : Options) (pattern : List Char) : ToolM Searcher := do
  let style : Regex.Style := match o.last? ["E", "F", "G", "P"] with
    | some "E" | some "P" => .lenient
    | _ => .basic
  if o.last? ["E", "F", "G", "P"] != some "F" && isBareClass pattern then
    abort "character class syntax is [[:space:]], not [:space:]" 2
  let parsed := if o.last? ["E", "F", "G", "P"] == some "F" then .ok (Regex.ofText pattern)
    else Regex.parse style pattern
  match parsed with
  | .error problem => abort problem.message 2
  | .ok r =>
    let r := if o.has "x" then r.asLine else if o.has "w" then r.asWord else r
    return r.searcher (o.last? ["i", "y", "noi"] |>.any (· != "noi"))
where
  isBareClass (cs : List Char) : Bool :=
    cs.take 2 == ['[', ':'] && (cs.reverse.take 2) == [']', ':'] && 4 ≤ cs.length

def searchWith (standardStyle : List String) : Program := fun _ arguments => do
  let o ← searchOptions.read (standardStyle ++ contextOptions arguments)
  let misused {α : Type} : ToolM α := do
    say (searchOptions.usage ++ "Try 'grep --help' for more information.\n")
    finish 2
  let mut wanted := (o.values "e").map String.toList
  for name in o.values "f" do
    match ← content name with
    | .ok cs => wanted := wanted ++ (linesOf cs).map bodyOf
    | .error e => abort (name ++ ": " ++ e.reason) 2
  let (patterns, names) ← if o.has "e" || o.has "f" then pure (wanted, o.operands)
    else match o.operands with
      | [] => misused
      | p :: names => pure ([p.toList], names)
  let patterns := patterns.flatMap fun p => Text.fields (· == '\n') p
  let size (key : String) : ToolM Nat := do
    match o.last? [key, "C"] with
    | none => return 0
    | some k =>
      let word := (o.value? k).getD ""
      match count? word with
      | some n => return n
      | none => abort (word ++ ": invalid context length argument") 2
  let most ← match o.value? "m" with
    | none => pure none
    | some word => match count? word with
      | some n => pure (some n)
      | none => abort "invalid max count" 2
  let q : Query := {
    searchers := ← patterns.mapM (readPattern o)
    isInverted := o.has "v"
    mark := if o.has "z" then Char.ofNat 0 else '\n'
    before := ← size "B"
    after := ← size "A"
    most }
  let isRecursive := o.has "r" || o.has "R"
  let roots := if names.isEmpty then [if isRecursive then "." else "-"] else names
  let out : SearchOutput := {
    showsNames := match o.last? ["H", "h"] with
      | some k => k == "H"
      | none => isRecursive || 1 < names.length
    showsNumbers := o.has "n"
    showsOffsets := o.has "b"
    matchesOnly := o.has "o"
    counts := o.has "c"
    namesOf := (o.last? ["l", "L"]).map (· == "l")
    isQuiet := o.has "q"
    asText := o.has "a"
    contexts := 0 < q.before || 0 < q.after }
  let t ← tree
  let kept (name : String) : Bool :=
    let last := (Session.pathOf name).fileName?.getD name
    let fits (pattern : String) : Bool := (Text.Pattern.ofText pattern.toList).accepts last.toList
    ((o.values "include").isEmpty || (o.values "include").any fits) && !(o.values "exclude").any fits
  let inputs := roots.flatMap fun root =>
    if isRecursive && root != "-" then
      let below := (filesBelow t root).filter kept
      if names.isEmpty then below.map fun n => (n.drop 2).toString else below
    else [root]
  let mut state : SearchState := {}
  for name in inputs do
    match ← content name with
    | .ok cs =>
      let shown := if name == "-" then (o.value? "label").getD "(standard input)" else name
      if most != some 0 then state ← searchInput q out shown cs state
    | .error e =>
      state := { state with failed := true }
      if !o.has "s" then say ("grep: " ++ name ++ ": " ++ e.reason ++ "\n")
  setStatus (if state.failed then 2 else if state.found then 0 else 1)

def grep : Program := searchWith []
def egrep : Program := searchWith ["-E"]
def fgrep : Program := searchWith ["-F"]

end TestSynth.Programs
