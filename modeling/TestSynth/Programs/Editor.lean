import TestSynth.Programs.EditScript
import TestSynth.Programs.Lines
/-!
Editing lines by a script. Each line in turn is put into a space in which the commands work; at the
end of the script the space is printed.
-/
namespace TestSynth.Programs

open Process Tool
open Regex (Searcher)

/-- Whether a command is inside its range of lines, and where that ends if it ends at a number. -/
inductive RangeState where
  | outside
  | inside (stop : Option Nat)
deriving DecidableEq, Repr, Inhabited

/-- What is printed at the end of a round. -/
inductive Appended where
  | text (s : String)
  | file (name : String)
  | line (cs : List Char)

/-- How an editor works, apart from its script. -/
structure EditorStyle where
  isQuiet : Bool := false
  /-- Whether each input has lines of its own. -/
  separates : Bool := false
  /-- The ending of the names under which inputs are kept before they are changed. -/
  inPlace : Option String := none
  mark : Char := '\n'
  width : Nat := 70

structure EditorState where
  commands : Array EditCommand
  style : EditorStyle
  inputs : List String
  name : String := "-"
  lines : List (List Char) := []
  lineNumber : Nat := 0
  space : List Char := []
  /-- Whether the line in the space had an end. -/
  hasEnd : Bool := true
  held : List Char := []
  heldHasEnd : Bool := true
  appended : List Appended := []
  substituted : Bool := false
  ranges : Array RangeState
  lastSearcher : Option Searcher := none
  /-- Whether the last line that was printed lacks its end. -/
  lacksEnd : Bool := false
  /-- Files that are read line by line. -/
  readers : List (String × List (List Char)) := []
  /-- What was printed for the input that is changed, in pieces, the newest first. -/
  changed : List (List Char) := []
  isChanging : Bool := false

abbrev EditorM := StateT EditorState ToolM

namespace Editor

/-- Prints to where the lines go. -/
def emit (cs : List Char) : EditorM Unit := do
  let s ← get
  if s.isChanging then set { s with changed := cs :: s.changed }
  else (put cs : ToolM Unit)

/-- Prints after completing a line that lacks its end. -/
def emitLine (cs : List Char) (hasEnd : Bool) : EditorM Unit := do
  let s ← get
  let front := if s.lacksEnd then [s.style.mark] else []
  emit (front ++ cs ++ if hasEnd then [s.style.mark] else [])
  modify fun s => { s with lacksEnd := !hasEnd }

def emitText (cs : List Char) : EditorM Unit := do
  let s ← get
  emit ((if s.lacksEnd then [s.style.mark] else []) ++ cs)
  modify fun s => { s with lacksEnd := false }

def printSpace : EditorM Unit := do
  let s ← get
  emitLine s.space s.hasEnd

/-- Stores the input that was changed. -/
def finishInput : EditorM Unit := do
  let s ← get
  if s.isChanging then
    let bytes := Text.toBytes s.changed.reverse.flatten
    let path := Session.pathOf s.name
    let backup := match s.style.inPlace with
      | some "" | none => none
      | some ending =>
        if ending.toList.contains '*' then some (Text.replaceString "*" s.name ending)
        else some (s.name ++ ending)
    if let some backup := backup then
      if let .ok (_, node) := (← Tool.tree).find path then
        let _ ← Tool.change backup fun t => do
          let spot ← t.resolve true (Session.pathOf backup)
          return t.put spot.location node
    let _ ← Tool.change s.name (·.update path fun _ => bytes)
    set { s with isChanging := false, changed := [], lacksEnd := false }

/-- Opens the next input that can be read; tells whether there is one. -/
def openNext : List String → EditorM Bool
  | [] => do
    modify fun s => { s with inputs := [] }
    return false
  | name :: rest => do
    let style := (← get).style
    let isPlace := style.inPlace.isSome
    match ← (if isPlace then Tool.inSession (Session.readFile name) else content name) with
    | .ok cs =>
      modify fun s => { s with
        inputs := rest, name, lines := linesOf cs style.mark, isChanging := isPlace
        lineNumber := if style.separates then 0 else s.lineNumber }
      return true
    | .error .isDirectory =>
      if isPlace then
        complain ("couldn't edit " ++ name ++ ": not a regular file") 4
        openNext rest
      else abort ("read error on " ++ name ++ ": Is a directory") 4
    | .error e =>
      complain ("can't read " ++ name ++ ": " ++ e.reason) 2
      openNext rest

/-- The next line of the inputs. The first argument bounds the inputs. -/
def nextLine? : Nat → EditorM (Option (List Char))
  | 0 => return none
  | n + 1 => do
    let s ← get
    match s.lines with
    | line :: lines =>
      set { s with lines, lineNumber := s.lineNumber + 1 }
      return some line
    | [] =>
      finishInput
      if ← openNext (← get).inputs then nextLine? n else return none

/-- Whether no line follows. -/
def isLast : EditorM Bool := do
  let s ← get
  if !s.lines.isEmpty then return false
  if s.style.separates then return true
  let mut found := false
  for name in s.inputs do
    if !found && name != "-" then
      if let .ok (_ :: _) := ← content name then found := true
  return !found

/-- Whether another line can be read. -/
def hasMore : EditorM Bool := do
  let s ← get
  if !s.lines.isEmpty then return true
  for name in s.inputs do
    if name != "-" then
      if let .ok (_ :: _) := ← content name then return true
  return false

def noPrevious {α : Type} : EditorM α :=
  (abort "-e expression #1, char 0: no previous regular expression" : ToolM α)

/-- The expression that is meant, which is the last one used from then on. -/
def resolve (s : Option Searcher) : EditorM Searcher := do
  match s.or (← get).lastSearcher with
  | some s =>
    modify fun st => { st with lastSearcher := some s }
    return s
  | none => noPrevious

def matchesAddress : LineAddress → EditorM Bool
  | .number n => return (← get).lineNumber == n
  | .step first by_ => do
    let line := (← get).lineNumber
    return if by_ = 0 then line == first else first ≤ line && (line - first) % by_ == 0
  | .last => isLast
  | .matching s => do
    let s ← resolve (some s)
    return s.finds (← get).space
  | .matchingAgain => do
    let s ← resolve none
    return s.finds (← get).space

def setRange (index : Nat) (r : RangeState) : EditorM Unit :=
  modify fun s => { s with ranges := s.ranges.set! index r }

/-- Whether a command is for the line in the space. -/
def selects (index : Nat) (c : EditCommand) : EditorM Bool := do
  let line := (← get).lineNumber
  match c.first, c.stop with
  | none, _ => return true
  | some first, none => matchesAddress first
  | some first, some stop =>
    match (← get).ranges.getD index .outside with
    | .inside (some last) =>
      if last ≤ line then setRange index .outside
      return line ≤ last
    | .inside none =>
      let ends ← match stop with
        | .address a => matchesAddress a
        | _ => pure false
      if ends then setRange index .outside
      return true
    | .outside =>
      if !(← matchesAddress first) then return false
      match stop with
      | .after count => if 0 < count then setRange index (.inside (some (line + count)))
      | .multipleOf n =>
        if n ≠ 0 then setRange index (.inside (some ((line / n + 1) * n)))
      | .address (.number n) => if line < n then setRange index (.inside (some n))
      | .address .last => if !(← isLast) then setRange index (.inside none)
      | .address _ => setRange index (.inside none)
      return true

/-- A text with the changes of case that are in force; the second is for its first character alone. -/
def cased (lasting next : Option CaseChange) (cs : List Char) : List Char :=
  let all := match lasting with
    | some .upper => cs.map Char.toUpper
    | some .lower => cs.map Char.toLower
    | _ => cs
  match next, all with
  | some .upperNext, c :: rest => c.toUpper :: rest
  | some .lowerNext, c :: rest => c.toLower :: rest
  | _, all => all

/-- What a match is replaced with. -/
def replaced (parts : List ReplacementPart) (space : List Char) (m : Match) : List Char :=
  (parts.foldl (fun (out, lasting, next) part =>
    let add (cs : List Char) : List Char × Option CaseChange × Option CaseChange :=
      if cs.isEmpty then (out, lasting, next) else (out ++ cased lasting next cs, lasting, none)
    match part with
    | .text cs => add cs
    | .group index => match m.group? index with
      | some (start, stop) => add ((space.drop start).take (stop - start))
      | none => (out, lasting, next)
    | .caseChange .upper => (out, some .upper, next)
    | .caseChange .lower => (out, some .lower, next)
    | .caseChange .stop => (out, none, none)
    | .caseChange c => (out, lasting, some c))
    (([] : List Char), (none : Option CaseChange), (none : Option CaseChange))).1

/-- Writes a line to a file that a script names. -/
def writeTo (name : String) (cs : List Char) (hasEnd : Bool) : EditorM Unit := do
  let mark := (← get).style.mark
  let cs := cs ++ if hasEnd then [mark] else []
  if name == "/dev/stdout" then (put cs : ToolM Unit)
  else if name == "/dev/stderr" then (say (String.ofList cs) : ToolM Unit)
  else
    let _ ← (change ("couldn't open file " ++ name)
      (·.append (Session.pathOf name) (Text.toBytes cs)) 4 : ToolM Bool)

def substitute (s : Substitution) : EditorM Unit := do
  let searcher ← resolve s.searcher
  let space := (← get).space
  let number := s.number.getD 1
  let chosen := ((searcher.all space).zipIdx 1).filter fun (_, k) =>
    if s.isGlobal then number ≤ k else k == number
  if !chosen.isEmpty then
    let (out, place) := chosen.foldl (fun (out, place) (m, _) =>
      (out ++ (space.drop place).take (m.start - place) ++ replaced s.replacement space m, m.stop))
      (([] : List Char), 0)
    modify fun st => { st with space := out ++ space.drop place, substituted := true }
    if s.prints then printSpace
    if let some name := s.file then
      let st ← get
      writeTo name st.space st.hasEnd

/-- A line in a form that can be read, broken at a width. -/
def listed (width : Nat) (cs : List Char) : List Char :=
  let shown (c : Char) : List Char :=
    match names.lookup c with
    | some d => ['\\', d]
    | none => if isPrinted c then [c]
      else
        let digits := Nat.toDigits 8 c.toNat
        '\\' :: List.replicate (3 - digits.length) '0' ++ digits
  let (out, _) := cs.foldl (fun (out, column) c =>
    let piece := shown c
    if 1 < width && width - 1 < column + piece.length then (piece.reverse ++ '\n' :: '\\' :: out, piece.length)
    else (piece.reverse ++ out, column + piece.length)) (([] : List Char), 0)
  out.reverse ++ ['$']
where
  names : List (Char × Char) :=
    [('\\', '\\'), ('\x07', 'a'), ('\x08', 'b'), ('\x0c', 'f'), ('\n', 'n'), ('\r', 'r'), ('\t', 't'),
      ('\x0b', 'v')]

/-- How a round goes on. -/
inductive Flow where
  | goOn (index : Nat)
  | endRound
  /-- Starts the next round without printing the space. -/
  | drop
  /-- Starts again with what is left in the space. -/
  | again
  | quit (status : Nat) (prints : Bool)

/-- Prints what waits for the end of a round. -/
def flushAppended : EditorM Unit := do
  let waiting := (← get).appended
  modify fun s => { s with appended := [] }
  for a in waiting do
    match a with
    | .text t => emitText t.toList
    | .line cs => emitText cs
    | .file name =>
      match ← (Tool.inSession (if name == "/dev/stdin" then Session.readAll standardInput
          else Session.readFile name) : ToolM _) with
      | .ok cs => if !cs.isEmpty then emitText cs
      | .error _ => pure ()

def addAppended (a : Appended) : EditorM Unit :=
  modify fun s => { s with appended := s.appended ++ [a] }

/-- Inputs that are tried at most for one line. -/
def inputBound : EditorM Nat := return (← get).inputs.length + 1

/-- Where a label stands; without a label that is behind all commands. -/
def target? (commands : Array EditCommand) (label : String) : Option Nat :=
  if label.isEmpty then some commands.size
  else commands.findIdx? fun c => match c.action with
    | .label name => name == label
    | _ => false

/-- Carries out one command for the line in the space. -/
def perform (index : Nat) (c : EditCommand) : EditorM Flow := do
  let next : Flow := .goOn (index + 1)
  let s ← get
  match c.action with
  | .block _ | .blockEnd | .label _ | .nothing => return next
  | .branch condition label =>
    let goes := match condition with
      | none => true
      | some wanted => s.substituted == wanted
    if condition.isSome then set { s with substituted := false }
    return if goes then .goOn ((target? s.commands label).getD s.commands.size) else next
  | .append text =>
    addAppended (.text text)
    return next
  | .insert text =>
    emitText text.toList
    return next
  | .change text =>
    let isOver := c.isNegated || match s.ranges.getD index .outside with
      | .outside => true
      | _ => false
    if isOver then emitText text.toList
    return .drop
  | .delete => return .drop
  | .deleteFirst =>
    match s.space.dropWhile (· != '\n') with
    | [] => return .drop
    | _ :: rest =>
      set { s with space := rest }
      return .again
  | .hold =>
    set { s with held := s.space, heldHasEnd := s.hasEnd }
    return next
  | .holdMore =>
    set { s with held := s.held ++ '\n' :: s.space, heldHasEnd := s.heldHasEnd || s.hasEnd }
    return next
  | .fetch =>
    set { s with space := s.held, hasEnd := s.heldHasEnd }
    return next
  | .fetchMore =>
    set { s with space := s.space ++ '\n' :: s.held, hasEnd := s.hasEnd || s.heldHasEnd }
    return next
  | .exchange =>
    set { s with space := s.held, hasEnd := s.heldHasEnd, held := s.space, heldHasEnd := s.hasEnd }
    return next
  | .list width =>
    emitLine (listed (width.getD s.style.width) s.space) true
    return next
  | .next =>
    if !(← hasMore) then return .quit 0 true
    if !s.style.isQuiet then printSpace
    flushAppended
    match ← nextLine? (← inputBound) with
    | none => return .quit 0 false
    | some line =>
      modify fun s => { s with space := bodyOf line s.style.mark, hasEnd := line.getLast? == some s.style.mark }
      return next
  | .nextMore =>
    if !(← hasMore) then return .quit 0 true
    flushAppended
    match ← nextLine? (← inputBound) with
    | none => return .quit 0 true
    | some line =>
      modify fun s => { s with
        space := s.space ++ s.style.mark :: bodyOf line s.style.mark
        hasEnd := line.getLast? == some s.style.mark }
      return next
  | .print =>
    printSpace
    return next
  | .printFirst =>
    emitLine (s.space.takeWhile (· != '\n')) true
    return next
  | .quit prints status => return .quit status prints
  | .readFile name =>
    addAppended (.file name)
    return next
  | .readLine name =>
    let lines ← match s.readers.lookup name with
      | some lines => pure lines
      | none => match ← (Tool.inSession (Session.readFile name) : ToolM _) with
        | .ok cs => pure (linesOf cs)
        | .error _ => pure []
    if let some line := lines.head? then addAppended (.line line)
    modify fun s => { s with readers := (name, lines.tail) :: s.readers.filter (·.1 != name) }
    return next
  | .writeFile name =>
    writeTo name s.space s.hasEnd
    return next
  | .writeFirst name =>
    writeTo name (s.space.takeWhile (· != '\n')) true
    return next
  | .substitute sub =>
    substitute sub
    return next
  | .transliterate pairs =>
    set { s with space := s.space.map fun c => (pairs.lookup c).getD c }
    return next
  | .lineNumber =>
    emitText (toString s.lineNumber ++ "\n").toList
    return next
  | .fileName =>
    emitText (s.name ++ "\n").toList
    return next
  | .clear =>
    set { s with space := [] }
    return next

/-- Carries out commands from an index on; the first argument bounds their number. -/
def runFrom : Nat → Nat → EditorM Flow
  | 0, _ => throw .endless
  | n + 1, index => do
    match (← get).commands[index]? with
    | none => return .endRound
    | some c =>
      if (← selects index c) != c.isNegated then
        match ← perform index c with
        | .goOn index => runFrom n index
        | other => return other
      else match c.action with
        | .block stop => runFrom n (stop + 1)
        | _ => runFrom n (index + 1)

/-- Commands that one round carries out at most. -/
def roundBound : Nat := 1000000

/-- Rounds at most. -/
def roundsBound : Nat := 10000000

/-- Runs rounds to the end of the inputs; gives the status of a command that quits. -/
def runRounds : Nat → Bool → EditorM (Option Nat)
  | 0, _ => throw .endless
  | n + 1, keepsSpace => do
    let isReady ← if keepsSpace then pure true
      else match ← nextLine? (← inputBound) with
        | none => pure false
        | some line =>
          modify fun s => { s with
            space := bodyOf line s.style.mark, hasEnd := line.getLast? == some s.style.mark
            substituted := false }
          pure true
    if !isReady then return none
    let flow ← runFrom roundBound 0
    let isQuiet := (← get).style.isQuiet
    match flow with
    | .goOn _ | .endRound =>
      if !isQuiet then printSpace
      flushAppended
      runRounds n false
    | .drop =>
      flushAppended
      runRounds n false
    | .again =>
      flushAppended
      runRounds n true
    | .quit status prints =>
      if prints then
        if !isQuiet then printSpace
        flushAppended
      finishQuit
      return some status
where
  /-- An input that is being changed keeps its further lines. -/
  finishQuit : EditorM Unit := do
    let s ← get
    if s.isChanging then
      if !s.lines.isEmpty then emitText s.lines.flatten
      finishInput

end Editor

/-- The files that a script writes. -/
def writtenFiles (commands : List EditCommand) : List String :=
  (commands.filterMap fun c => match c.action with
    | .writeFile name | .writeFirst name => some name
    | .substitute s => s.file
    | _ => none).filter fun name => !name.startsWith "/dev/"

def editOptions : OptionTable :=
  { letters := "nErsuzb", valued := "efl"
    names := [("quiet", "n", .never), ("silent", "n", .never), ("expression", "e", .always),
      ("file", "f", .always), ("regexp-extended", "E", .never), ("in-place", "i", .maybe),
      ("separate", "s", .never), ("null-data", "z", .never), ("line-length", "l", .always),
      ("unbuffered", "u", .never), ("posix", "posix", .never), ("debug", "debug", .never),
      ("sandbox", "sandbox", .never), ("follow-symlinks", "follow", .never)] }

/-- Takes an option to change inputs, which may be joined with an ending, out of the others. -/
def longInPlace (arguments : List String) : List String :=
  arguments.flatMap fun w => match w.toList with
    | '-' :: cs =>
      if cs.head? == some '-' || !cs.contains 'i' then [w]
      else
        let front := cs.takeWhile (· != 'i')
        if front.any fun c => !"nErsuz".toList.contains c then [w]
        else
          let ending := String.ofList (cs.drop (front.length + 1))
          (if front.isEmpty then [] else [String.ofList ('-' :: front)]) ++
            [if ending.isEmpty then "--in-place" else "--in-place=" ++ ending]
    | _ => [w]

def sed : Program := fun _ arguments => do
  let o ← editOptions.read (longInPlace arguments)
  let isExtended := o.has "E" || o.has "r"
  let (scripts, inputs) : List (String × String) × List String :=
    if o.has "e" || o.has "f" then (o.given.filter fun g => g.1 == "e" || g.1 == "f", o.operands)
    else match o.operands with
      | [] => ([], [])
      | script :: inputs => ([("e", script)], inputs)
  if scripts.isEmpty then abort "no script specified"
  let mut commands : EditScript.Commands := {}
  let mut expression := 0
  let mut isQuiet := o.has "n"
  let mut isFirst := true
  for (kind, text) in joined scripts do
    let (cs, place) ← if kind == "e" then
        expression := expression + 1
        pure (text.toList, fun (f : EditScript.Fault) =>
          "-e expression #" ++ toString expression ++ ", char " ++ toString f.place ++ ": " ++ f.message)
      else match ← content text with
        | .error e => abort ("couldn't open file " ++ text ++ ": " ++ e.reason) 4
        | .ok cs => pure (cs, fun (f : EditScript.Fault) =>
          "file " ++ text ++ " line " ++ toString ((cs.take (f.place - 1)).count '\n' + 1) ++ ": " ++ f.message)
    if isFirst && (cs.take 3 == ['#', 'n', '\n'] || cs == ['#', 'n']) then isQuiet := true
    isFirst := false
    match (EditScript.readCommands (cs.length + 1) commands).run { rest := cs, isExtended } with
    | .error fault => abort (place fault)
    | .ok (more, _) => commands := more
  if !commands.opened.isEmpty then
    abort "-e expression #1, char 0: unmatched \x60\x7b'"
  let list := EditScript.closeBlocks commands.read.reverse
  let array := list.toArray
  for c in list do
    if let .branch _ label := c.action then
      if (Editor.target? array label).isNone then
        abort ("can't find label for jump to " ++ EditScript.quoted label) 4
  for name in writtenFiles list do
    let _ ← change ("couldn't open file " ++ name) (·.write (Session.pathOf name) []) 4
  let ranges := (list.map fun c => match c.first with
    | some (.number 0) => RangeState.inside none
    | _ => .outside).toArray
  let inPlace := if o.has "i" then some ((o.value? "i").getD "") else none
  let style : EditorStyle := {
    isQuiet
    separates := o.has "s" || inPlace.isSome
    inPlace
    mark := if o.has "z" then Char.ofNat 0 else '\n'
    width := ((o.value? "l").bind count?).getD 70 }
  let start : EditorState := {
    commands := array
    style
    inputs := if inputs.isEmpty then ["-"] else inputs
    ranges }
  let (status, _) ← (Editor.runRounds Editor.roundsBound false).run start
  if let some status := status then
    if status != 0 then setStatus status
where
  /-- An expression that ends in a backslash goes on with the next one. -/
  joined : List (String × String) → List (String × String)
    | ("e", a) :: rest => match joined rest with
      | ("e", b) :: more => if a.endsWith "\\" then ("e", a ++ "\n" ++ b) :: more else ("e", a) :: ("e", b) :: more
      | more => ("e", a) :: more
    | other :: rest => other :: joined rest
    | [] => []

end TestSynth.Programs
