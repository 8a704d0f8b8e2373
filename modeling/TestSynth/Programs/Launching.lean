import TestSynth.Programs.Echoing
import TestSynth.Programs.Lines
/-!
Programs that start others: in another environment, or once for each of many arguments.
-/
namespace TestSynth.Programs

open Process Tool

/-- Starts a program in a session that is changed for it. -/
def launchIn (launch : Launcher) (prepare : Session → Session) (words : List String) :
    ToolM (Except FileError Ending) := do
  let result ← inSession fun s =>
    let (result, after) := launch words (prepare s)
    (result, { s with system := after.system })
  if let .ok .endless := result then throw .endless
  return result

/-- The status after a program could not be started. -/
def launchStatus : FileError → Nat
  | .notFound | .notDirectory => 127
  | _ => 126

/-- Goes on as another program; the message tells which could not be started. -/
def become (launch : Launcher) (prepare : Session → Session) (words : List String)
    (message : String → String) : ToolM Unit := do
  match ← launchIn launch prepare words with
  | .ok ending => throw ending
  | .error e => abort (message (words.headD "") ++ ": " ++ e.reason) (launchStatus e)

def env : Program := fun launch arguments => do
  let arguments := arguments.map fun w => if w == "-" then "-i" else w
  let o ← ({ letters := "i0v", valued := "uCS", misuse := 125, anywhere := false
             names := [("ignore-environment", "i", .never), ("unset", "u", .always),
               ("chdir", "C", .always), ("null", "0", .never), ("split-string", "S", .always)] }
    : OptionTable).read arguments
  let operands := ((o.values "S").flatMap fun s =>
    ((Text.fields (· == ' ') s.toList).filter (!·.isEmpty)).map String.ofList) ++ o.operands
  let isAssignment (w : String) : Bool := w.toList.contains '=' && !w.startsWith "="
  let assignments := operands.takeWhile isAssignment
  let words := operands.drop assignments.length
  let s := (← get).session
  let s := if o.has "i" then { s with environment := [] } else s
  let s := (o.values "u").foldl (fun s name => s.unsetVariable name) s
  let s := assignments.foldl (fun s w =>
    let cs := w.toList
    let name := cs.takeWhile (· != '=')
    s.setVariable (String.ofList name) (String.ofList (cs.drop (name.length + 1)))) s
  let s ← match o.value? "C" with
    | none => pure s
    | some name => match s.tree.find (Session.pathOf name) with
      | .ok (place, .directory _) => pure { s with directory := place }
      | .ok _ => abort ("cannot change directory to " ++ quoteShell name ++ ": Not a directory") 125
      | .error e => abort ("cannot change directory to " ++ quoteShell name ++ ": " ++ e.reason) 125
  if words.isEmpty then
    for (name, value) in s.environment do
      print (name ++ "=" ++ value ++ if o.has "0" then "\x00" else "\n")
  else become launch (fun _ => s) words quoteShell

/-- Starts what follows the leading options and operands of a program. -/
def startRest (launch : Launcher) (words : List String) : ToolM Unit :=
  become launch id words fun w => "failed to run command " ++ quoteShell w

def nohup : Program := fun launch arguments => do
  match (← ({ misuse := 125, anywhere := false } : OptionTable).read arguments).operands with
  | [] => abortWithHint "missing operand" 125
  | words => startRest launch words

def setsid : Program := fun launch arguments => do
  match (← ({ letters := "cfw", anywhere := false } : OptionTable).read arguments).operands with
  | [] => abortWithHint "no command specified"
  | words => become launch id words fun w => "failed to execute " ++ w

def stdbuf : Program := fun launch arguments => do
  match (← ({ valued := "ioe", misuse := 125, anywhere := false } : OptionTable).read arguments).operands with
  | [] => abortWithHint "missing operand" 125
  | words => startRest launch words

/-- Runs a program with another priority, which changes nothing here. -/
def nice : Program := fun launch arguments => do
  let isOld (w : String) : Bool := match w.toList with
    | '-' :: cs => !cs.isEmpty && (cs.dropWhile (· == '-')).all Char.isDigit
    | _ => false
  let arguments := if isOld (arguments.headD "") then arguments.drop 1 else arguments
  let o ← ({ valued := "n", misuse := 125, anywhere := false
             names := [("adjustment", "n", .always)] } : OptionTable).read arguments
  if let some word := o.value? "n" then
    let digits := word.toList.dropWhile fun c => c == '-' || c == '+'
    if digits.isEmpty || !digits.all Char.isDigit then
      abort ("invalid adjustment " ++ quote word) 125
  match o.operands with
  | [] => printLine "0"
  | words => become launch id words quoteShell

/-- Runs a program that has so much time, of which none passes here. -/
def timeout : Program := fun launch arguments => do
  let o ← ({ letters := "fpv", valued := "ks", misuse := 125, anywhere := false
             names := [("kill-after", "k", .always), ("signal", "s", .always),
               ("foreground", "f", .never), ("preserve-status", "p", .never),
               ("verbose", "v", .never)] } : OptionTable).read arguments
  match o.operands with
  | [] | [_] =>
    say "Try 'timeout --help' for more information.\n"
    finish 125
  | duration :: words =>
    if !isDuration duration then abortWithHint ("invalid time interval " ++ quote duration) 125
    startRest launch words

/-- What is read as arguments, in groups as lines give them. -/
structure ArgumentReader where
  current : List Char := []
  isStarted : Bool := false
  words : List String := []
  lines : List (List String) := []

namespace ArgumentReader

def endWord (r : ArgumentReader) : ArgumentReader :=
  if r.isStarted then
    { r with current := [], isStarted := false, words := String.ofList r.current.reverse :: r.words }
  else r

def endLine (r : ArgumentReader) : ArgumentReader :=
  let r := r.endWord
  if r.words.isEmpty then r else { r with words := [], lines := r.words.reverse :: r.lines }

def add (r : ArgumentReader) (c : Char) : ArgumentReader :=
  { r with current := c :: r.current, isStarted := true }

/-- Reads words between blanks with quotes and backslashes; a quote that is not closed is given
back with what was read before it. -/
def read : List Char → Option Char → ArgumentReader → ArgumentReader × Option Char
  | [], none, r => (r.endLine, none)
  | [], some q, r => ({ r with isStarted := false }.endLine, some q)
  | '\n' :: _, some q, r => ({ r with isStarted := false, current := [] }.endLine, some q)
  | c :: rest, some q, r => if c == q then read rest none r else read rest (some q) (r.add c)
  | c :: rest, none, r =>
    if c == '\n' then read rest none r.endLine
    else if c == ' ' || c == '\t' then read rest none r.endWord
    else if c == '\'' || c == '"' then read rest (some c) { r with isStarted := true }
    else if c == '\\' then match rest with
      | d :: rest => read rest none (r.add d)
      | [] => read [] none r
    else read rest none (r.add c)
termination_by structural cs => cs

end ArgumentReader

/-- Groups of at most so many elements. -/
def chunks {α : Type} (n : Nat) : Nat → List α → List (List α)
  | 0, _ | _, [] => []
  | k + 1, xs => xs.take n :: chunks n k (xs.drop n)

/-- Words of a command line at most, by the bytes they take. -/
def commandBytes : Nat := 128 * 1024 - 2048

/-- Groups of words that fit into a command line. -/
def fitting (used : Nat) : List String → List (List String)
  | [] => []
  | w :: ws =>
    match fitting used ws with
    | [] => [[w]]
    | group :: groups =>
      let size := Number.total (group.map fun w => w.length + 1)
      if used + size + w.length + 1 ≤ commandBytes then (w :: group) :: groups
      else [w] :: group :: groups

def xargs : Program := fun launch arguments => do
  let o ← ({ letters := "0rtxpio", valued := "nILdPsEae", anywhere := false
             names := [("null", "0", .never), ("no-run-if-empty", "r", .never),
               ("max-args", "n", .always), ("replace", "i", .maybe), ("max-lines", "L", .maybe),
               ("delimiter", "d", .always), ("max-procs", "P", .always), ("verbose", "t", .never),
               ("arg-file", "a", .always)] } : OptionTable).read arguments
  let number (key : String) : ToolM (Option Nat) := do
    match o.value? key with
    | none => return none
    | some word => match count? word with
      | some 0 => abortWithHint ("value 0 for -" ++ key ++ " option should be >= 1")
      | some n => return some n
      | none => abortWithHint ("invalid number \"" ++ word ++ "\" for -" ++ key ++ " option")
  let perCommand ← number "n"
  let perLines ← number "L"
  let replaced : Option String := if o.has "I" then o.value? "I"
    else if o.has "i" then some (match o.value? "i" with
      | some "" | none => "\x7b\x7d"
      | some mark => mark)
    else none
  let source := (o.value? "a").getD "-"
  let cs ← match ← content source with
    | .ok cs => pure cs
    | .error .badDescriptor => pure []
    | .error e => abort ("Cannot open input file " ++ quote source ++ ": " ++ e.reason)
  let separator : Option Char :=
    if o.has "0" then some (Char.ofNat 0)
    else (o.value? "d").map delimiterOf
  let (lines, openQuote) : List (List String) × Option Char := match separator with
    | some mark => ((linesOf cs mark).map fun l => [String.ofList (bodyOf l mark)], none)
    | none =>
      if replaced.isSome then
        ((((linesOf cs).map bodyOf).map fun l => unquoted (l.dropWhile fun c => c == ' ' || c == '\t')).filter
          (fun l => l != [""]), none)
      else
        let (r, q) := ArgumentReader.read cs none {}
        (r.lines.reverse, q)
  let command := if o.operands.isEmpty then ["echo"] else o.operands
  let used := Number.total (command.map fun w => w.length + 1)
  let commands : List (List String) := match replaced with
    | some mark => lines.map fun l =>
      let value := String.intercalate " " l
      command.take 1 ++ (command.drop 1).map (Text.replaceString mark value)
    | none =>
      let words := lines.flatten
      let groups := match perLines, perCommand with
        | some n, _ => (chunks n (lines.length + 1) lines).map List.flatten
        | none, some n => chunks n (words.length + 1) words
        | none, none => fitting used words
      if groups.isEmpty && !o.has "r" && openQuote.isNone then [command]
      else groups.map (command ++ ·)
  for words in commands do
    if o.has "t" then say (String.intercalate " " (words.map quoteIfNeeded) ++ "\n")
    let prepare (s : Session) : Session :=
      let (index, system) := s.system.open_ { channel := .nowhere }
      { s with system }.setDescriptor standardInput index
    let name := words.headD ""
    match ← launchIn launch prepare words with
    | .error e => abort (quoteIfNeeded name ++ ": " ++ e.reason) (launchStatus e)
    | .ok (.killed signal) => abort (name ++ ": terminated by signal " ++ toString signal) 125
    | .ok ending =>
      if ending.status == 255 then abort (name ++ ": exited with status 255; aborting") 124
      if ending.status != 0 then setStatus 123
  if let some q := openQuote then
    complain ("unmatched " ++ (if q == '"' then "double" else "single") ++
      " quote; by default quotes are special to xargs unless you use the -0 option")
where
  delimiterOf (word : String) : Char :=
    match word.toList with
    | '\\' :: 'n' :: [] => '\n'
    | '\\' :: 't' :: [] => '\t'
    | '\\' :: '0' :: [] => Char.ofNat 0
    | c :: _ => c
    | [] => Char.ofNat 0
  /-- A line without its quotes, as one word. -/
  unquoted (line : List Char) : List String :=
    let r := (line.foldl (fun (acc : List Char × Option Char × Bool) c =>
      let (text, quote, afterBackslash) := acc
      if afterBackslash then (c :: text, quote, false)
      else match quote with
        | some q => if c == q then (text, none, false) else (c :: text, quote, false)
        | none => if c == '\'' || c == '"' then (text, some c, false)
          else if c == '\\' then (text, none, true)
          else (c :: text, none, false)) ([], none, false)).1
    [String.ofList r.reverse]

end TestSynth.Programs
