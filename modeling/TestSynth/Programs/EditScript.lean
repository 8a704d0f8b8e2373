import TestSynth.Number.Decimal
import TestSynth.Regex.Parser
/-!
Scripts that edit lines: which lines each command is for, and what it does.
-/
namespace TestSynth.Programs

open Regex (Searcher)

/-- A line that a command asks for. -/
inductive LineAddress where
  | number (n : Nat)
  /-- Every so many lines from one on. -/
  | step (first by_ : Nat)
  | last
  | matching (s : Searcher)
  /-- What matches the expression that was used last. -/
  | matchingAgain
deriving Inhabited

/-- Where a range of lines ends. -/
inductive RangeEnd where
  | address (a : LineAddress)
  | after (count : Nat)
  | multipleOf (n : Nat)
deriving Inhabited

/-- A change of case in a replacement; of some only the next character is changed. -/
inductive CaseChange where
  | upper
  | lower
  | stop
  | upperNext
  | lowerNext
deriving DecidableEq, Repr, Inhabited

/-- A piece of a replacement. -/
inductive ReplacementPart where
  | text (cs : List Char)
  | group (index : Nat)
  | caseChange (c : CaseChange)
deriving Inhabited

structure Substitution where
  /-- Without an expression, the one that was used last. -/
  searcher : Option Searcher
  replacement : List ReplacementPart
  isGlobal : Bool := false
  prints : Bool := false
  number : Option Nat := none
  file : Option String := none
deriving Inhabited

inductive EditAction where
  /-- Starts a block whose end has the index. -/
  | block (stop : Nat)
  | blockEnd
  | label (name : String)
  /-- Goes on at a label, or at the end; maybe only after a substitution or only without one. -/
  | branch (condition : Option Bool) (label : String)
  | append (text : String)
  | insert (text : String)
  | change (text : String)
  | delete
  | deleteFirst
  | hold
  | holdMore
  | fetch
  | fetchMore
  | exchange
  | list (width : Option Nat)
  | next
  | nextMore
  | print
  | printFirst
  | quit (prints : Bool) (status : Nat)
  | readFile (name : String)
  | readLine (name : String)
  | writeFile (name : String)
  | writeFirst (name : String)
  | substitute (s : Substitution)
  | transliterate (pairs : List (Char × Char))
  | lineNumber
  | fileName
  | clear
  | nothing
deriving Inhabited

structure EditCommand where
  first : Option LineAddress := none
  stop : Option RangeEnd := none
  isNegated : Bool := false
  action : EditAction
deriving Inhabited

namespace EditScript

/-- What is left of a script, and how much was read. -/
structure Reading where
  rest : List Char
  used : Nat := 0
  isExtended : Bool := false

/-- Why a script cannot be read, and after how many characters. -/
structure Fault where
  message : String
  place : Nat

abbrev ReadM := StateT Reading (Except Fault)

def fail {α : Type} (message : String) : ReadM α := do throw ⟨message, (← get).used⟩

/-- A command in quotes, as faults name it. -/
def quoted (s : String) : String := "\x60" ++ s ++ "'"

def next? : ReadM (Option Char) := modifyGet fun s =>
  match s.rest with
  | [] => (none, s)
  | c :: rest => (some c, { s with rest, used := s.used + 1 })

def peek? : ReadM (Option Char) := return (← get).rest.head?

def take (p : Char → Bool) : ReadM (List Char) := modifyGet fun s =>
  let taken := s.rest.takeWhile p
  (taken, { s with rest := s.rest.drop taken.length, used := s.used + taken.length })

def isBlank (c : Char) : Bool := c == ' ' || ('\t' ≤ c && c ≤ '\r')

def skipBlanks : ReadM Unit := do
  let _ ← take fun c => isBlank c && c != '\n'

def number : ReadM Nat := return Number.ofDigits (← take Char.isDigit)

/-- The end of a command. -/
def endCommand : ReadM Unit := do
  skipBlanks
  match ← peek? with
  | none => return ()
  | some c =>
    if c == Char.ofNat 125 || c == '#' then return ()
    let _ ← next?
    if c != '\n' && c != ';' then fail "extra characters after command"

/-- Where in a bracket a character stands. -/
inductive BracketPlace where
  | outside
  /-- Where a closing bracket stands for itself. -/
  | first
  | inside
  /-- In a named class, which ends with the character and a bracket. -/
  | named (mark : Char)
deriving DecidableEq, Repr

/-- The place behind a character, of which the next one is given too. -/
def BracketPlace.after (c : Char) (next : Option Char) : BracketPlace → BracketPlace
  | outside => if c == '[' then first else outside
  | first =>
    if c == '^' then first
    else if c == '[' && next.any [':', '.', '='].contains then named (next.getD ':')
    else inside
  | inside =>
    if c == ']' then outside
    else if c == '[' && next.any [':', '.', '='].contains then named (next.getD ':')
    else inside
  | named mark => if c == mark && next == some ']' then inside else named mark

/-- Text up to a delimiter that stands in no bracket. In an expression a line break must be written
with a backslash. -/
def untilMark (mark : Char) (isExpression : Bool) : BracketPlace → List Char → Option (List Char × Nat)
  | _, [] => none
  | .outside, '\\' :: c :: rest =>
    let kept := if c == mark then (if isExpression || c != '&' then [c] else ['\\', c])
      else if c == 'n' && isExpression then ['\n']
      else if c == '\n' && isExpression then [c]
      else ['\\', c]
    (untilMark mark isExpression .outside rest).map fun (text, n) => (kept ++ text, n + 2)
  | place, c :: rest =>
    if c == mark && place == .outside then some ([], 1)
    else if c == '\n' && isExpression then none
    else
      let place := if isExpression then place.after c rest.head? else .outside
      (untilMark mark isExpression place rest).map fun (text, n) => (c :: text, n + 1)

/-- Reads text up to a delimiter; if that does not come, all is read. -/
def readUntil (mark : Char) (isExpression : Bool) (message : String) : ReadM (List Char) := do
  let s ← get
  match untilMark mark isExpression .outside s.rest with
  | some (text, n) =>
    set { s with rest := s.rest.drop n, used := s.used + n }
    return text
  | none =>
    let consumed := if isExpression then (s.rest.takeWhile (· != '\n')).length else s.rest.length
    set { s with rest := s.rest.drop consumed, used := s.used + consumed }
    fail message

/-- Letters that stand for control characters behind a backslash. -/
def controlLetters : List (Char × Char) :=
  [('a', '\x07'), ('f', '\x0c'), ('n', '\n'), ('r', '\r'), ('t', '\t'), ('v', '\x0b')]

/-- An expression in which letters behind a backslash stand for control characters. -/
def withControls : List Char → List Char
  | '\\' :: c :: rest => match controlLetters.lookup c with
    | some d => d :: withControls rest
    | none => '\\' :: c :: withControls rest
  | c :: rest => c :: withControls rest
  | [] => []

/-- The expression of a text; an empty one stands for the last one used. -/
def searcherOf (text : List Char) (foldsCase byLines : Bool) : ReadM (Option Searcher) := do
  if text.isEmpty then return none
  let style : Regex.Style := if (← get).isExtended then .extended else .basic
  match Regex.parse style (withControls text) with
  | .error problem => fail problem.message
  | .ok r => return some (r.searcher foldsCase byLines)

/-- Reads an expression between delimiters, with letters behind it. -/
def readMatching (mark : Char) : ReadM LineAddress := do
  let text ← readUntil mark true "unterminated address regex"
  let flags ← take fun c => c == 'I' || c == 'M'
  match ← searcherOf text (flags.contains 'I') (flags.contains 'M') with
  | some s => return .matching s
  | none => return .matchingAgain

def readAddress? : ReadM (Option LineAddress) := do
  match ← peek? with
  | some '$' =>
    let _ ← next?
    return some .last
  | some '/' =>
    let _ ← next?
    return some (← readMatching '/')
  | some '\\' =>
    let _ ← next?
    match ← next? with
    | some mark => return some (← readMatching mark)
    | none => fail "unexpected \x60,'"
  | some c =>
    if c.isDigit then
      let n ← number
      skipBlanks
      if (← peek?) == some '~' then
        let _ ← next?
        return some (.step n (← number))
      else return some (.number n)
    else return none
  | none => return none

def readRangeEnd : ReadM RangeEnd := do
  skipBlanks
  match ← peek? with
  | some '+' =>
    let _ ← next?
    return .after (← number)
  | some '~' =>
    let _ ← next?
    return .multipleOf (← number)
  | _ => match ← readAddress? with
    | some a => return .address a
    | none =>
      let _ ← next?
      fail "unexpected \x60,'"

/-- The pieces of a replacement; the third argument collects plain text backwards. -/
def replacementParts : List Char → List Char → List ReplacementPart
  | acc, [] => flush acc []
  | acc, '\\' :: c :: rest =>
    if c.isDigit then flush acc (.group (Number.digitValue c) :: replacementParts [] rest)
    else match changes.lookup c with
      | some change => flush acc (.caseChange change :: replacementParts [] rest)
      | none => replacementParts ((controlLetters.lookup c).getD c :: acc) rest
  | acc, '&' :: rest => flush acc (.group 0 :: replacementParts [] rest)
  | acc, c :: rest => replacementParts (c :: acc) rest
where
  flush (acc : List Char) (parts : List ReplacementPart) : List ReplacementPart :=
    if acc.isEmpty then parts else .text acc.reverse :: parts
  changes : List (Char × CaseChange) :=
    [('U', .upper), ('L', .lower), ('E', .stop), ('u', .upperNext), ('l', .lowerNext)]

/-- The rest of the line, as the name of a file. -/
def readFileName : ReadM String := do
  skipBlanks
  let name ← take (· != '\n')
  let _ ← next?
  if name.isEmpty then fail "missing filename in r/R/w/W commands"
  return String.ofList name

/-- Letters and numbers behind a substitution. -/
structure SubstitutionFlags where
  isGlobal : Bool := false
  prints : Bool := false
  foldsCase : Bool := false
  byLines : Bool := false
  number : Option Nat := none
  file : Option String := none

/-- Reads what stands behind a substitution; the first argument bounds that. -/
def readFlags : Nat → SubstitutionFlags → ReadM SubstitutionFlags
  | 0, flags => return flags
  | n + 1, flags => do
    match ← next? with
    | none | some '\n' | some ';' => return flags
    | some 'g' =>
      if flags.isGlobal then fail ("multiple " ++ quoted "g" ++ " options to " ++ quoted "s" ++ " command")
      readFlags n { flags with isGlobal := true }
    | some 'p' =>
      if flags.prints then fail ("multiple " ++ quoted "p" ++ " options to " ++ quoted "s" ++ " command")
      readFlags n { flags with prints := true }
    | some 'i' | some 'I' => readFlags n { flags with foldsCase := true }
    | some 'm' | some 'M' => readFlags n { flags with byLines := true }
    | some 'w' => return { flags with file := some (← readFileName) }
    | some c =>
      if c == '#' || c == Char.ofNat 125 then
        modify fun s => { s with rest := c :: s.rest, used := s.used - 1 }
        return flags
      else if c.isDigit then
        let more ← take Char.isDigit
        let k := Number.ofDigits (c :: more)
        if flags.number.isSome then
          fail ("multiple number options to " ++ quoted "s" ++ " command")
        if k = 0 then fail ("number option to " ++ quoted "s" ++ " command may not be zero")
        readFlags n { flags with number := some k }
      else if isBlank c then readFlags n flags
      else fail ("unknown option to " ++ quoted "s")

def readSubstitution : ReadM EditAction := do
  let unterminated := "unterminated " ++ quoted "s" ++ " command"
  match ← next? with
  | none => fail unterminated
  | some mark =>
    let text ← readUntil mark true unterminated
    let replacement ← readUntil mark false unterminated
    let flags ← readFlags ((← get).rest.length + 1) {}
    let searcher ← searcherOf text flags.foldsCase flags.byLines
    let parts := replacementParts [] replacement
    let groups := (searcher.map groupCount).getD 9
    for part in parts do
      if let .group index := part then
        if groups < index then
          fail ("invalid reference \\" ++ toString index ++ " on " ++ quoted "s" ++ " command's RHS")
    let (isGlobal, prints, number, file) := (flags.isGlobal, flags.prints, flags.number, flags.file)
    return .substitute { searcher, replacement := parts, isGlobal, prints, number, file }
where
  groupCount (s : Searcher) : Nat := s.steps.foldl (fun n step => match step with
    | .save slot => max n (slot / 2)
    | _ => n) 0

/-- The characters of one side of a transliteration. -/
def exchanged : List Char → List Char
  | '\\' :: '\\' :: rest => '\\' :: exchanged rest
  | '\\' :: c :: rest => match controlLetters.lookup c with
    | some d => d :: exchanged rest
    | none => '\\' :: exchanged (c :: rest)
  | c :: rest => c :: exchanged rest
  | [] => []
termination_by cs => cs.length

def readTransliteration : ReadM EditAction := do
  let unterminated := "unterminated " ++ quoted "y" ++ " command"
  match ← next? with
  | none => fail unterminated
  | some mark =>
    let source ← readUntil mark false unterminated
    let target ← readUntil mark false unterminated
    let (source, target) := (exchanged source, exchanged target)
    if source.length != target.length then
      fail ("strings for " ++ quoted "y" ++ " command are different lengths")
    endCommand
    return .transliterate (source.zip target)

/-- Text up to the end of a line, in which a backslash joins lines and quotes. -/
def linesOfText : List Char → List Char × Nat
  | [] => ([], 0)
  | '\n' :: _ => ([], 1)
  | '\\' :: c :: rest =>
    let (text, n) := linesOfText rest
    ((if c == '\n' then c else (controlLetters.lookup c).getD c) :: text, n + 2)
  | ['\\'] => ([], 1)
  | c :: rest =>
    let (text, n) := linesOfText rest
    (c :: text, n + 1)

def readText : ReadM String := do
  skipBlanks
  let s ← get
  match s.rest with
  | [] => fail ("expected \\ after " ++ quoted "a" ++ ", " ++ quoted "c" ++ " or " ++ quoted "i")
  | '\\' :: rest =>
    -- Behind a backslash the text starts on the next line, or at once with its blanks.
    let blanks := rest.takeWhile fun c => isBlank c && c != '\n'
    let behind := rest.drop blanks.length
    let (text, skipped) := match behind with
      | '\n' :: text => (text, blanks.length + 2)
      | _ => (rest, 1)
    let isEscape := skipped == 1 && rest.head? == some '\\'
    let (text, n) := if isEscape then linesOfText rest else linesOfText text
    set { s with rest := s.rest.drop (skipped + n), used := s.used + skipped + n }
    return if behind.isEmpty || behind == ['\n'] then "" else String.ofList text ++ "\n"
  | rest =>
    let (text, n) := linesOfText rest
    set { s with rest := rest.drop n, used := s.used + n }
    return String.ofList text ++ "\n"

def readLabel : ReadM String := do
  skipBlanks
  let label ← take fun c => !isBlank c && c != ';' && c != Char.ofNat 125
  endCommand
  return String.ofList label

/-- What the letter of a command means. -/
def readAction (c : Char) (hasAddress hasRange : Bool) : ReadM EditAction := do
  let plain (a : EditAction) : ReadM EditAction := do
    endCommand
    return a
  match c with
  | 'a' => return .append (← readText)
  | 'i' => return .insert (← readText)
  | 'c' => return .change (← readText)
  | ':' =>
    if hasAddress then fail ": doesn't want any addresses"
    skipBlanks
    let label ← take fun c => !isBlank c && c != ';'
    if label.isEmpty then fail "\":\" lacks a label"
    return .label (String.ofList label)
  | 'b' => return .branch none (← readLabel)
  | 't' => return .branch (some true) (← readLabel)
  | 'T' => return .branch (some false) (← readLabel)
  | 'd' => plain .delete
  | 'D' => plain .deleteFirst
  | 'h' => plain .hold
  | 'H' => plain .holdMore
  | 'g' => plain .fetch
  | 'G' => plain .fetchMore
  | 'x' => plain .exchange
  | 'n' => plain .next
  | 'N' => plain .nextMore
  | 'p' => plain .print
  | 'P' => plain .printFirst
  | '=' => plain .lineNumber
  | 'F' => plain .fileName
  | 'z' => plain .clear
  | 'l' =>
    skipBlanks
    let digits ← take Char.isDigit
    plain (.list (if digits.isEmpty then none else some (Number.ofDigits digits)))
  | 'q' | 'Q' =>
    if hasRange then fail "command only uses one address"
    skipBlanks
    let status ← number
    plain (.quit (c == 'q') status)
  | 'r' => return .readFile (← readFileName)
  | 'R' => return .readLine (← readFileName)
  | 'w' => return .writeFile (← readFileName)
  | 'W' => return .writeFirst (← readFileName)
  | 's' => readSubstitution
  | 'y' => readTransliteration
  | 'v' =>
    let _ ← take fun c => c != '\n' && c != ';'
    return .nothing
  | c => fail ("unknown command: " ++ quoted (String.singleton c))

/-- The commands read so far, the newest first, with the open blocks. -/
structure Commands where
  read : List EditCommand := []
  /-- Indices of the blocks that are open, the innermost first. -/
  opened : List Nat := []

def Commands.add (cs : Commands) (c : EditCommand) : Commands := { cs with read := c :: cs.read }

/-- Reads commands to the end of a script; the first argument bounds their number. -/
def readCommands : Nat → Commands → ReadM Commands
  | 0, commands => return commands
  | n + 1, commands => do
    let _ ← take fun c => isBlank c || c == ';'
    match ← peek? with
    | none => return commands
    | some '#' =>
      let _ ← take (· != '\n')
      readCommands n commands
    | some _ =>
      let first ← readAddress?
      if first.isSome then skipBlanks
      let stop ← if first.isSome && (← peek?) == some ',' then
          let _ ← next?
          pure (some (← readRangeEnd))
        else pure none
      skipBlanks
      let isNegated := (← peek?) == some '!'
      if isNegated then
        let _ ← next?
        skipBlanks
        if (← peek?) == some '!' then
          let _ ← next?
          fail ("multiple " ++ quoted "!" ++ "s")
      let letter ← next?
      let startsAtZero := match first with
        | some (.number 0) => true
        | _ => false
      let endsMatching := match stop with
        | some (.address (.matching _)) | some (.address .matchingAgain) => true
        | _ => false
      if startsAtZero && !endsMatching then fail "invalid usage of line address 0"
      match letter with
      | none => fail "missing command"
      | some c =>
        if c == Char.ofNat 123 then
          let index := commands.read.length
          readCommands n { (commands.add { first, stop, isNegated, action := .block 0 }) with
            opened := index :: commands.opened }
        else if c == Char.ofNat 125 then
          match commands.opened with
          | [] => fail ("unexpected " ++ quoted (String.singleton c))
          | _ :: opened =>
            if first.isSome then fail (quoted (String.singleton c) ++ " doesn't want any addresses")
            endCommand
            readCommands n { (commands.add { action := .blockEnd }) with opened }
        else
          let action ← readAction c first.isSome stop.isSome
          readCommands n (commands.add { first, stop, isNegated, action })

/-- Gives each block the index of its end: the first end behind it that closes as many blocks as were
opened. -/
def closeBlocks (commands : List EditCommand) : List EditCommand :=
  let (_, _, done) := commands.reverse.foldl (fun (index, ends, acc) (c : EditCommand) =>
    let index := index - 1
    match c.action with
    | .blockEnd => (index, index :: ends, c :: acc)
    | .block _ => (index, ends.tail, { c with action := .block (ends.headD index) } :: acc)
    | _ => (index, ends, c :: acc)) (commands.length, ([] : List Nat), ([] : List EditCommand))
  done

end EditScript

end TestSynth.Programs
