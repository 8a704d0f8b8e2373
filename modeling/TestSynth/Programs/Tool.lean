import TestSynth.Number.Decimal
import TestSynth.Process.Session
/-!
What can be started: the standard programs, which have no file in the tree, and scripts. And what
the standard programs are written in: reading options, files and standard input, writing, and
complaining. Their messages show what a user gave in quotes, with one character for each byte.
-/
namespace TestSynth.Process

inductive Executable where
  | standard (name : String)
  | script (path : String) (interpreter : String) (option : Option String)
  /-- A file that may be run but names no interpreter. -/
  | unnamed (path : String)
deriving DecidableEq, Repr, Inhabited

namespace Executable

/-- The interpreter that the first line of a file names, with its option. -/
def interpreterOf? (content : List Char) : Option (String × Option String) :=
  let isBlank (c : Char) : Bool := c == ' ' || c == '\t'
  match content with
  | '#' :: '!' :: rest =>
    let line := ((rest.takeWhile (· != '\n')).dropWhile isBlank)
    let name := line.takeWhile (!isBlank ·)
    let option := ((((line.drop name.length).dropWhile isBlank).reverse).dropWhile isBlank).reverse
    if name.isEmpty then none
    else some (String.ofList name, if option.isEmpty then none else some (String.ofList option))
  | _ => none

/-- The directories that hold the standard programs. -/
def standardDirectories : List String := ["/usr/bin", "/bin"]

/-- The standard program at a path. -/
def standardName? (isStandard : String → Bool) (path : String) : Option String :=
  standardDirectories.findSome? fun dir =>
    ((Path.mk path).relativeTo? ⟨dir⟩).bind fun name =>
      if isStandard name.text then some name.text else none

/-- What is at a path, if it can be started. -/
def at_ (isStandard : String → Bool) (t : FileTree) (path : String) : Except FileError Executable :=
  match standardName? isStandard path with
  | some name => .ok (.standard name)
  | none => match t.find (Session.pathOf path) with
    | .error e => .error e
    | .ok (_, .file content true) => match interpreterOf? (Text.ofBytes (content.take 256)) with
      | some (interpreter, option) => .ok (.script path interpreter option)
      | none => .ok (.unnamed path)
    | .ok _ => .error .denied

/-- Searches directories for a name; what is found there but cannot be started is remembered. -/
def search (isStandard : String → Bool) (t : FileTree) (name : String) (problem : FileError) :
    List String → Except FileError Executable
  | [] => .error problem
  | dir :: rest =>
    let path := if dir.isEmpty then name else dir ++ "/" ++ name
    match at_ isStandard t path with
    | .ok e => .ok e
    | .error .notFound | .error .notDirectory => search isStandard t name problem rest
    | .error e => search isStandard t name e rest

/-- Where programs are looked for when nothing else is said. -/
def defaultSearch : String := "/usr/local/sbin:/usr/local/bin:/usr/sbin:/usr/bin:/sbin:/bin"

/-- The program of a name. One with a slash is a path. -/
def find (isStandard : String → Bool) (t : FileTree) (searched : Option String) (name : String) :
    Except FileError Executable :=
  if name.isEmpty then .error .notFound
  else if name.toList.contains '/' then at_ isStandard t name
  else search isStandard t name .notFound ((searched.getD defaultSearch).splitOn ":")

/-- Where a program is, as a search through directories tells. -/
def location : Executable → String
  | standard name => "/usr/bin/" ++ name
  | script path .. | unnamed path => path

end Executable

end TestSynth.Process

namespace TestSynth.Programs

open Process

def isPrinted (c : Char) : Bool := ' ' ≤ c && c ≤ '~'

/-- A character that is not printed, written behind a backslash. -/
def escaped (c : Char) : String :=
  match escapeNames.lookup c with
  | some name => "\\" ++ name
  | none =>
    let digits := Nat.toDigits 8 c.toNat
    "\\" ++ String.ofList (List.replicate (3 - digits.length) '0' ++ digits)
where
  escapeNames : List (Char × String) :=
    [('\x07', "a"), ('\x08', "b"), ('\t', "t"), ('\n', "n"), ('\x0b', "v"), ('\x0c', "f"), ('\r', "r")]

/-- In quotes; a quote and a backslash inside get a backslash in front. -/
def quote (s : String) : String :=
  let shown (c : Char) : String :=
    if c == '\'' || c == '\\' then String.ofList ['\\', c]
    else if isPrinted c then String.singleton c
    else escaped c
  "'" ++ String.join (s.toList.map shown) ++ "'"

/-- As a word that a shell reads back. -/
def quoteShell (s : String) : String :=
  let cs := s.toList
  if cs.all isPrinted && cs.contains '\'' && !cs.contains '"' then "\"" ++ s ++ "\""
  else
    let (text, _) := cs.foldl (fun (text, inEscape) c =>
      if isPrinted c then
        ((if inEscape then text ++ "''" else text) ++
          (if c == '\'' then "'\\''" else String.singleton c), false)
      else ((if inEscape then text else text ++ "'$'") ++ escaped c, true)) ("'", false)
    text ++ "'"

/-- Whether a shell would take a word for something else. -/
def needsQuotes (s : String) : Bool :=
  let cs := s.toList
  let marks := Char.ofNat 96 :: " !\"$&()*;<=>?[\\^|':".toList
  cs.isEmpty || cs == [Char.ofNat 123] || cs == [Char.ofNat 125] || cs.head? == some '#' ||
    cs.head? == some '~' || cs.any fun c => !isPrinted c || marks.contains c

/-- As it is, or as a word that a shell reads back where that differs. -/
def quoteIfNeeded (s : String) : String := if needsQuotes s then quoteShell s else s

structure ToolState where
  session : Session
  /-- The name in messages. -/
  name : String
  status : Nat := 0
deriving Inhabited

/-- The steps of a program, which can end early. -/
abbrev ToolM := ExceptT Ending (StateM ToolState)

/-- A program: what it does with its arguments. Some start others. -/
abbrev Program := Launcher → List String → ToolM Unit

namespace Tool

/-- Does something in the session of the program. -/
def inSession {α : Type} (body : SessionM α) : ToolM α := modifyGet fun s =>
  let (a, session) := body s.session
  (a, { s with session })

def tree : ToolM FileTree := return (← get).session.tree

def setStatus (status : Nat) : ToolM Unit := modify fun s => { s with status }

def finish {α : Type} (status : Nat) : ToolM α := throw (.exited status)

/-- Writes to standard output. -/
def put (cs : List Char) : ToolM Unit := do
  if !cs.isEmpty then
    match ← inSession (Session.write standardOutput cs) with
    | .ok () => return ()
    | .error e =>
      let name := (← get).name
      inSession (Session.say (name ++ ": write error: " ++ e.reason ++ "\n"))
      finish 1

def print (text : String) : ToolM Unit := put text.toList

def printLine (text : String) : ToolM Unit := print (text ++ "\n")

def say (text : String) : ToolM Unit := inSession (Session.say text)

/-- Writes a message in the name of the program, which has failed then but goes on. -/
def complain (message : String) (status : Nat := 1) : ToolM Unit := do
  say ((← get).name ++ ": " ++ message ++ "\n")
  setStatus status

/-- Writes a message and ends. -/
def abort {α : Type} (message : String) (status : Nat := 1) : ToolM α := do
  complain message status
  finish status

/-- Points to the help behind a message and ends. -/
def abortWithHint {α : Type} (message : String) (status : Nat := 1) : ToolM α := do
  let name := (← get).name
  complain message status
  say ("Try '" ++ name ++ " --help' for more information.\n")
  finish status

/-- The content of a file by name; a dash stands for standard input. -/
def content (name : String) : ToolM (Except FileError (List Char)) :=
  inSession (if name == "-" then Session.readAll standardInput else Session.readFile name)

/-- The content of an input, or a message that it cannot be read. -/
def input? (name : String) (status : Nat := 1) : ToolM (Option (List Char)) := do
  match ← content name with
  | .ok cs => return some cs
  | .error e =>
    complain (quoteIfNeeded name ++ ": " ++ e.reason) status
    return none

/-- Changes the files, or complains about what could not be done. -/
def change (what : String) (f : FileTree → Except FileError FileTree) (status : Nat := 1) :
    ToolM Bool := do
  match ← inSession (Session.change f) with
  | .ok () => return true
  | .error e =>
    complain (what ++ ": " ++ e.reason) status
    return false

end Tool

/-- Runs a program to its end. -/
def Program.run (p : Program) (launch : Launcher) (name : String) (arguments : List String) :
    SessionM Ending := fun session =>
  let (result, s) := (p launch arguments).run { session, name }
  (match result with
    | .ok () => .exited s.status
    | .error ending => ending, s.session)

/-- The lines of a text, each with its end if it has one. Another character may end them. -/
def linesOf (cs : List Char) (mark : Char := '\n') : List (List Char) := go [] [] cs
where
  go (lines : List (List Char)) (current : List Char) : List Char → List (List Char)
    | [] => (if current.isEmpty then lines else current.reverse :: lines).reverse
    | c :: rest =>
      if c == mark then go ((c :: current).reverse :: lines) [] rest else go lines (c :: current) rest

/-- A line without its end. -/
def bodyOf (line : List Char) (mark : Char := '\n') : List Char :=
  if line.getLast? == some mark then line.dropLast else line

end TestSynth.Programs
