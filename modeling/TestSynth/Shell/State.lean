import TestSynth.OrderedMap
import TestSynth.Process.Session
import TestSynth.Shell.Parser
/-!
What a running shell knows, and how its commands break off.
-/
namespace TestSynth.Shell

open Process

/-- The name under which a shell is started. -/
def shellName : String := "sh"

structure Variable where
  /-- None for a name that only has marks. -/
  value : Option String := none
  isExported : Bool := false
  isReadOnly : Bool := false
deriving DecidableEq, Repr, Inhabited

/-- What a shell does when a signal arrives. -/
abbrev Traps := List (Signal × String)

/-- What a copy of a shell takes over. -/
structure Core where
  session : Session
  bindings : OrderedMap String Variable := .empty
  functions : OrderedMap String Command := .empty
  aliases : List (String × String) := []
  name : String := shellName
  arguments : List String := []
  /-- The letters of the options that are set. -/
  options : List Char := []
  /-- The process that scripts know as the shell's own. -/
  shellProcess : Nat := 1
  status : Nat := 0
  /-- The line that messages tell. -/
  line : Nat := 1
  /-- The command in whose name messages are. -/
  speaker : Option String := none
  /-- The number of the argument whose options are read next, and where inside the one before it
  that reading stands. -/
  optionIndex : Nat := 1
  optionOffset : Option Nat := none
  /-- The working directory as the shell went there. -/
  place : String := "/"
  loopDepth : Nat := 0
  functionDepth : Nat := 0
  /-- Where programs were found, by name. -/
  located : List (String × String) := []
  lastBackground : Option Nat := none
deriving Inhabited

/-- A command that goes on by itself. It is carried out when something waits for it. -/
structure Job where
  processId : Nat
  /-- What it starts from; none once it has ended. -/
  waiting : Option (Core × Command) := none
  ending : Ending := .exited 0
deriving Inhabited

structure State extends Core where
  traps : Traps := []
  /-- Signals that wait for their traps. -/
  caught : List Signal := []
  jobs : List Job := []
  /-- The status of the last substitution of the running command. -/
  substituted : Nat := 0
  /-- The variables to set back when the running functions end, the innermost first. -/
  saved : List (List (String × Option Variable)) := []
  /-- Whether a trace is being written. -/
  isTracing : Bool := false
deriving Inhabited

/-- Why a command does not come to its end. -/
inductive Interrupt where
  /-- The shell ends with its status. -/
  | exit
  /-- An error that ends the shell, unless a command of its own may fail. -/
  | failure
  | leave (loops : Nat)
  | again (loops : Nat)
  | return
  | killed (signal : Signal)
  | endless
deriving DecidableEq, Repr, Inhabited

abbrev ShellM := ExceptT Interrupt (StateM State)

def isSet (option : Char) : ShellM Bool := return (← get).options.contains option

def setStatus (status : Nat) : ShellM Unit := modify fun s => { s with status }

/-- Does something in the session of the shell. -/
def inSession {α : Type} (body : SessionM α) : ShellM α :=
  modifyGet fun s =>
    let (a, session) := body s.session
    (a, { s with session })

def writeOut (text : String) : ShellM Unit := do
  let _ ← inSession (Session.writeText standardOutput text)

/-- Writes a message with the name of the shell and the line. -/
def warn (message : String) : ShellM Unit := do
  let s ← get
  let speaker := (s.speaker.map (· ++ ": ")).getD ""
  inSession (Session.say (s.name ++ ": " ++ toString s.line ++ ": " ++ speaker ++ message ++ "\n"))

/-- Writes a message and gives up. -/
def fail {α : Type} (message : String) (status : Nat := 2) : ShellM α := do
  warn message
  setStatus status
  throw .failure

/-- Does something in the name of a command. -/
def speakingAs {α : Type} (name : String) (body : ShellM α) : ShellM α := do
  let before := (← get).speaker
  modify fun s => { s with speaker := some name }
  try
    let a ← body
    modify fun s => { s with speaker := before }
    return a
  catch e =>
    modify fun s => { s with speaker := before }
    throw e

/-- Does something and, however it ends, something else after it. -/
def afterwards {α : Type} (body : ShellM α) (finally_ : ShellM Unit) : ShellM α := do
  let result ← (observing body : ShellM (Except Interrupt α))
  finally_
  match result with
  | .ok a => return a
  | .error e => throw e
where
  observing (body : ShellM α) : ShellM (Except Interrupt α) := fun s =>
    let (result, s) := body s
    (.ok result, s)

namespace State

def valueOf? (s : State) (name : String) : Option String :=
  (s.bindings.find? name).bind (·.value)

/-- The value of a variable that a script may have changed. -/
def valueOr (s : State) (name default : String) : String := (s.valueOf? name).getD default

/-- The variables that programs are given. -/
def environment (s : State) : List (String × String) :=
  s.bindings.entries.filterMap fun (name, v) =>
    if v.isExported then v.value.map fun value => (name, value) else none

def setVariable (s : State) (name : String) (v : Variable) : State :=
  { s with bindings := s.bindings.insert name v }

def eraseVariable (s : State) (name : String) : State :=
  { s with bindings := ⟨s.bindings.entries.filter (·.1 != name)⟩ }

end State

/-- Gives a variable a value. -/
def assign (name value : String) (exported : Bool := false) : ShellM Unit := do
  let s ← get
  let old := (s.bindings.find? name).getD {}
  if old.isReadOnly then fail (name ++ ": is read only")
  let isExported := old.isExported || exported || s.options.contains 'a'
  set (s.setVariable name { old with value := some value, isExported })
  if name == "PATH" then modify fun s => { s with located := [] }
  if name == "OPTIND" then
    modify fun s => { s with
      optionIndex := max 1 ((value.toNat?).getD 1), optionOffset := none }

/-- Takes a variable away. -/
def unassign (name : String) : ShellM Unit := do
  let s ← get
  if ((s.bindings.find? name).getD {}).isReadOnly then fail (name ++ ": is read only")
  set (s.eraseVariable name)
  if name == "PATH" then modify fun s => { s with located := [] }

/-- Remembers where a program was found. -/
def remember (name location : String) : ShellM Unit := modify fun s =>
  if name.toList.contains '/' || s.located.any (·.1 == name) then s
  else { s with located := s.located ++ [(name, location)] }

/-- The value of a parameter that is not a list of arguments. -/
def parameterValue (name : String) : ShellM (Option String) := do
  let s ← get
  match name with
  | "#" => return some (toString s.arguments.length)
  | "?" => return some (toString s.status)
  | "$" => return some (toString s.shellProcess)
  | "-" => return some (String.ofList s.options.reverse)
  | "!" => return s.lastBackground.map fun n => toString n
  | "0" => return some s.name
  | _ =>
    let cs := name.toList
    if cs.all Char.isDigit then return s.arguments[Number.ofDigits cs - 1]?
    else return s.valueOf? name

/-- The letters of options in the order in which they are listed, with their long names. -/
def optionNames : List (Char × String) :=
  [('e', "errexit"), ('f', "noglob"), ('I', "ignoreeof"), ('i', "interactive"), ('m', "monitor"),
    ('n', "noexec"), ('s', "stdin"), ('x', "xtrace"), ('v', "verbose"), ('V', "vi"), ('E', "emacs"),
    ('C', "noclobber"), ('a', "allexport"), ('b', "notify"), ('u', "nounset"), ('p', "privileged"),
    ('l', "nolog"), ('d', "debug")]

/-- Sets an option or takes it back. -/
def setOption (letter : Char) (isOn : Bool) : ShellM Unit := modify fun s =>
  let others := s.options.filter (· != letter)
  { s with options := if isOn then
      (optionNames.map (·.1)).filter fun c => c == letter || others.contains c
    else others }

end TestSynth.Shell
