import TestSynth.Programs.Launching
import TestSynth.Programs.Records.State
/-!
What rules read and write besides values: the inputs, files, and commands with which they exchange
text. What is written waits until it has to be there.
-/
namespace TestSynth.Programs.Records

open Process Number

/-- What commands run in that exchange text with the rules. -/
def commandShell : String := "/bin/sh"

/-- Runs a command with descriptors of its own and gives its ending. -/
def runCommand (launch : Launcher) (command : String) (prepare : Session → Session := id)
    (shell : String := commandShell) : RecordM Ending := do
  match ← ofTool (launchIn launch prepare [shell, "-c", command]) with
  | .ok ending => return ending
  | .error _ => return .exited 127

/-- The status of a command as rules see it. -/
def statusOf : Ending → Nat
  | .exited status => status % 256
  | .killed signal => 256 + signal
  | .endless => 256 + kill

/-- Passes on what waits to be written. What a command is to read waits until its end. -/
def flushSink (s : Sink) : RecordM Sink := do
  let text := s.pending.reverse.flatten
  match s.kind with
  | .output =>
    ofTool (Tool.put text)
    return { s with pending := [] }
  | .messages =>
    inSession (Session.say (String.ofList text))
    return { s with pending := [] }
  | .file index =>
    if text.isEmpty then return s
    let result ← inSession fun session =>
      let (result, system) := session.system.write index text
      (result, { session with system })
    match result with
    | .ok () => return { s with pending := [] }
    | .error e => failPlainly ("close failed on file \"" ++ s.name ++ "\" (" ++ e.reason ++ ")")
  | .command => return s

/-- Passes on all that waits, the oldest first. -/
def flushAll : RecordM Unit := do
  let mut flushed := []
  for s in (← get).sinks.reverse do
    flushed := (← flushSink s) :: flushed
  modify fun s => { s with sinks := flushed }

/-- Ends what is being written; a command runs now. -/
def closeSink (launch : Launcher) (s : Sink) : RecordM Nat := do
  match s.kind with
  | .command =>
    let text := s.pending.reverse.flatten
    let index ← inSession fun session =>
      let (index, system) := session.system.addPipe
      let (_, system) := system.write index text
      (index, { session with system })
    return statusOf (← runCommand launch s.name fun session => session.setDescriptor standardInput index)
  | _ =>
    let _ ← flushSink s
    return 0

/-- Ends all that is being written. -/
def closeSinks (launch : Launcher) : RecordM Unit := do
  let sinks := (← get).sinks
  modify fun s => { s with sinks := [] }
  for s in sinks do
    let _ ← closeSink launch s

/-- Opens a file of the system. -/
def openFile (name : String) (mode : OpenMode) : RecordM (Except FileError Nat) :=
  inSession fun session => match session.openAt name mode with
    | .error e => (.error e, session)
    | .ok (f, t) =>
      let session := session.setTree t
      let (index, system) := session.system.open_ f
      (.ok index, { session with system })

/-- How something is written. -/
inductive Writing where
  | replacing
  | appending
  | toCommand
deriving DecidableEq, Repr

/-- Starts writing to something. -/
def openSink (w : Writing) (name : String) : RecordM Sink := do
  if w == .toCommand then
    flushAll
    return { name, kind := .command }
  else if name == outputName then return { name, kind := .output }
  else if name == "/dev/stderr" then return { name, kind := .messages }
  else match ← openFile name (if w == .appending then .append else .write) with
    | .ok index => return { name, kind := .file index }
    | .error e =>
      failPlainly ("cannot open \"" ++ name ++ "\" for output (" ++ e.reason ++ ")")

/-- Writes to something by name; it comes first then. -/
def writeTo (w : Writing) (name : String) (text : List Char) : RecordM Unit := do
  let isCommand := w == .toCommand
  let isWanted (s : Sink) : Bool := s.name == name && (s.kind == .command) == isCommand
  let sink ← match (← get).sinks.find? isWanted with
    | some s => pure s
    | none => openSink w name
  let sink := { sink with pending := text :: sink.pending }
  let sink ← if sink.kind == .messages then flushSink sink else pure sink
  modify fun s => { s with sinks := sink :: s.sinks.filter fun other => !isWanted other }

/-- Writes to standard output. -/
def writeOut (text : List Char) : RecordM Unit := do
  let isOutput (s : Sink) : Bool := s.kind == .output
  let add (s : Sink) : Sink := if isOutput s then { s with pending := text :: s.pending } else s
  if (← get).sinks.any isOutput then modify fun s => { s with sinks := s.sinks.map add }
  else modify fun s => { s with sinks := s.sinks ++ [⟨outputName, .output, [text]⟩] }

/-- Ends reading or writing by name; without either the status is negative. -/
def close (launch : Launcher) (name : String) : RecordM Int := do
  let s ← get
  let sinks := s.sinks.filter (·.name == name)
  let sources := s.sources.filter (·.name == name)
  set { s with
    sinks := s.sinks.filter (·.name != name)
    sources := s.sources.filter (·.name != name) }
  let mut status : Int := -1
  for source in sources do status := source.status
  for sink in sinks do status := ← closeSink launch sink
  return status

/-- The record in front of a text by the separator of records, and what follows it. -/
def cutRecord (separator : String) (cs : List Char) : RecordM (Option (List Char × List Char)) := do
  let upTo (c : Char) (cs : List Char) : List Char × List Char :=
    let record := cs.takeWhile (· != c)
    (record, cs.drop (record.length + 1))
  match separator.toList with
  | [c] => return if cs.isEmpty then none else some (upTo c cs)
  | [] =>
    let cs := cs.dropWhile (· == '\n')
    return if cs.isEmpty then none else some (paragraph [] cs)
  | _ =>
    if cs.isEmpty then return none
    let searcher ← searcherOf separator
    let found := match searcher.find? cs with
      | some m => if m.start < m.stop then some m else (searcher.all cs).find? fun m => m.start < m.stop
      | none => none
    match found with
    | some m => return some (cs.take m.start, cs.drop m.stop)
    | none => return some (cs, [])
where
  /-- A text up to an empty line; the first argument collects it backwards. -/
  paragraph : List Char → List Char → List Char × List Char
    | acc, [] => (acc.reverse, [])
    | acc, c :: rest =>
      if c == '\n' && rest.head? == some '\n' then (acc.reverse, rest.dropWhile (· == '\n'))
      else if c == '\n' && rest.isEmpty then (acc.reverse, [])
      else paragraph (c :: acc) rest

/-- An operand that assigns to a variable. -/
def assignment? (operand : String) : Option (String × String) :=
  let cs := operand.toList
  let name := cs.takeWhile (· != '=')
  match cs.drop name.length with
  | _ :: value => if Text.isIdentifier name then some (String.ofList name, String.ofList value) else none
  | [] => none

/-- The name of standard input among inputs. -/
def inputName : String := "-"

def readInput (name : String) : RecordM (List Char) := do
  modify fun s => { s with
    hasInput := true
    bindings := (s.bindings.insert "FILENAME" (.text name)).insert "FNR" (.number .zero) }
  let isStandard := name == inputName || name == "/dev/stdin"
  match ← inSession (if isStandard then Session.readAll standardInput else Session.readFile name) with
  | .ok cs => return cs
  | .error .isDirectory => failPlainly "read error (Is a directory)"
  | .error e =>
    if isStandard then return []
    failPlainly ("cannot open \"" ++ name ++ "\" (" ++ e.reason ++ ")")

/-- Goes on to the next input, if there is one; assignments among the operands are carried out.
The first argument bounds their number. -/
def openNext : Nat → RecordM (Option (List Char))
  | 0 => return none
  | n + 1 => do
    let s ← get
    let count := (((← getVariable "ARGC").toNumber).truncate?.getD 0).toNat
    if count ≤ s.nextOperand then
      if s.hasInput then return none else some <$> readInput inputName
    else
      set { s with nextOperand := s.nextOperand + 1 }
      let operand ← textOf ((← getTable (← tableOf "ARGV")).get (.whole s.nextOperand))
      if operand.isEmpty then openNext n
      else match assignment? operand with
        | some (name, value) =>
          setVariable name (.ofInput (withEscapes value))
          openNext n
        | none => some <$> readInput operand

/-- The next record of the inputs. The first argument bounds the number of inputs. -/
def nextRecord : Nat → RecordM (Option String)
  | 0 => return none
  | n + 1 => do
    let separator ← globalText "RS"
    let found ← match (← get).input with
      | none => pure none
      | some cs => cutRecord separator cs
    match found with
    | some (record, rest) =>
      modify fun s => { s with input := some rest }
      return some (String.ofList record)
    | none =>
      match ← openNext operandLimit with
      | none => return none
      | some cs =>
        modify fun s => { s with input := some cs }
        nextRecord n
where
  operandLimit : Nat := 100000

/-- Inputs at most. -/
def inputLimit : Nat := 100000

/-- The next record of the inputs, which is counted. -/
def readRecord : RecordM (Option String) := do
  let record ← nextRecord inputLimit
  if record.isSome then countRecord
  return record

/-- The next record of a file or a command, which is opened first if need be; none at the end. What
cannot be read is an error. -/
def readFrom (launch : Launcher) (isCommand : Bool) (name : String) :
    RecordM (Except Unit (Option String)) := do
  let source : Option Source ← match (← get).sources.find? (·.name == name) with
    | some s => pure (some s)
    | none =>
      if isCommand then
        flushAll
        let index ← inSession fun session =>
          let (index, system) := session.system.addPipe
          (index, { session with system })
        let ending ← runCommand launch name fun session => session.setDescriptor standardOutput index
        let text ← inSession fun session =>
          let (text, system) := session.system.take index fun cs => (cs, [])
          (text, { session with system })
        pure (some { name, rest := text.toOption.getD [], status := statusOf ending })
      else
        let isStandard := name == inputName || name == "/dev/stdin"
        match ← inSession (if isStandard then Session.readAll standardInput else Session.readFile name) with
        | .ok cs => pure (some { name, rest := cs })
        | .error _ => pure none
  match source with
  | none => return .error ()
  | some source =>
    match ← cutRecord (← globalText "RS") source.rest with
    | some (record, rest) =>
      keep { source with rest }
      return .ok (some (String.ofList record))
    | none =>
      keep { source with rest := [] }
      return .ok none
where
  keep (source : Source) : RecordM Unit :=
    modify fun s => { s with sources := source :: s.sources.filter (·.name != source.name) }

end TestSynth.Programs.Records
