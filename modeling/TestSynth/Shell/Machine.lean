import TestSynth.Shell.Evaluation
import TestSynth.Toolchain.Harness
/-!
A machine made of the files alone: the tools are the standard programs and the scripts that lie in
the tree. Time does not pass on it, so no command reaches its limit unless it runs without end.
-/
namespace TestSynth.Shell

open Process

/-- Why a command was not run. -/
inductive LaunchError where
  | noWords
  | notStarted (program : String) (cause : FileError)
deriving DecidableEq, Repr, Inhabited

def LaunchError.message (name : String) : LaunchError → String
  | .noWords => "Command " ++ name ++ " is empty"
  | .notStarted program cause =>
    "Command " ++ name ++ " could not start " ++ program ++ ": " ++ cause.message

/-- The directory in which a command runs. -/
def directoryOf (files : FileTree) : Option Path → Except FileError Location
  | none => .ok files.workingDirectory
  | some dir => match files.find dir with
    | .ok (place, .directory _) => .ok place
    | .ok _ => .error .notDirectory
    | .error e => .error e

/-- Bytes that an argument stays below. -/
def argumentLimit : Nat := 131072

/-- What is wrong with the words and the directory of a command, whatever the files are. -/
def refusalOf? (c : ToolCommand) : Option FileError :=
  let texts := c.words ++ (c.directory.map (·.text)).toList
  if texts.any fun t => t.toList.contains (Char.ofNat 0) then some .nulInArgument
  else if c.words.any fun w => argumentLimit ≤ Text.byteLength w.toList + 1 then some .argumentsTooLong
  else none

/-- Variables that every process has unless others are given. -/
def standardVariables : List (String × String) :=
  [("HOME", "/root"), ("PATH", Executable.defaultSearch)]

/-- A session for a command, whose output and messages go into pipes of their own. -/
def sessionFor (env : Settings.Environment) (root : FileNode) (directory : Location) : Session :=
  { system := {
      root
      opened := #[{ channel := .nowhere }, { channel := .pipe 0 }, { channel := .pipe 1 }]
      pipes := #[{}, {}]
      nextProcess := 1001 }
    directory
    descriptors := [(standardInput, 0), (standardOutput, 1), (standardError, 2)]
    environment := (standardVariables.filter fun (k, _) => !env.any (·.1 == k)) ++
      env.map fun (k, v) => (Text.spread k, Text.spread v)
    processId := 1000 }

/-- What is started for a program: a file that names no interpreter cannot be. -/
def startable (s : Session) (program : String) : Except FileError Executable := do
  match ← executableIn s (s.valueOf? "PATH") program with
  | .unnamed _ => .error .notProgram
  | e => .ok e

/-- The result of a command by how it ended. -/
def resultOf (name : String) (ending : Ending) (s : System) : CommandResult :=
  let text (index : Nat) : String := Text.decode (Text.toBytes ((s.pipes[index]?).getD {}).content)
  { name
    exitCode := match ending with
      | .exited status => some status
      | .killed _ | .endless => none
    stdout := text 0
    stderr := text 1
    timedOut := ending == .endless }

/-- Runs a command on a tree of files. -/
def execute (env : Settings.Environment) (c : ToolCommand) (files : FileTree) :
    Except LaunchError CommandResult × FileTree :=
  match c.words with
  | [] => (.error .noWords, files)
  | program :: arguments =>
    let prepared := do
      if let some e := refusalOf? c then throw e
      let session := sessionFor env files.root (← directoryOf files c.directory)
      return (session, ← startable session (Text.spread program))
    match prepared with
    | .error e => (.error (.notStarted program e), files)
    | .ok (session, executable) =>
      let (ending, s) := start (engine nestingLimit) interpreterLimit (Text.spread program) executable
        (arguments.map Text.spread) session
      (.ok (resultOf c.name ending s.system), { files with root := s.system.root })

/-- The machine with the variables of an environment. -/
def machine {σ : Type} (env : Settings.Environment) : Machine σ := fun c => do
  let w ← get
  let (result, files) := execute env c w.files
  set { w with files }
  return result.mapError (LaunchError.message c.name)

end TestSynth.Shell
