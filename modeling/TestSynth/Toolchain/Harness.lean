import TestSynth.Convergence.Loop
import TestSynth.Model.Encoding
import TestSynth.Settings.Basic
/-!
The command lines of the tools, what running one gives, and the collaborators that use real tools: a
compiler to build tests, and gcov, with lcov if wanted, to collect coverage. What runs a command is
given to them.
-/
namespace TestSynth

/-- A command to run. No time limit is written as zero. -/
structure ToolCommand where
  /-- The label in messages. -/
  name : String
  words : List String
  directory : Option Path := none
  timeoutSecs : Nat
deriving DecidableEq, Repr, Inhabited

namespace ToolCommand

def toJson (c : ToolCommand) : Json :=
  .record [("name", .text c.name), ("command", .texts c.words),
    ("current_dir", Json.optional Path.toJson c.directory), ("timeout_secs", .nat c.timeoutSecs)]

/-- The compiler call that builds and links one test. -/
def compile (t : ToolchainSettings) (source binary : Path) (projectSources includePaths : List Path) :
    ToolCommand :=
  { name := "compile"
    words := [t.compiler, "-std=" ++ t.std] ++ t.extraFlags ++ ["-o", binary.text, source.text] ++
      projectSources.map (·.text) ++ includePaths.map ("-I" ++ ·.text) ++
      t.libDirs.map ("-L" ++ ·.text) ++ t.libs.map ("-l" ++ ·) ++ ["--coverage"]
    timeoutSecs := t.compileTimeoutSecs }

/-- Runs a test where it was built. -/
def runTest (t : ToolchainSettings) (binary : Path) : ToolCommand :=
  { name := "run_tests"
    words := [binary.text]
    directory := binary.parent?
    timeoutSecs := t.runTimeoutSecs }

def gcov (t : ToolchainSettings) (buildDir : Path) (dataFiles : List Path) : ToolCommand :=
  { name := "gcov"
    words := [t.gcov, "-b", "-c"] ++ dataFiles.map (·.text)
    directory := some buildDir
    timeoutSecs := t.coverageTimeoutSecs }

def lcov (tool : String) (buildDir info : Path) (timeoutSecs : Nat) : ToolCommand :=
  { name := "lcov"
    words := [tool, "--capture", "--directory", buildDir.text, "--output-file", info.text]
    directory := some buildDir
    timeoutSecs }

/-- Seconds a tool has to tell its version. -/
def probeTimeoutSecs : Nat := 10

def probe (tool : String) : ToolCommand :=
  { name := "probe", words := [tool, "--version"], timeoutSecs := probeTimeoutSecs }

end ToolCommand

/-- What running a command gave. One that was killed has no exit code. -/
structure CommandResult where
  name : String
  exitCode : Option Int
  stdout : String := ""
  stderr : String := ""
  timedOut : Bool := false
deriving DecidableEq, Repr, Inhabited

namespace CommandResult

def passed (r : CommandResult) : Bool := r.exitCode == some 0 && !r.timedOut

def isBlank (s : String) : Bool := (Text.trim s.toList).isEmpty

/-- Messages and output as one text, without what is blank. -/
def combined (r : CommandResult) : String :=
  if isBlank r.stderr then r.stdout
  else if isBlank r.stdout then r.stderr
  else r.stderr ++ "\n" ++ r.stdout

end CommandResult

/-- Runs commands. A command that cannot be started has a message. -/
abbrev Machine (σ : Type) := ToolCommand → StateM (World σ) (Except String CommandResult)

variable {σ : Type}

/-- Makes a directory and gives its absolute path. -/
def prepareDirectory (dir : Path) : FileAction Path := do
  .makeDirectories dir
  .look (·.canonical dir)

/-- Writes a test into its directory; gives that directory and the source, both absolute. -/
def placeTest (request : CompileRequest) : FileAction (Path × Path) := do
  let dir ← prepareDirectory request.buildDir
  return (dir, ← request.artifact.write dir)

/-- What a finished compiler call means. -/
def compileVerdict (t : ToolchainSettings) (binary : Path) (files : FileTree) (r : CommandResult) :
    CompileResult :=
  if r.timedOut then .timedOut r.stderr
  else if !r.passed then .failed r.combined
  else if !files.pathExists binary then
    .failed ("error: " ++ t.compiler ++ " exited successfully but produced no binary")
  else .compiled binary

def compileTest (t : ToolchainSettings) (m : Machine σ) (request : CompileRequest) :
    StateM (World σ) (Except Failure CompileResult) := do
  match ← World.doFiles (placeTest request) with
  | .error e => return .error (.file e)
  | .ok (dir, source) =>
    let binary := dir.join ⟨request.artifact.id⟩
    match ← m (.compile t source binary request.projectSources request.includePaths) with
    | .error message => return .error (.harness message)
    | .ok r => return .ok (compileVerdict t binary (← get).files r)

def runTest (t : ToolchainSettings) (m : Machine σ) (binary : Path) :
    StateM (World σ) (Except Failure ExecutionResult) := do
  match ← m (.runTest t binary) with
  | .error message => return .error (.harness message)
  | .ok r => return .ok ⟨r.exitCode, r.stdout, r.stderr, r.timedOut⟩

/-- Levels below a build directory that are looked at. -/
def coverageDepth : Nat := 3

/-- The files with an extension near a build directory, in order. -/
def filesWithExtension (files : FileTree) (dir : Path) (extension : String) : List Path :=
  match files.find dir with
  | .error _ => []
  | .ok (_, node) =>
    (node.descendants.filterMap fun (below, found) =>
      let path := dir.join ⟨String.intercalate "/" below⟩
      if found.isFile && below.length ≤ coverageDepth && path.extension? == some extension then
        some path
      else none).mergeSort fun p q => p.order q != .gt

/-- The listings near a build directory, by file name. -/
def readListings (files : FileTree) (dir : Path) : List (String × String) :=
  (filesWithExtension files dir "gcov").filterMap fun p =>
    match p.fileName?, files.read p with
    | some name, .ok bytes => some (name, Text.decode bytes)
    | _, _ => none

/-- The trace that lcov makes, if it does. -/
def captureTrace (t : ToolchainSettings) (m : Machine σ) (tool : String) (dir : Path) :
    StateM (World σ) (Option String) := do
  let info := dir.join ⟨"coverage.info"⟩
  match ← m (.lcov tool dir info t.coverageTimeoutSecs) with
  | .ok r =>
    if r.passed then return ((← get).files.readText info).toOption else return none
  | .error _ => return none

/-- Collects what the tools say about a build directory; without data files that is nothing. -/
def collectCoverage (t : ToolchainSettings) (m : Machine σ) (buildDir : Path) :
    StateM (World σ) (Except Failure Coverage.RawReport) := do
  match (← get).files.canonical buildDir with
  | .error e => return .error (.file e)
  | .ok dir =>
    let dataFiles := filesWithExtension (← get).files dir "gcda"
    if dataFiles.isEmpty then return .ok {}
    else match ← m (.gcov t dir dataFiles) with
      | .error message => return .error (.unavailable t.gcov message)
      | .ok r =>
        let trace ← match t.lcov with
          | some tool => captureTrace t m tool dir
          | none => pure none
        return .ok ⟨r.stdout, readListings (← get).files dir, trace⟩

/-- The collaborators for a toolchain. -/
def toolCollaborators (t : ToolchainSettings) (m : Machine σ) : Collaborators σ :=
  { compile := compileTest t m
    run := runTest t m
    collect := collectCoverage t m }

/-- Whether a tool tells its version. -/
def probeTool (m : Machine σ) (tool : String) : StateM (World σ) (Except Failure Unit) := do
  match ← m (.probe tool) with
  | .error message => return .error (.unavailable tool message)
  | .ok r =>
    if r.passed then return .ok ()
    else
      let code := match r.exitCode with
        | some n => "Some(" ++ toString n ++ ")"
        | none => "None"
      return .error (.unavailable tool
        (Text.asCode (tool ++ " --version") ++ " exited with " ++ code))

/-- Checks the tools a run needs, in order. One that is only wanted is asked but may fail. -/
def probeToolchain (m : Machine σ) (t : ToolchainSettings) :
    StateM (World σ) (Except Failure Unit) := do
  match ← probeTool m t.compiler with
  | .error e => return .error e
  | .ok () => match ← probeTool m t.gcov with
    | .error e => return .error e
    | .ok () =>
      for tool in t.lcov do
        let _ ← probeTool m tool
      return .ok ()

end TestSynth
