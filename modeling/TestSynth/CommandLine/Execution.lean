import TestSynth.CommandLine.Arguments
import TestSynth.CommandLine.Grammar
import TestSynth.Declaration.Signature
import TestSynth.Files.Archive
import TestSynth.Json.Parser
import TestSynth.Json.Printer
import TestSynth.Project.Analysis
import TestSynth.Shell.Machine
import TestSynth.Toml.Document
import TestSynth.Toolchain.Harness
/-!
Carrying out a command line: what is printed, what the files become, and the exit code. A project
may arrive with its surroundings in one record and leave in another: the program itself touches no
disk, no clock and no process.
-/
namespace TestSynth.CommandLine

/-! What the commands print. -/

/-- The files found, one a line. -/
def scanReport (units : List SourceUnit) : List String :=
  if units.isEmpty then ["No C/C++ files found."]
  else units.map (fun u => padRight 7 u.role.name ++ " " ++ u.path.text) ++
    [toString units.length ++ " files"]

def accessLabel : Access → String
  | .everyone => "Public"
  | .derived => "Protected"
  | .owner => "Private"

/-- A class and its methods. -/
def classReport (c : ClassModel) : List String :=
  let traits := (if c.isAbstract then ["abstract"] else []) ++
    if c.hasDefaultConstructor then ["default-constructible"] else []
  ((if c.isStruct then "struct " else "class ") ++ c.qualifiedName ++ " (" ++ c.header.path.text ++
      ") [" ++ String.intercalate ", " traits ++ "]") ::
    c.methods.map fun m => "    " ++ accessLabel m.access ++ " " ++ m.signature

/-- All that a project declares. -/
def tableReport (t : ModelTable) : List String :=
  t.models.flatMap classReport ++ t.functions.map (fun f => "fn " ++ f.qualifiedName) ++
  [toString t.classCount ++ " classes, " ++ toString t.methodCount ++ " methods, " ++
    toString t.functions.length ++ " free functions"]

/-- The same as structured data. -/
def tableData (t : ModelTable) : Json :=
  .record [("classes", .list (t.models.map ClassModel.toJson)),
    ("free_functions", .list (t.functions.map FreeFunction.toJson))]

/-- How a plan makes instances. -/
def planDetail : Construction → String
  | .byDefault => ""
  | .byConstructor constructor substitutions => " via " ++ constructor.signature ++
    if substitutions.isEmpty then ""
    else " (" ++ toString substitutions.length ++ " stand-ins)"
  | .byStandIn name => " as " ++ name
  | .infeasible reason => ": " ++ reason.message

def planReport (p : Plans) : List String :=
  p.byClass.values.map (fun plan => padRight 40 plan.model.qualifiedName ++ " " ++
    plan.construction.label ++ planDetail plan.construction) ++
  [toString p.feasibleCount ++ " of " ++ toString p.byClass.size ++ " classes instantiable"]

/-- How a run ended and where it left its files. -/
def runReport (d : RunDirectory) (r : RunReport) : List String :=
  ["Outcome:    " ++ r.outcome.render, "Iterations: " ++ toString r.records.length,
    "Coverage:   " ++ r.finalPercentage.reportText ++ "%", "History:    " ++ d.historyPath.text,
    "Summary:    " ++ d.summaryPath.text]

/-! Running them. -/

/-- A failed step, with what caused it from the outside in. -/
structure Problem where
  step : String
  causes : List String := []
deriving DecidableEq, Repr, Inhabited

/-- A text after a label; what follows a newline in it is indented by so many blanks. -/
def hanging (label : String) (indent : Nat) (s : String) : String :=
  label ++ Text.replaceString "\n" (String.ofList ('\n' :: List.replicate indent ' ')) s

/-- The problem as it is printed: several causes are numbered. -/
def Problem.lines (p : Problem) : List String :=
  ("Error: " ++ p.step) :: match p.causes with
    | [] => []
    | [cause] => ["", "Caused by:", hanging "    " 4 cause]
    | causes => ["", "Caused by:"] ++
      causes.zipIdx.map fun (cause, index) => hanging ("    " ++ toString index ++ ": ") 7 cause

/-- How a command ends. A run that breaks off leaves no report and no problem to tell of. -/
inductive Ending where
  | done
  | failed (problem : Problem)
  | brokenOff
deriving DecidableEq, Repr, Inhabited

/-- What a failure says, and below it what the file system said. -/
def causesOf (f : Failure) : List String :=
  match f with
  | .file cause => [f.message, cause.message]
  | f => [f.message]

/-- A result under the name of the step that it belongs to. -/
def within {α : Type} (step : String) : Except Failure α → Except Problem α
  | .ok a => .ok a
  | .error f => .error ⟨step, causesOf f⟩

/-- What a command leaves for its caller. -/
structure Exit where
  code : Nat := 0
  stdout : List String := []
  stderr : List String := []
deriving DecidableEq, Repr, Inhabited

/-- What is printed, as one text. -/
def textOfLines (lines : List String) : String := String.join (lines.map (· ++ "\n"))

/-- The settings in a file. -/
def readSettings (files : FileTree) (path : Path) : Except Failure Settings := do
  let text ← Failure.ofFile (files.readText path)
  (Settings.ofToml text).mapError .settings

/-- What a request changes in the settings. -/
def Request.apply (r : Request) (s : Settings) : Settings :=
  { s with
    project := { s.project with roots := [r.root] }
    convergence := { s.convergence with
      targetCoverage := r.target.getD s.convergence.targetCoverage
      maxIterations := r.maxIterations.getD s.convergence.maxIterations }
    output := { s.output with dir := r.out.getD s.output.dir } }

/-- The settings of a request: the file, then the environment, then the request itself. -/
def settingsOf (r : Request) (env : Settings.Environment) (files : FileTree) :
    Except Problem Settings := do
  let s ← match r.config with
    | none => pure {}
    | some path => within ("Failed to load config " ++ path.text) (readSettings files path)
  let s ← within "Invalid COVFORGE_* environment override"
    ((s.withEnvironment env).mapError .settings)
  let s := r.apply s
  within "Invalid configuration" (s.validate.mapError .settings)
  return s

variable {σ : Type}

/-- Runs the tools of the settings until coverage converges. No one completes prompts. -/
def runProject (m : Machine σ) (runId : String) (now : StateM (World σ) Timestamp) (s : Settings) :
    StateM (World σ) (List String × Ending) := do
  match within "Required toolchain is unavailable" (← probeToolchain m s.toolchain) with
  | .error p => return ([], .failed p)
  | .ok () =>
    let a := Analysis.prepare s (← get).files
    let run : Run σ :=
      { collaborators := { toolCollaborators s.toolchain m with now }
        settings := s, generator := a.generator, context := a.context, runId }
    match ← (run.execution a.initial).run with
    | none => return ([], .brokenOff)
    | some report =>
      return (runReport run.directory report,
        if report.outcome.isFatal then
          .failed ⟨"Convergence run failed: " ++ report.outcome.render, []⟩
        else .done)

/-- Carries out a request whose settings are known. -/
def perform (m : Machine σ) (runId : String) (now : StateM (World σ) Timestamp) (r : Request)
    (s : Settings) : StateM (World σ) (List String × Ending) := do
  let files := (← get).files
  match r.command with
  | .scan => return (scanReport (scanRoots s.project files s.project.roots), .done)
  | .extract =>
    let table := (Analysis.prepare s files).table
    return (if r.asJson then [(tableData table).pretty] else tableReport table, .done)
  | .plan => return (planReport (Analysis.prepare s files).plans, .done)
  | .generate =>
    let written ← World.doFiles (writeArtifacts s.output.dir (Analysis.prepare s files).initial)
    match within ("Failed to write artifacts to " ++ s.output.dir.text)
      (Failure.ofFile written) with
    | .error p => return ([], .failed p)
    | .ok count =>
      return (["Wrote " ++ toString count ++ " test artifacts to " ++ s.output.dir.text], .done)
  | .run => runProject m runId now s

/-- Carries out a command line. -/
def execute (m : Machine σ) (runId : String) (now : StateM (World σ) Timestamp)
    (env : Settings.Environment) (arguments : List String) : StateM (World σ) Exit := do
  match readArguments (Settings.lookup env configVariable) arguments with
  | .error .misuse => return { code := 2 }
  | .error (.help lines) => return { stdout := lines }
  | .error .version => return { stdout := [programName ++ " " ++ programVersion] }
  | .ok r =>
    let (stdout, result) ← match settingsOf r env (← get).files with
      | .error p => pure ([], .failed p)
      | .ok s => perform m runId now r s
    return match result with
      | .done => { stdout }
      | .failed p => { code := 1, stdout, stderr := p.lines }
      | .brokenOff => { code := 101, stdout }

/-- What a command line is carried out on. -/
structure Surroundings where
  files : FileTree
  environment : Settings.Environment := []
  time : Timestamp := default
  runId : String := "run"

/-- Where the project stands. -/
def projectLocation : Location := ["project"]

def Surroundings.ofJson? (j : Json) : Option Surroundings := do
  let files ← FileTree.unpack? projectLocation (← (j.field "files").asRecord?)
  let environment := ((j.field "environment").asRecord?).getD []
  return { files
           environment := ← environment.mapM fun (k, v) => do return (k, ← v.asText?)
           time := ((Timestamp.ofJson? (j.field "time"))).getD default
           runId := ((j.field "run_id").asText?).getD "run" }

/-- The answer to a command line: its exit code, what it printed and the files afterwards. -/
def answer (s : Surroundings) (arguments : List String) : Json :=
  let (exit, world) := (execute (Shell.machine s.environment) s.runId (pure s.time) s.environment
    arguments).run (World.mk s.files ())
  .record [("exit", .nat exit.code), ("stdout", .text (textOfLines exit.stdout)),
    ("stderr", .text (textOfLines exit.stderr)),
    ("files", .record (world.files.pack projectLocation))]

/-- The same on texts; none if the input describes no project. -/
def answerText? (input : String) (arguments : List String) : Option String := do
  let s ← Surroundings.ofJson? (← Json.parseText? input)
  return (answer s arguments).pretty

end TestSynth.CommandLine
