import TestSynth.Completion.Target
import TestSynth.Convergence.Repair
import TestSynth.Convergence.RunDirectory
import TestSynth.Coverage.Aggregate
/-!
The loop of a run: compile and run the tests, merge their coverage into one snapshot, stop or aim
further tests at what is left uncovered. A run breaks off, without a report, when a counter of a
snapshot does not fit into a word.
-/
namespace TestSynth

/-- What the tests of a run are linked with. -/
structure RunContext where
  projectSources : List Path := []
  includePaths : List Path := []
deriving DecidableEq, Repr, Inhabited

/-- What happens in a world and may break off. -/
abbrev RunM (σ : Type) := OptionT (StateM (World σ))

structure Run (σ : Type) where
  collaborators : Collaborators σ
  settings : Settings
  generator : Generator
  context : RunContext
  runId : String

/-- The result of measuring a set of tests. -/
structure Measurement where
  snapshot : Snapshot
  survivors : List TestArtifact
  compiled : Nat
  abandoned : Nat
  regenerated : Nat
deriving DecidableEq, Repr, Inhabited

/-- The tests and stand-ins themselves are not the project's code. -/
def coverageOf (sample : Nat) (compiled : List CompiledTest) : Coverage.Aggregation :=
  .excluding ("/iter-" :: compiled.flatMap fun c =>
    c.artifact.filePath.text :: c.artifact.supportFiles.map (·.1)) sample

/-- The tests whose names are not known, each name once. -/
def dropKnown (known : List String) : List TestArtifact → List TestArtifact
  | [] => []
  | a :: rest =>
    if known.contains a.id then dropKnown known rest else a :: dropKnown (a.id :: known) rest

/-- What carries over from one iteration to the next. -/
structure Round where
  tests : List TestArtifact
  /-- How many of the tests are new. -/
  generated : Nat
  strategies : NameSet := {}
deriving DecidableEq, Repr, Inhabited

/-- The round that a run begins with. -/
def Round.initial (tests : List TestArtifact) : Round := { tests, generated := tests.length }

namespace Run

variable {σ : Type}

def directory (r : Run σ) : RunDirectory := ⟨r.settings.output.dir⟩

def policy (r : Run σ) : StopPolicy := .ofSettings r.settings.convergence

def buildContext (r : Run σ) (iteration : Nat) : BuildContext :=
  { iterationDir := r.directory.iterationDir iteration
    projectSources := r.context.projectSources
    includePaths := r.context.includePaths
    workers := max 1 r.settings.toolchain.workers }

/-- Runs a test and collects its coverage. A test that fails or cannot be run has coverage all the
same. -/
def execute (r : Run σ) (c : CompiledTest) : StateM (World σ) (Option Coverage.RawReport) := do
  let _ ← r.collaborators.run c.binary
  match ← r.collaborators.collect c.buildDir with
  | .ok report => return some report
  | .error _ => return none

/-- Compiles tests and runs those that compiled; gives the round they make and what was collected. -/
def gather (r : Run σ) (iteration : Nat) (tests : List TestArtifact) :
    StateM (World σ) (BuildRound × List Coverage.RawReport) := do
  let context := r.buildContext iteration
  let round ← compileWithRepair r.collaborators r.generator context
    r.settings.convergence.maxCompileAttempts tests
  let collected ← r.collaborators.inParallel context.workers r.execute round.compiled
  return (round, collected.filterMap (·.2))

/-- The snapshot of what compiled tests cover; none if a counter does not fit into a word. -/
def snapshot? (r : Run σ) (compiled : List CompiledTest) (reports : List Coverage.RawReport) :
    Option Snapshot :=
  if compiled.isEmpty then some {}
  else (coverageOf r.settings.synthesis.uncoveredSample compiled).merge? reports

def writeSnapshot (r : Run σ) (iteration : Nat) (s : Snapshot) :
    StateM (World σ) (Except FileError Path) :=
  World.doFiles (RunDirectory.writeSnapshot (r.directory.iterationDir iteration) s)

/-- Compiles and runs tests and writes the snapshot of what they cover. -/
def measure (r : Run σ) (iteration : Nat) (tests : List TestArtifact) : RunM σ Measurement := do
  let (round, reports) ← r.gather iteration tests
  let snapshot ← OptionT.mk (pure (r.snapshot? round.compiled reports))
  let _ ← r.writeSnapshot iteration snapshot
  return { snapshot
           survivors := round.compiled.map (·.artifact)
           compiled := round.compiled.length
           abandoned := round.abandoned.length
           regenerated := round.regenerated }

/-- Asks for the bodies of targets. The first refusal ends the asking. -/
def askFor (ask : String → StateM (World σ) (Except Failure String))
    (uncovered : List UncoveredLine) (iteration : Nat) :
    List CompletionTarget → StateM (World σ) (List TestArtifact)
  | [] => pure []
  | target :: rest => do
    match ← ask (target.prompt uncovered) with
    | .error _ => return []
    | .ok reply =>
      let found := (testBody? reply).bind (target.artifact? · iteration)
      return found.toList ++ (← askFor ask uncovered iteration rest)

/-- Tests from the completion collaborator, if there is one and it is wanted. -/
def complete (r : Run σ) (s : Snapshot) (iteration : Nat) :
    StateM (World σ) (List TestArtifact) :=
  match r.collaborators.complete? with
  | none => pure []
  | some ask =>
    if r.generator.catalogue.useCompletion then
      askFor ask s.uncoveredLines iteration
        (r.generator.completionTargets s r.settings.completion.maxPromptsPerIteration)
    else pure []

/-- The round after a measurement: the tests that compiled, and new ones aimed at its gaps. -/
def nextRound (r : Run σ) (iteration : Nat) (m : Measurement) : StateM (World σ) Round := do
  let refinement := r.generator.refine m.snapshot iteration
  let completed ← r.complete m.snapshot iteration
  let gaps := refinement.gaps ++ if completed.isEmpty then [] else [.completion]
  let fresh := dropKnown (m.survivors.map (·.id)) (refinement.artifacts ++ completed)
  return { tests := m.survivors ++ fresh
           generated := fresh.length
           strategies := .ofList (gaps.map Gap.name) }

def record (r : Run σ) (iteration : Nat) (round : Round) (m : Measurement) :
    StateM (World σ) IterationRecord := do
  return { iteration
           snapshot := m.snapshot
           generated := round.generated + m.regenerated
           strategies := round.strategies
           compiled := m.compiled
           abandoned := m.abandoned
           recordedAt := ← r.collaborators.now }

/-- The outcome after a measurement, which is in the records already. -/
def decision (r : Run σ) (iteration : Nat) (m : Measurement) (records : List IterationRecord) :
    Option Outcome :=
  if m.compiled = 0 then
    some (.fatal ("no artifact compiled in iteration " ++ toString iteration))
  else r.policy.evaluate (percentages records) iteration

/-- Measures the tests of a round and makes the record of it. -/
def observe (r : Run σ) (iteration : Nat) (round : Round) :
    RunM σ (Measurement × IterationRecord) := do
  let m ← r.measure iteration round.tests
  return (m, ← r.record iteration round m)

/-- A round that is not the last leaves some of the budget. -/
theorem lt_of_decision_none {r : Run σ} {iteration : Nat} {m : Measurement}
    {earlier : List IterationRecord} {record : IterationRecord}
    (h : r.decision iteration m (earlier ++ [record]) = none) :
    iteration < r.settings.convergence.maxIterations := by
  unfold decision at h
  split at h
  · cases h
  · exact StopPolicy.lt_of_evaluate_none (by simp [percentages]) h

/-- Runs rounds from the given iteration on, with the records of those before; gives the outcome and
all records. -/
def iterate (r : Run σ) (iteration : Nat) (round : Round) (earlier : List IterationRecord) :
    RunM σ (Outcome × List IterationRecord) := do
  let (m, record) ← r.observe iteration round
  match _h : r.decision iteration m (earlier ++ [record]) with
  | some outcome => return (outcome, earlier ++ [record])
  | none => do
    let next ← r.nextRound (iteration + 1) m
    r.iterate (iteration + 1) next (earlier ++ [record])
termination_by r.settings.convergence.maxIterations - iteration
decreasing_by
  have := lt_of_decision_none _h
  omega

/-- Prepares the directory of the run. -/
def prepare (r : Run σ) : StateM (World σ) (Except FileError Unit) :=
  World.doFiles (r.directory.prepare r.settings.output.cleanBeforeRun)

/-- Prepares the directory and runs rounds from the initial tests on. -/
def drive (r : Run σ) (initial : List TestArtifact) : RunM σ (Outcome × List IterationRecord) := do
  match ← r.prepare with
  | .error e =>
    return (.fatal ("cannot prepare output directory: " ++ (Failure.file e).message), [])
  | .ok () =>
    if initial.isEmpty then return (.fatal "nothing to measure", [])
    else r.iterate 1 (.initial initial) []

def writeReport (r : Run σ) (report : RunReport) : StateM (World σ) Unit := do
  let _ ← World.doFiles (r.directory.writeHistory report)
  let _ ← World.doFiles (r.directory.writeSummary report)

/-- The whole run. Its report is written out as far as the files allow. -/
def execution (r : Run σ) (initial : List TestArtifact) : RunM σ RunReport := do
  let startedAt ← r.collaborators.now
  let (outcome, records) ← r.drive initial
  let report : RunReport :=
    { runId := r.runId, outcome, records, startedAt, finishedAt := ← r.collaborators.now }
  r.writeReport report
  return report

end Run

end TestSynth
