import TestSynth.Artifact.Basic
import TestSynth.Number.Shortest
/-!
The settings of a run and which of them make sense.
-/
namespace TestSynth

open Number (Binary64)

structure ProjectSettings where
  roots : List Path := [⟨"."⟩]
  includeDirs : List Path := []
  excludeDirs : List String :=
    ["build", "third_party", "external", "vendor", ".git", "output"]
deriving DecidableEq, Repr, Inhabited

structure ToolchainSettings where
  compiler : String := "g++"
  std : String := "c++17"
  extraFlags : List String := []
  libDirs : List Path := []
  libs : List String := ["gtest", "gtest_main", "pthread"]
  gcov : String := "gcov"
  lcov : Option String := none
  compileTimeoutSecs : Nat := 60
  runTimeoutSecs : Nat := 30
  coverageTimeoutSecs : Nat := 60
  /-- Zero leaves the number to the machine. -/
  workers : Nat := 0
deriving DecidableEq, Repr, Inhabited

structure ConvergenceSettings where
  targetCoverage : Binary64 := .ofNat 80
  maxIterations : Nat := 3
  plateauWindow : Nat := 3
  plateauVariance : Binary64 := .ofNat 1
  maxCompileAttempts : Nat := 3
deriving DecidableEq, Repr, Inhabited

structure SynthesisSettings where
  constructorParamCeiling : Nat := 5
  substitutionClasses : List String := []
  maxSubstituteOverrides : Nat := 10
  maxFreeFunctionsPerHeader : Nat := 20
  uncoveredSample : Nat := 20
  /-- No kind named means every kind. -/
  scenarioKinds : List ScenarioKind := []
  includeFreeFunctions : Bool := true
deriving DecidableEq, Repr, Inhabited

structure CompletionSettings where
  enabled : Bool := false
  endpoint : String := "http://localhost:11434"
  model : String := "qwen2.5-coder:1.5b"
  timeoutSecs : Nat := 60
  maxPromptsPerIteration : Nat := 3
deriving DecidableEq, Repr, Inhabited

structure OutputSettings where
  dir : Path := ⟨"output"⟩
  cleanBeforeRun : Bool := true
deriving DecidableEq, Repr, Inhabited

structure Settings where
  project : ProjectSettings := {}
  toolchain : ToolchainSettings := {}
  convergence : ConvergenceSettings := {}
  synthesis : SynthesisSettings := {}
  completion : CompletionSettings := {}
  output : OutputSettings := {}
deriving DecidableEq, Repr, Inhabited

/-- Why settings cannot be used. -/
inductive SettingsError where
  | unreadable (detail : String)
  | badTarget (text : String)
  | badIterations (text : String)
  | targetOutOfRange (target : Binary64)
  | noIterations
  | windowTooShort
  | negativeVariance
  | noAttempts
  | noRoots
deriving DecidableEq, Repr, Inhabited

def SettingsError.message : SettingsError → String
  | .unreadable detail => detail
  | .badTarget text => "COVFORGE_TARGET: " ++ text
  | .badIterations text => "COVFORGE_MAX_ITERATIONS: " ++ text
  | .targetOutOfRange target =>
    "target_coverage must be within 0..=100, got " ++ target.messageText
  | .noIterations => "max_iterations must be at least 1"
  | .windowTooShort => "plateau_window must be at least 2"
  | .negativeVariance => "plateau_variance must not be negative"
  | .noAttempts => "max_compile_attempts must be at least 1"
  | .noRoots => "no project roots"

namespace Settings

/-- The variables of the environment that change settings. -/
abbrev Environment := List (String × String)

def lookup (env : Environment) (key : String) : Option String :=
  (env.find? (·.1 == key)).map (·.2)

/-- Applies the environment. Of two bad values the target is reported. -/
def withEnvironment (s : Settings) (env : Environment) : Except SettingsError Settings := do
  let target ← match lookup env "COVFORGE_TARGET" with
    | none => pure s.convergence.targetCoverage
    | some v => match Binary64.parse? v.toList with
      | some x => pure x
      | none => throw (.badTarget v)
  let iterations ← match lookup env "COVFORGE_MAX_ITERATIONS" with
    | none => pure s.convergence.maxIterations
    | some v => match Number.parseWord32? v.toList with
      | some n => pure n
      | none => throw (.badIterations v)
  let endpoint := lookup env "COVFORGE_LLM_ENDPOINT"
  return { s with
    convergence := { s.convergence with targetCoverage := target, maxIterations := iterations }
    output := { s.output with
      dir := ((lookup env "COVFORGE_OUTPUT_DIR").map Path.mk).getD s.output.dir }
    completion := { s.completion with
      endpoint := endpoint.getD s.completion.endpoint
      enabled := s.completion.enabled || endpoint.isSome
      model := (lookup env "COVFORGE_LLM_MODEL").getD s.completion.model } }

/-- The first reason not to run with these settings. -/
def validate (s : Settings) : Except SettingsError Unit :=
  let c := s.convergence
  if !(Binary64.zero.le c.targetCoverage && c.targetCoverage.le (.ofNat 100)) then
    .error (.targetOutOfRange c.targetCoverage)
  else if c.maxIterations == 0 then .error .noIterations
  else if c.plateauWindow < 2 then .error .windowTooShort
  else if c.plateauVariance.lt .zero then .error .negativeVariance
  else if c.maxCompileAttempts == 0 then .error .noAttempts
  else if s.project.roots.isEmpty then .error .noRoots
  else .ok ()

/-- The root that include paths are relative to. -/
def primaryRoot (s : Settings) : Path := s.project.roots.headD ⟨"."⟩

end Settings

end TestSynth
