import TestSynth.Json.Decode
import TestSynth.Settings.Basic
/-!
Settings as structured data. Every field may be missing, and then has its default.
-/
namespace TestSynth

open Json (asText? asBool? asNat? asNat32? asFloat? asPath? listOf?)

def ScenarioKind.toJson (kind : ScenarioKind) : Json := .text kind.key

def ScenarioKind.ofJson? (d : Json.Dialect) (j : Json) : Option ScenarioKind :=
  (j.constantIn? d).bind ScenarioKind.ofKey?

def pathsJson (paths : List Path) : Json := .texts (paths.map (·.text))

namespace ProjectSettings

def toJson (s : ProjectSettings) : Json :=
  .record [("roots", pathsJson s.roots), ("include_dirs", pathsJson s.includeDirs),
    ("exclude_dirs", .texts s.excludeDirs)]

def ofJson? (dialect : Json.Dialect) (j : Json) : Option ProjectSettings := do
  let fs ← j.fieldsIn? dialect ["roots", "include_dirs", "exclude_dirs"]
  let d : ProjectSettings := {}
  return { roots := ← fs.withDefault "roots" d.roots (listOf? asPath?)
           includeDirs := ← fs.withDefault "include_dirs" d.includeDirs (listOf? asPath?)
           excludeDirs := ← fs.withDefault "exclude_dirs" d.excludeDirs (listOf? asText?) }

end ProjectSettings

namespace ToolchainSettings

def toJson (s : ToolchainSettings) : Json :=
  .record [("compiler", .text s.compiler), ("std", .text s.std),
    ("extra_flags", .texts s.extraFlags), ("lib_dirs", pathsJson s.libDirs),
    ("libs", .texts s.libs), ("gcov", .text s.gcov), ("lcov", Json.optional .text s.lcov),
    ("compile_timeout_secs", .nat s.compileTimeoutSecs),
    ("run_timeout_secs", .nat s.runTimeoutSecs),
    ("coverage_timeout_secs", .nat s.coverageTimeoutSecs), ("workers", .nat s.workers)]

def ofJson? (dialect : Json.Dialect) (j : Json) : Option ToolchainSettings := do
  let fs ← j.fieldsIn? dialect ["compiler", "std", "extra_flags", "lib_dirs", "libs", "gcov", "lcov",
    "compile_timeout_secs", "run_timeout_secs", "coverage_timeout_secs", "workers"]
  let d : ToolchainSettings := {}
  return { compiler := ← fs.withDefault "compiler" d.compiler asText?
           std := ← fs.withDefault "std" d.std asText?
           extraFlags := ← fs.withDefault "extra_flags" d.extraFlags (listOf? asText?)
           libDirs := ← fs.withDefault "lib_dirs" d.libDirs (listOf? asPath?)
           libs := ← fs.withDefault "libs" d.libs (listOf? asText?)
           gcov := ← fs.withDefault "gcov" d.gcov asText?
           lcov := ← fs.optional "lcov" asText?
           compileTimeoutSecs :=
             ← fs.withDefault "compile_timeout_secs" d.compileTimeoutSecs asNat?
           runTimeoutSecs := ← fs.withDefault "run_timeout_secs" d.runTimeoutSecs asNat?
           coverageTimeoutSecs :=
             ← fs.withDefault "coverage_timeout_secs" d.coverageTimeoutSecs asNat?
           workers := ← fs.withDefault "workers" d.workers asNat? }

end ToolchainSettings

namespace ConvergenceSettings

def toJson (s : ConvergenceSettings) : Json :=
  .record [("target_coverage", .float s.targetCoverage), ("max_iterations", .nat s.maxIterations),
    ("plateau_window", .nat s.plateauWindow), ("plateau_variance", .float s.plateauVariance),
    ("max_compile_attempts", .nat s.maxCompileAttempts)]

def ofJson? (dialect : Json.Dialect) (j : Json) : Option ConvergenceSettings := do
  let fs ← j.fieldsIn? dialect ["target_coverage", "max_iterations", "plateau_window", "plateau_variance",
    "max_compile_attempts"]
  let d : ConvergenceSettings := {}
  return { targetCoverage := ← fs.withDefault "target_coverage" d.targetCoverage asFloat?
           maxIterations := ← fs.withDefault "max_iterations" d.maxIterations asNat32?
           plateauWindow := ← fs.withDefault "plateau_window" d.plateauWindow asNat?
           plateauVariance := ← fs.withDefault "plateau_variance" d.plateauVariance asFloat?
           maxCompileAttempts :=
             ← fs.withDefault "max_compile_attempts" d.maxCompileAttempts asNat32? }

end ConvergenceSettings

namespace SynthesisSettings

def toJson (s : SynthesisSettings) : Json :=
  .record [("constructor_param_ceiling", .nat s.constructorParamCeiling),
    ("substitution_classes", .texts s.substitutionClasses),
    ("max_substitute_overrides", .nat s.maxSubstituteOverrides),
    ("max_free_functions_per_header", .nat s.maxFreeFunctionsPerHeader),
    ("uncovered_sample", .nat s.uncoveredSample),
    ("scenario_kinds", .list (s.scenarioKinds.map ScenarioKind.toJson)),
    ("include_free_functions", .bool s.includeFreeFunctions)]

def ofJson? (dialect : Json.Dialect) (j : Json) : Option SynthesisSettings := do
  let fs ← j.fieldsIn? dialect ["constructor_param_ceiling", "substitution_classes",
    "max_substitute_overrides", "max_free_functions_per_header", "uncovered_sample",
    "scenario_kinds", "include_free_functions"]
  let d : SynthesisSettings := {}
  return { constructorParamCeiling :=
             ← fs.withDefault "constructor_param_ceiling" d.constructorParamCeiling asNat?
           substitutionClasses :=
             ← fs.withDefault "substitution_classes" d.substitutionClasses (listOf? asText?)
           maxSubstituteOverrides :=
             ← fs.withDefault "max_substitute_overrides" d.maxSubstituteOverrides asNat?
           maxFreeFunctionsPerHeader :=
             ← fs.withDefault "max_free_functions_per_header" d.maxFreeFunctionsPerHeader asNat?
           uncoveredSample := ← fs.withDefault "uncovered_sample" d.uncoveredSample asNat?
           scenarioKinds :=
             ← fs.withDefault "scenario_kinds" d.scenarioKinds 
               (listOf? (ScenarioKind.ofJson? dialect))
           includeFreeFunctions :=
             ← fs.withDefault "include_free_functions" d.includeFreeFunctions asBool? }

end SynthesisSettings

namespace CompletionSettings

def toJson (s : CompletionSettings) : Json :=
  .record [("enabled", .bool s.enabled), ("endpoint", .text s.endpoint), ("model", .text s.model),
    ("timeout_secs", .nat s.timeoutSecs),
    ("max_prompts_per_iteration", .nat s.maxPromptsPerIteration)]

def ofJson? (dialect : Json.Dialect) (j : Json) : Option CompletionSettings := do
  let fs ← j.fieldsIn? dialect ["enabled", "endpoint", "model", "timeout_secs", "max_prompts_per_iteration"]
  let d : CompletionSettings := {}
  return { enabled := ← fs.withDefault "enabled" d.enabled asBool?
           endpoint := ← fs.withDefault "endpoint" d.endpoint asText?
           model := ← fs.withDefault "model" d.model asText?
           timeoutSecs := ← fs.withDefault "timeout_secs" d.timeoutSecs asNat?
           maxPromptsPerIteration :=
             ← fs.withDefault "max_prompts_per_iteration" d.maxPromptsPerIteration asNat? }

end CompletionSettings

namespace OutputSettings

def toJson (s : OutputSettings) : Json :=
  .record [("dir", .text s.dir.text), ("clean_before_run", .bool s.cleanBeforeRun)]

def ofJson? (dialect : Json.Dialect) (j : Json) : Option OutputSettings := do
  let fs ← j.fieldsIn? dialect ["dir", "clean_before_run"]
  let d : OutputSettings := {}
  return { dir := ← fs.withDefault "dir" d.dir asPath?
           cleanBeforeRun := ← fs.withDefault "clean_before_run" d.cleanBeforeRun asBool? }

end OutputSettings

namespace Settings

def toJson (s : Settings) : Json :=
  .record [("project", s.project.toJson), ("toolchain", s.toolchain.toJson),
    ("convergence", s.convergence.toJson), ("synthesis", s.synthesis.toJson),
    ("completion", s.completion.toJson), ("output", s.output.toJson)]

def ofJson? (dialect : Json.Dialect) (j : Json) : Option Settings := do
  let fs ← j.fieldsIn? dialect ["project", "toolchain", "convergence", "synthesis", "completion", "output"]
  return { project := ← fs.withDefault "project" {} (ProjectSettings.ofJson? dialect)
           toolchain := ← fs.withDefault "toolchain" {} (ToolchainSettings.ofJson? dialect)
           convergence := ← fs.withDefault "convergence" {} (ConvergenceSettings.ofJson? dialect)
           synthesis := ← fs.withDefault "synthesis" {} (SynthesisSettings.ofJson? dialect)
           completion := ← fs.withDefault "completion" {} (CompletionSettings.ofJson? dialect)
           output := ← fs.withDefault "output" {} (OutputSettings.ofJson? dialect) }

end Settings

end TestSynth
