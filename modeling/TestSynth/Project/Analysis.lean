import TestSynth.Convergence.Loop
import TestSynth.Project.Scan
/-!
Everything a run needs to know about a project: its files, what they declare, how instances are
made, and the first set of tests.
-/
namespace TestSynth

structure Analysis where
  units : List SourceUnit
  generator : Generator
  initial : List TestArtifact
  context : RunContext
deriving DecidableEq, Repr, Inhabited

namespace Analysis

def table (a : Analysis) : ModelTable := a.generator.table

def plans (a : Analysis) : Plans := a.generator.plans

/-- Analyses the project that the settings describe. -/
def prepare (s : Settings) (files : FileTree) : Analysis :=
  let units := scanRoots s.project files s.project.roots
  let table := extractAll (.ofSettings s.synthesis) files units
  let generator : Generator :=
    { table
      plans := (Planner.ofSettings table s.synthesis s.primaryRoot).planAll
      catalogue := .ofSettings s.synthesis s.completion
      root := s.primaryRoot }
  { units
    generator
    initial := generator.forTable
    context := ⟨projectSources units, includeDirs units (s.project.roots ++ s.project.includeDirs)⟩ }

end Analysis

/-- Writes tests, each into a directory of its name, without building them. -/
def writeArtifacts (dir : Path) (artifacts : List TestArtifact) : FileAction Nat := do
  artifacts.forM fun a => do
    let _ ← a.write (dir.join ⟨a.id⟩)
  return artifacts.length

end TestSynth
