import TestSynth.Coverage.Snapshot
import TestSynth.OrderedMap
import TestSynth.Scenario.Generator
import TestSynth.Text.Classes
/-!
What a sample of lines that never ran suggests trying next, and variants aimed at what a measurement
left uncovered.
-/
namespace TestSynth

open Artifact (safeName)

inductive Gap where
  | branch
  | path
  | boundary
  | edgeCase
  | completion
deriving DecidableEq, Repr, Inhabited

namespace Gap

open Text

def name : Gap → String
  | .branch => "branch"
  | .path => "path"
  | .boundary => "boundary"
  | .edgeCase => "edge_case"
  | .completion => "completion"

def all : List Gap := [.branch, .path, .boundary, .edgeCase, .completion]

def branchWords : List String :=
  ["if", "else", "switch", "case", "default", "try", "catch", "for", "while", "do"]

/-- A branching word that stands alone, or a conditional expression. -/
def isBranch (code : List Char) : Bool :=
  (fields (!isWordAnywhere ·) code).any (fun w => branchWords.contains (String.ofList w)) ||
    code.contains '?'

def comparisons : List (List Char) :=
  ["<=", ">=", "==", "!=", "<", ">"].map String.toList

/-- A comparison between blanks. -/
def hasComparison : List Char → Bool
  | [] => false
  | c :: cs =>
    (isBlank c && comparisons.any fun op =>
      op.isPrefixOf cs && (cs.drop op.length).head?.any isBlank) || hasComparison cs

/-- More uncovered branches in one file than this call for whole paths. -/
def pathThreshold : Nat := 3

def branchesPerFile (sample : List UncoveredLine) : OrderedMap String Nat :=
  (sample.filter (isBranch ·.code.toList)).foldl (fun m l => m.alter l.file (·.getD 0 + 1)) .empty

/-- The gaps a sample shows, in their fixed order. Edge cases are always worth a try; completion
is for the caller to add. -/
def ofSample (sample : List UncoveredLine) : List Gap :=
  all.filter fun
    | .branch => sample.any (isBranch ·.code.toList)
    | .path => (branchesPerFile sample).values.any (pathThreshold < ·)
    | .boundary => sample.any (hasComparison ·.code.toList)
    | .edgeCase => true
    | .completion => false

end Gap

/-- The tests of one round, the gaps they aim at and the classes they concentrate on. -/
structure Refinement where
  artifacts : List TestArtifact
  gaps : List Gap
  focus : List String
deriving DecidableEq, Repr, Inhabited

/-- Stems of the files in the sample. -/
def uncoveredStems (s : Snapshot) : List String :=
  s.uncoveredLines.filterMap fun l =>
    (Path.fileName? ⟨l.file⟩).map fun name => (Path.cutExtension name).1

/-- The scenarios and flavours that the gaps call for. -/
def gapVariants (gaps : List Gap) : List (ScenarioKind × Flavour) :=
  [(.edgeCases, .edgeCase)] ++
    (if gaps.contains .boundary then [(.boundaryCheck, .boundary)] else []) ++
    (if gaps.contains .branch || gaps.contains .path then [(.multipleInvocations, .boundary)]
      else [])

namespace Generator

/-- The classes whose header shares its stem with an uncovered file, or all of them when none
does. -/
def focusClasses (g : Generator) (s : Snapshot) : List ClassModel :=
  let stems := uncoveredStems s
  let matched := g.table.models.filter fun c => stems.contains c.header.stem
  if matched.isEmpty then g.table.models else matched

def variants (g : Generator) (gaps : List Gap) : List (ScenarioKind × Flavour) :=
  (gapVariants gaps).filter fun v => g.catalogue.enables v.1

/-- The variants of one class: its methods that take arguments. -/
def refineClass (g : Generator) (wanted : List (ScenarioKind × Flavour)) (iteration : Nat)
    (c : ClassModel) : List TestArtifact :=
  match g.planOf? c with
  | none => []
  | some plan => c.methods.zipIdx.flatMap fun (m, index) =>
    if m.parameters.isEmpty || !g.memberEligible c m plan then []
    else wanted.filterMap fun (kind, flavour) =>
      g.renderMember? c index (some plan)
        { target := .member index, kind, flavour, iteration
          id := memberId c m kind ++ "_i" ++ toString iteration
          notes := ["refinement round " ++ toString iteration] }

/-- The variants of the functions outside classes, in files of the sample if it names any. -/
def refineFunctions (g : Generator) (wanted : List (ScenarioKind × Flavour)) (stems : List String)
    (iteration : Nat) : List TestArtifact :=
  g.table.functions.zipIdx.flatMap fun (f, index) =>
    if !(stems.isEmpty || stems.contains f.header.stem) || f.signature.parameters.isEmpty ||
        f.signature.flags.isVariadic then []
    else wanted.filterMap fun (kind, flavour) =>
      g.renderFunction? index
        { target := .freeFunction index, kind, flavour, iteration
          id := safeName (f.qualifiedName ++ "_" ++ kind.name ++ "_i" ++ toString iteration) }

/-- The tests of a refinement round. -/
def refine (g : Generator) (s : Snapshot) (iteration : Nat) : Refinement :=
  let gaps := Gap.ofSample s.uncoveredLines
  let wanted := g.variants gaps
  let focus := g.focusClasses s
  { artifacts := assignIds [] (focus.flatMap (g.refineClass wanted iteration) ++
      if g.catalogue.includeFreeFunctions then
        g.refineFunctions wanted (uncoveredStems s) iteration
      else [])
    gaps
    focus := focus.map (·.qualifiedName) }

end Generator

end TestSynth
