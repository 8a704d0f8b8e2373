import TestSynth.Model.Basic
import TestSynth.Synthesis.Arguments
import TestSynth.Text.Classes
/-!
Generated tests: what kind of scenario one plays, what it is made from and what it exercises. Any
label becomes a safe name, an identifier that is also a single file name.
-/
namespace TestSynth

namespace Artifact

/-- Turns each run of other characters into one underscore; `pending` says that the text so far
ends in one. -/
def collapse : Bool → List Char → List Char
  | _, [] => []
  | pending, c :: cs =>
    if c.isAlphanum then c :: collapse false cs
    else if pending then collapse true cs
    else '_' :: collapse true cs

/-- Letters and digits of the label with single underscores between its runs of them. A digit in
front gets a letter before it, and a label without any is anonymous. -/
def safeIdentifier (label : List Char) : List Char :=
  let core := Text.dropEndWhile (· == '_') ((collapse false label).dropWhile (· == '_'))
  match core with
  | [] => "anon".toList
  | c :: _ => if c.isDigit then 't' :: '_' :: core else core

def safeName (label : String) : String := String.ofList (safeIdentifier label.toList)

end Artifact

inductive ScenarioKind where
  | basicUsage
  | multipleInvocations
  | edgeCases
  | boundaryCheck
  | consistency
  | noThrow
  | basicConstruction
  | multipleInstances
  | stackAllocation
  | returnValue
  | consistentResults
  | generated
deriving DecidableEq, Repr, Inhabited

namespace ScenarioKind

/-- The suffix a kind adds to test names. -/
def name : ScenarioKind → String
  | .basicUsage => "BasicUsage"
  | .multipleInvocations => "MultipleInvocations"
  | .edgeCases => "EdgeCases"
  | .boundaryCheck => "BoundaryCheck"
  | .consistency => "Consistency"
  | .noThrow => "NoThrow"
  | .basicConstruction => "BasicConstruction"
  | .multipleInstances => "MultipleInstances"
  | .stackAllocation => "StackAllocation"
  | .returnValue => "ReturnValue"
  | .consistentResults => "ConsistentResults"
  | .generated => "Generated"

/-- The spelling of a kind in settings and data files. -/
def key : ScenarioKind → String
  | .basicUsage => "basic_usage"
  | .multipleInvocations => "multiple_invocations"
  | .edgeCases => "edge_cases"
  | .boundaryCheck => "boundary_check"
  | .consistency => "consistency"
  | .noThrow => "no_throw"
  | .basicConstruction => "basic_construction"
  | .multipleInstances => "multiple_instances"
  | .stackAllocation => "stack_allocation"
  | .returnValue => "return_value"
  | .consistentResults => "consistent_results"
  | .generated => "generated"

def all : List ScenarioKind :=
  [.basicUsage, .multipleInvocations, .edgeCases, .boundaryCheck, .consistency, .noThrow,
    .basicConstruction, .multipleInstances, .stackAllocation, .returnValue, .consistentResults,
    .generated]

def ofKey? (text : String) : Option ScenarioKind := all.find? (·.key == text)

def lowered (cs : List Char) : List Char := cs.map Char.toLower

/-- Reads a kind as people write it, in any case and with or without separators. -/
def parse? (text : String) : Option ScenarioKind :=
  let wanted := lowered (text.toList.filter fun c => c != '_' && c != '-')
  all.find? fun kind => lowered kind.name.toList == wanted

end ScenarioKind

/-- The declaration a test exercises, by its place in the class or in the table. -/
inductive TargetRef where
  | member (index : Nat)
  | freeFunction (index : Nat)
deriving DecidableEq, Repr, Inhabited

/-- What a test was made from. -/
structure Recipe where
  target : TargetRef
  flavour : Flavour
  minimal : Bool := false
  originId : String
deriving DecidableEq, Repr, Inhabited

/-- One generated test. A test is never edited: a replacement names the one it replaces. -/
structure TestArtifact where
  id : String
  className : String
  methodName : String
  kind : ScenarioKind
  sourceText : String
  filePath : Path
  generation : Nat := 0
  parentId : Option String := none
  iteration : Nat := 0
  supportFiles : List (String × String) := []
  recipe : Option Recipe := none
deriving DecidableEq, Repr, Inhabited

def TestArtifact.target (a : TestArtifact) : String :=
  if a.className.isEmpty then a.methodName else a.className ++ "::" ++ a.methodName

/-- The file of a test. -/
def sourceFile (id : String) : Path := ⟨id ++ ".cpp"⟩

end TestSynth
