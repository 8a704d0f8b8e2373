import TestSynth.Declaration.Signature
import TestSynth.Scenario.Refinement
/-!
Methods offered to the completion collaborator, the prompt for one, and the test made from a reply.
-/
namespace TestSynth

open Artifact (includeBlock safeName lineBlock)
open Text (trim trimEnd cutAt containsText)

/-- A method worth a prompt, with the header that declares it as tests include it. -/
structure CompletionTarget where
  model : ClassModel
  methodIndex : Nat
  header : String
deriving DecidableEq, Repr, Inhabited

namespace CompletionTarget

def method? (t : CompletionTarget) : Option Method := t.model.methods[t.methodIndex]?

def label (t : CompletionTarget) : String :=
  match t.method? with
  | some m => t.model.qualifiedName ++ "::" ++ m.name
  | none => t.model.qualifiedName

/-- Asks for one test that reaches the uncovered lines. -/
def prompt (t : CompletionTarget) (uncovered : List UncoveredLine) : String :=
  let methods := t.model.publicMethods.map Method.signature
  lineBlock <|
    ["Write one GoogleTest test case in C++.",
      "The class " ++ t.model.qualifiedName ++ " is declared in \"" ++ t.header ++ "\"."] ++
    (t.method?.map fun m => "Exercise this method: " ++ m.signature).toList ++
    (if methods.isEmpty then []
      else "Public methods:" :: methods.map fun s => "  " ++ s ++ ";") ++
    (if uncovered.isEmpty then []
      else "These lines are not yet executed by any test:" :: uncovered.map fun l =>
        "  " ++ l.file ++ ":" ++ toString l.line ++ ": " ++ l.code) ++
    ["Reply with only the code: a single TEST(...) " ++ Artifact.leftBrace ++ " ... " ++
      Artifact.rightBrace ++ " block, no main()."]

end CompletionTarget

/-- Three of the marks that fence code in a reply. -/
def fence : List Char := List.replicate 3 Text.codeMark

/-- The inside of the first fence, which starts on the line after it; without a fence, all. -/
def unfenced (reply : List Char) : List Char :=
  match cutAt fence reply with
  | none => reply
  | some (_, after) =>
    let inner := (after.dropWhile (· != '\n')).drop 1
    match cutAt fence inner with
    | some (body, _) => body
    | none => inner

/-- The test in a reply, if it looks like one. -/
def testBody? (reply : String) : Option String :=
  let body := trim (unfenced reply.toList)
  if containsText "TEST".toList body && body.contains '{' then some (String.ofList body) else none

namespace Generator

/-- Up to `limit` methods worth a prompt. -/
def completionTargets (g : Generator) (s : Snapshot) (limit : Nat) : List CompletionTarget :=
  ((g.focusClasses s).flatMap fun c => match g.planOf? c with
    | none => []
    | some plan => c.methods.zipIdx.filterMap fun (m, index) =>
      if g.memberEligible c m plan then some ⟨c, index, c.header.includePath g.root⟩
      else none).take limit

end Generator

/-- The test of a completed body. A body without includes gets the usual ones. -/
def CompletionTarget.artifact? (t : CompletionTarget) (body : String) (iteration : Nat) :
    Option TestArtifact :=
  t.method?.map fun m =>
    let id := safeName
      (t.model.qualifiedName ++ "_" ++ m.name ++ "_" ++ ScenarioKind.generated.name ++ "_i" ++
        toString iteration)
    let hasIncludes := containsText "#include".toList body.toList
    { id
      className := t.model.qualifiedName
      methodName := m.name
      kind := .generated
      sourceText :=
        if hasIncludes then String.ofList (trimEnd body.toList) ++ "\n"
        else "// covforge: " ++ t.label ++ " completion\n\n" ++ includeBlock t.header [] ++ "\n" ++
          Text.trimString body ++ "\n"
      filePath := sourceFile id
      iteration
      recipe := some ⟨.member t.methodIndex, .plain, false, id⟩ }

end TestSynth
