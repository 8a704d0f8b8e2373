import TestSynth.Scenario.Generator
import TestSynth.Text.Masking
/-!
Replacements for tests that did not compile. The ladder has two rungs: zero arguments for the same
scenario, then a minimal call. What no rung can mend is not tried again.
-/
namespace TestSynth

open Text

/-- Compiler messages that tell the target itself is out of reach, in lower case. -/
def unrecoverablePhrases : List String :=
  ["abstract type", "is abstract", "is private within this context",
    "is protected within this context", "use of deleted function"]

def isUnrecoverable (diagnostics : String) : Bool :=
  let lowered := ScenarioKind.lowered diagnostics.toList
  unrecoverablePhrases.any fun p => containsText p.toList lowered

/-- Characters of a summary that are kept. -/
def summaryLimit : Nat := 200

/-- The first line that mentions an error, trimmed and bounded. -/
def diagnosticSummary? (diagnostics : String) : Option String :=
  (((lines diagnostics.toList).map trim).find? fun l =>
    containsText "error".toList (ScenarioKind.lowered l)).map fun l =>
      if l.length ≤ summaryLimit then String.ofList l
      else String.ofList (l.take summaryLimit ++ "...".toList)

namespace Generator

def targetsConstructor (g : Generator) (a : TestArtifact) : TargetRef → Bool
  | .member index => ((g.classNamed? a.className).bind (·.methods[index]?)).any
      (·.flags.isConstructor)
  | .freeFunction _ => false

/-- The next rung for a test: kind, flavour and whether it is the minimal one. -/
def nextRung? (g : Generator) (a : TestArtifact) (r : Recipe) :
    Option (ScenarioKind × Flavour × Bool) :=
  if r.minimal then none
  else if r.flavour != .edgeCase && a.kind != .generated then some (a.kind, .edgeCase, false)
  else if g.targetsConstructor a r.target then some (.basicConstruction, .plain, true)
  else some (.noThrow, .plain, true)

/-- The replacement for a test that failed with the given diagnostics. -/
def regenerate? (g : Generator) (a : TestArtifact) (diagnostics : String) (attempt : Nat) :
    Option TestArtifact := do
  let recipe ← a.recipe
  if isUnrecoverable diagnostics then none
  else
    let (kind, flavour, minimal) ← g.nextRung? a recipe
    let request : Request :=
      { target := recipe.target, kind, flavour, minimal
        id := recipe.originId ++ "_g" ++ toString attempt
        originId := some recipe.originId
        generation := attempt
        parentId := some a.id
        iteration := a.iteration
        notes := ("regenerated (attempt " ++ toString attempt ++ ")") ::
          ((diagnosticSummary? diagnostics).map ("previous error: " ++ ·)).toList }
    match recipe.target with
    | .member index => do g.renderMember? (← g.classNamed? a.className) index none request
    | .freeFunction index => g.renderFunction? index request

end Generator

end TestSynth
