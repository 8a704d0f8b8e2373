import TestSynth.Files.Tree
import TestSynth.Settings.Basic
/-!
What can go wrong in a run, as causes, and the text shown for each.
-/
namespace TestSynth

inductive Failure where
  | unreadable (path : Path) (cause : FileError)
  | unbalancedBraces (path : Path) (className : String)
  | missingRoot (path : Path)
  | unavailable (name detail : String)
  | completion (detail : String)
  | settings (cause : SettingsError)
  | harness (detail : String)
  | digestMismatch (expected actual : String)
  | malformedData
  | file (cause : FileError)
deriving DecidableEq, Repr, Inhabited

def Failure.message : Failure → String
  | .unreadable path cause =>
    "extraction error: cannot read " ++ path.text ++ ": " ++ cause.message
  | .unbalancedBraces path className =>
    "extraction error: unbalanced braces in " ++ path.text ++ " near class " ++ className
  | .missingRoot path => "extraction error: scan root does not exist: " ++ path.text
  | .unavailable name detail => "collaborator unavailable: " ++ name ++ " (" ++ detail ++ ")"
  | .completion detail => "completion error: " ++ detail
  | .settings cause => "invalid configuration: " ++ cause.message
  | .harness detail => "build harness error: " ++ detail
  | .digestMismatch expected actual =>
    "digest mismatch: expected " ++ expected ++ ", got " ++ actual
  | .malformedData => "serialization error: malformed data"
  | .file cause => "io error: " ++ cause.message

/-- The outcome of a file operation as that of a run. -/
def Failure.ofFile {α : Type} (result : Except FileError α) : Except Failure α :=
  result.mapError .file

end TestSynth
