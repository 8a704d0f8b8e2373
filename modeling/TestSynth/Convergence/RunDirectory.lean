import TestSynth.Artifact.Basic
import TestSynth.Convergence.History
import TestSynth.Failure
import TestSynth.Files.Digest
import TestSynth.Files.Tree
import TestSynth.Json.Parser
import TestSynth.Json.Printer
/-!
The directory of a run: one directory an iteration, one below it for each test, and the files that
tell the whole run. The history stands beside its digest, and is read only when the two agree.
-/
namespace TestSynth

/-- A run's directory, by its root. -/
structure RunDirectory where
  root : Path
deriving DecidableEq, Repr, Inhabited

namespace RunDirectory

def historyFile : String := "history.json"

def digestFile : String := "history.digest"

def summaryFile : String := "coverage_summary.md"

def snapshotFile : String := "snapshot.json"

/-- What the name of an iteration's directory starts with. -/
def iterationMark : String := "iter-"

def iterationName (iteration : Nat) : String := iterationMark ++ Number.padded 3 iteration

def iterationDir (d : RunDirectory) (iteration : Nat) : Path :=
  d.root.join ⟨iterationName iteration⟩

def artifactDir (d : RunDirectory) (iteration : Nat) (id : String) : Path :=
  (d.iterationDir iteration).join ⟨id⟩

def historyPath (d : RunDirectory) : Path := d.root.join ⟨historyFile⟩

def digestPath (d : RunDirectory) : Path := d.root.join ⟨digestFile⟩

def summaryPath (d : RunDirectory) : Path := d.root.join ⟨summaryFile⟩

/-- What cleaning does with an entry of the root. -/
inductive Treatment where
  | keep
  | removeDirectory
  | removeFile
deriving DecidableEq, Repr

/-- Directories of iterations and the files of a run go; all else stays. -/
def treatment (name : String) (isDirectory : Bool) : Treatment :=
  if iterationMark.toList.isPrefixOf name.toList && isDirectory then .removeDirectory
  else if [historyFile, digestFile, summaryFile].contains name then .removeFile
  else .keep

/-- Treats one entry of the root. -/
def cleanEntry (d : RunDirectory) (name : String) : FileAction Unit :=
  let path := d.root.join ⟨name⟩
  .change fun files => match treatment name (files.isDirectory path) with
    | .keep => .ok files
    | .removeDirectory => files.removeDirectory path
    | .removeFile => files.removeFile path

/-- Makes the root and, if asked, removes what an earlier run left there, from the last name to the
first. -/
def prepare (d : RunDirectory) (clean : Bool) : FileAction Unit := do
  .makeDirectories d.root
  if clean then
    let names ← .look (·.names d.root)
    names.reverse.forM d.cleanEntry

/-- Writes the history and then its digest. -/
def writeHistory (d : RunDirectory) (r : RunReport) : FileAction Path := do
  let json := Text.encode r.toJson.pretty
  .makeDirectories d.root
  .write d.historyPath json
  .writeText d.digestPath (Digest.ofBytes json)
  return d.historyPath

/-- The report in the bytes of a history. -/
def decodeHistory? (bytes : Text.Bytes) : Option RunReport :=
  (Json.parse? bytes).bind RunReport.ofJson?

/-- Reads the history, if its digest is the one beside it. -/
def readHistory (d : RunDirectory) (files : FileTree) : Except Failure RunReport := do
  let json ← Failure.ofFile (files.read d.historyPath)
  let expected := Text.trimString (← Failure.ofFile (files.readText d.digestPath))
  let actual := Digest.ofBytes json
  if expected != actual then throw (.digestMismatch expected actual)
  else match decodeHistory? json with
    | some r => return r
    | none => throw .malformedData

/-- Writes the snapshot of an iteration. -/
def writeSnapshot (iterationDir : Path) (s : Snapshot) : FileAction Path := do
  let path := iterationDir.join ⟨snapshotFile⟩
  .makeDirectories iterationDir
  .writeText path s.toJson.pretty
  return path

def writeSummary (d : RunDirectory) (r : RunReport) : FileAction Path := do
  .writeText d.summaryPath r.summary
  return d.summaryPath

end RunDirectory

/-- Writes a test and the stand-ins it includes; gives the path of its source. -/
def TestArtifact.write (a : TestArtifact) (dir : Path) : FileAction Path := do
  .makeDirectories dir
  a.supportFiles.forM fun (name, text) => .writeText (dir.join ⟨name⟩) text
  .writeText (dir.join a.filePath) a.sourceText
  return dir.join a.filePath

end TestSynth
